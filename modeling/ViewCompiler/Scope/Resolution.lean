import ViewCompiler.Scope.Tree

/-!
# Resolving names

Every path and every call in a scope tree has to refer to a declaration around it: a path to a
property, a getter or a loop variable, a call to a method. What feeds a component has to name one
of its properties. `Tree.build` expands a root and checks all of this, scope by scope in the order
of their numbers; the first name that fails is the answer.
-/

namespace ViewCompiler

open ViewCompiler.Text ViewCompiler.Template

/-! ### Checking one name -/

/-- A name in a binding, looked up in the given frames. -/
structure Mention where
  name : String
  /-- The whole path or call, as messages show it. -/
  path : String
  binding : Binding
  frames : Frames

namespace Mention

/-- The report of a mention, with the reason why it does not do. -/
def report (m : Mention) (reason : String) (candidates : List String := []) : Problem :=
  .unresolved {
    component := m.frames.ownerName
    name := m.name
    path := m.path
    reason
    scope := m.frames.head?.elim "" Frame.text
    span := m.binding.span
    candidates }

/-- Checks that a mention has a nearest declaration that `accept`s its kind; a kind that is not
accepted gives the reason. -/
def check (m : Mention) (accept : RefKind → Option String) : Except Problem Unit :=
  match m.frames.resolve? m.name with
  | none => .error (m.report "" (suggest m.name m.frames.visible))
  | some d =>
    match accept d.kind with
    | some reason => .error (m.report reason)
    | none => .ok ()

/-- Checks a path: anything but a method can be read. -/
def checkAccess (m : Mention) : Except Problem Unit :=
  m.check fun kind => if kind = .method then some "is a method and must be called" else none

/-- Checks a call: only a method can be called. -/
def checkCall (m : Mention) : Except Problem Unit :=
  m.check fun kind => if kind = .method then none else some s!"is a {kind.name}, not a method"

end Mention

/-! ### Checking bindings -/

/-- Checks the names in an argument. -/
def checkArgument (b : Binding) (fs : Frames) : Argument → Except Problem Unit
  | .literal _ | .payload => .ok ()
  | .access path => Mention.checkAccess ⟨path.root, path.render, b, fs⟩

/-- Checks the names in the value of a binding, read in the given frames. -/
def checkValue (b : Binding) (fs : Frames) : Except Problem Unit :=
  match b.value with
  | .text _ | .literal _ => .ok ()
  | .access path => Mention.checkAccess ⟨path.root, path.render, b, fs⟩
  | .call method arguments => do
    Mention.checkCall ⟨method, b.value.render, b, fs⟩
    arguments.forM (checkArgument b fs)

/-- Checks that an input or output names a property of the component it feeds. -/
def checkTarget (p : Placed) (b : Binding) : Except Problem Unit :=
  match b.kind, p.frame.metadata? with
  | .input, some m | .output, some m =>
    if m.member? b.name = some .property then .ok ()
    else .error (.unresolved {
      component := p.outer.ownerName
      name := b.name
      path := b.name
      reason := s!"is not a property of {p.frame.name}"
      scope := p.frame.text
      span := b.span
      candidates := suggest b.name m.properties })
  | _, _ => .ok ()

/-- Checks every name a scope reads: first those in its own view, then those that feed it. -/
def Placed.check (p : Placed) : Except Problem Unit := do
  p.ownBindings.forM fun b => checkValue b p.frames
  p.frame.feeds.forM fun b => do
    checkTarget p b
    checkValue b p.outer

/-! ### Trees -/

/-- A scope tree in which every name resolves. -/
structure Tree where
  root : Scope
  /-- The next free number. -/
  nextId : Nat

namespace Tree

/-- Builds the tree of a root definition, with numbers from `firstId` on. -/
def build (lib : Library) (firstId : Nat) (root : Option Definition) : Except Problem Tree := do
  let (scope, nextId) ← Scope.ofDefinition lib firstId root
  scope.placed.forM Placed.check
  return ⟨scope, nextId⟩

/-- All scopes in the order of their numbers. -/
def scopes (t : Tree) : List Placed := t.root.placed

end Tree

/-! ### Reading values -/

/-- What a path or call refers to. -/
structure Reference where
  kind : RefKind
  name : String
  /-- The number of the scope that declares the name. -/
  definition : Nat
  deriving DecidableEq, Repr

/-- What a name refers to in the given frames. -/
def Frames.reference? (fs : Frames) (name : String) : Option Reference :=
  (fs.resolve? name).map fun d => ⟨d.kind, name, d.frame.id⟩

/-- What an argument refers to. -/
def Template.Argument.reference? (fs : Frames) : Argument → Option Reference
  | .access path => fs.reference? path.root
  | .literal _ | .payload => none

/-- What a value refers to. -/
def Template.Value.reference? (fs : Frames) : Value → Option Reference
  | .access path => fs.reference? path.root
  | .call method _ => fs.reference? method
  | .text _ | .literal _ => none

/-- The numbers of the scopes from the innermost of `fs` out to a definition. -/
def Frames.accessTo (fs : Frames) (definition : Nat) : List Nat :=
  ((Frames.pathTo? definition fs).getD []).map (·.id)

end ViewCompiler
