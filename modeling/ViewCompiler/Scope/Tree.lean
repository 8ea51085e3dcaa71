import ViewCompiler.Problem
import ViewCompiler.Scope.Frame
import ViewCompiler.Template.Copy

/-!
# The scope tree

Compiling a component lays out every scope that a running page can mount: the component itself, the
components its template uses, and the content of its directives, each as a child of the scope that
mounts it. A scope saves the nodes of its view in document order, the anchors of its children
included, and each saved node has an index counted in document slots.

Numbers are handed out in document order before the children are entered, so the tree read in
pre-order lists the scopes by number. Expansion ends because no component may be entered twice on
the way from the root.
-/

namespace ViewCompiler

open ViewCompiler.Text ViewCompiler.Template

/-- A compilable component. -/
structure Definition where
  name : String
  template : List Node
  metadata : Option Metadata
  deriving Repr, Inhabited

/-- The definitions that component tags refer to. -/
structure Library where
  find? : String → Option Definition
  /-- The names of all definitions that can be found. -/
  names : List String
  mem_names : ∀ {tag : String} {d : Definition}, find? tag = some d → d.name ∈ names

/-- The library in which a tag refers to the definition listed under it. -/
def Library.ofList (entries : List (String × Definition)) : Library where
  find? tag := entries.lookup tag
  names := entries.map (·.2.name)
  mem_names := by
    intro tag d h
    induction entries with
    | nil => simp at h
    | cons e es ih =>
      obtain ⟨k, v⟩ := e
      rw [List.lookup_cons] at h
      split at h
      · simp_all
      · exact List.mem_cons_of_mem _ (ih h)

/-- A saved node: its index in the document of its scope, and the scope mounted at it. -/
structure Slot where
  index : Nat
  node : Node
  mounted : Option Nat := none
  deriving Repr

/-- A scope with everything mounted inside it. -/
inductive Scope where
  | mk (frame : Frame) (anchor : Option Node) (view : List Node) (saved : List Slot) (slots : Nat)
      (children : List Scope)
  deriving Repr

namespace Scope

/-- The scope without its content. -/
def frame : Scope → Frame
  | mk f _ _ _ _ _ => f

/-- The node at which the scope is mounted; the root has none. -/
def anchor : Scope → Option Node
  | mk _ a _ _ _ _ => a

/-- The forest that the scope materialises. -/
def view : Scope → List Node
  | mk _ _ v _ _ _ => v

/-- The saved nodes in document order. -/
def saved : Scope → List Slot
  | mk _ _ _ s _ _ => s

/-- The number of document slots that the saved nodes take. -/
def slots : Scope → Nat
  | mk _ _ _ _ n _ => n

/-- The scopes mounted directly in this one, in document order. -/
def children : Scope → List Scope
  | mk _ _ _ _ _ cs => cs

end Scope

/-! ### Expansion -/

/-- What expanding a forest adds to its scope: saved nodes, mounted scopes, and the next free index
and number. -/
structure Expansion where
  saved : List Slot := []
  children : List Scope := []
  nextIndex : Nat
  nextId : Nat

namespace Library

/-- The definitions that have not been entered on the way from the root. -/
def unentered (lib : Library) (entered : List String) : List String := unseen lib.names entered

private theorem length_unentered_lt {lib : Library} {n : String} {entered : List String}
    (hn : n ∈ lib.names) (hs : n ∉ entered) :
    (lib.unentered (n :: entered)).length < (lib.unentered entered).length :=
  length_unseen_cons_lt hn hs

end Library

/-- The bindings of a node that feed the scope mounted at it. -/
def feedsOf (n : Node) : List Binding := n.bindings.filter (·.kind.isSelf)

/-- Saves a forest into the scope `here` and expands the scopes mounted in it, a component from a
copy of its template. `entered` holds the components from the innermost one up to the root, `owner`
the component whose template the forest belongs to. -/
def expand (lib : Library) (entered : List String) (owner here : String) (index id : Nat) :
    List Node → Except Problem Expansion
  | [] => .ok { nextIndex := index, nextId := id }
  | .element span name bindings inner :: rest => do
    let node := Node.element span name bindings inner
    let content ← expand lib entered owner here (index + node.slots) id inner
    let after ← expand lib entered owner here content.nextIndex content.nextId rest
    return { saved := ⟨index, node, none⟩ :: (content.saved ++ after.saved)
             children := content.children ++ after.children
             nextIndex := after.nextIndex
             nextId := after.nextId }
  | .directive span spec specSpan directive inner :: rest => do
    let node := Node.directive span spec specSpan directive inner
    let (suffix, role) := match directive with
      | .conditional .. => ("If", Role.conditional)
      | .repeating loop => ("For", Role.repeating loop)
    let frame : Frame := ⟨id, owner ++ suffix, role, feedsOf node⟩
    let content ← expand lib entered owner frame.text 0 (id + 1) inner
    let scope := Scope.mk frame (some node) inner content.saved content.nextIndex content.children
    let after ← expand lib entered owner here (index + node.slots) content.nextId rest
    return { saved := ⟨index, node, some id⟩ :: after.saved
             children := scope :: after.children
             nextIndex := after.nextIndex
             nextId := after.nextId }
  | .component span name bindings :: rest => do
    let node := Node.component span name bindings
    match h : lib.find? name with
    | none =>
      throw (.unresolved {
        component := owner, name, path := name, reason := "is not a registered component"
        scope := here, span })
    | some d =>
      match d.metadata with
      | none =>
        throw (.ofCode { category := .validation, code := "missing_metadata", component := d.name
                         message := s!"component {d.name} has no metadata" })
      | some m =>
        if hd : d.name ∈ entered then throw (.recursive (entered.reverse ++ [d.name]))
        else
          have := Library.length_unentered_lt (lib.mem_names h) hd
          let frame : Frame := ⟨id, d.name, .component m, feedsOf node⟩
          let view := copyForest d.template
          let content ← expand lib (d.name :: entered) d.name frame.text 0 (id + 1) view
          let scope :=
            Scope.mk frame (some node) view content.saved content.nextIndex content.children
          let after ← expand lib entered owner here (index + node.slots) content.nextId rest
          return { saved := ⟨index, node, some id⟩ :: after.saved
                   children := scope :: after.children
                   nextIndex := after.nextIndex
                   nextId := after.nextId }
  | node :: rest => do
    let after ← expand lib entered owner here (index + node.slots) id rest
    return { after with saved := ⟨index, node, none⟩ :: after.saved }
termination_by nodes => ((lib.unentered entered).length, sizeOf nodes)

/-- The scope tree of a root definition, with numbers from `firstId` on; also gives the next free
number. -/
def Scope.ofDefinition (lib : Library) (firstId : Nat) (root : Option Definition) :
    Except Problem (Scope × Nat) :=
  match root.bind fun d => d.metadata.map (d, ·) with
  | none =>
    .error (.ofCode { category := .validation, code := "missing_metadata"
                      message := "root definition requires metadata" })
  | some (d, m) => do
    let frame : Frame := ⟨firstId, d.name, .component m, []⟩
    let view := copyForest d.template
    let content ← expand lib [d.name] d.name frame.text 0 (firstId + 1) view
    return (.mk frame none view content.saved content.nextIndex content.children, content.nextId)

/-! ### Scopes in their surroundings -/

/-- A scope together with the frames around it, its own first. -/
structure Placed where
  scope : Scope
  frames : Frames

mutual

/-- A scope and everything below it in pre-order, each with the frames around it. -/
def Scope.placedIn (outer : Frames) : Scope → List Placed
  | .mk f a v s n cs => ⟨.mk f a v s n cs, f :: outer⟩ :: placedAll (f :: outer) cs

/-- Several scopes and everything below them in pre-order. -/
def placedAll (outer : Frames) : List Scope → List Placed
  | [] => []
  | s :: ss => s.placedIn outer ++ placedAll outer ss

end

/-- All scopes of a tree in pre-order, which is the order of their numbers. -/
def Scope.placed (root : Scope) : List Placed := root.placedIn []

namespace Placed

/-- The scope without its content. -/
def frame (p : Placed) : Frame := p.scope.frame

/-- The number of a scope. -/
def id (p : Placed) : Nat := p.frame.id

/-- The frames around the place where the scope is mounted. -/
def outer (p : Placed) : Frames := p.frames.tail

/-- The scope that mounts this one. -/
def parent? (p : Placed) : Option Frame := p.outer.head?

/-- The number of scopes around this one. -/
def depth (p : Placed) : Nat := p.outer.length

/-- The nearest component instance. -/
def boundary? (p : Placed) : Option Frame := (Frames.boundary? p.frames).bind List.head?

/-- The bindings on the saved nodes that the scope itself reads. -/
def ownBindings (p : Placed) : List Binding :=
  p.scope.saved.flatMap fun s => s.node.bindings.filter (!·.kind.isSelf)

/-- The bindings a scope reads: those on its saved nodes, then those that feed it. -/
def bindings (p : Placed) : List Binding := p.ownBindings ++ p.frame.feeds

/-- The frames in which a binding of the scope is read: what feeds a scope is read outside it. -/
def readingFrames (p : Placed) (b : Binding) : Frames := if b.kind.isSelf then p.outer else p.frames

/-- Whether this scope is `other` or one of the scopes around it. -/
def isAncestorOf (p other : Placed) : Bool := other.frames.any (·.id = p.id)

/-- The frames from this scope up to `target`; only a scope around this one can be reached. -/
def pathTo (p target : Placed) : Except String Frames :=
  match Frames.pathTo? target.id p.frames with
  | some path => .ok path
  | none => .error s!"{target.frame.text} is not an ancestor of {p.frame.text}"

/-- The child of this scope on the way down to a scope properly inside it. -/
def nextHop (p descendant : Placed) : Except String Frame :=
  match descendant.pathTo p with
  | .error e => .error e
  | .ok path =>
    match path.reverse with
    | _ :: hop :: _ => .ok hop
    | _ => .error s!"{descendant.frame.text} is not a proper descendant of {p.frame.text}"

end Placed

end ViewCompiler
