import ViewCompiler.Metadata.Basic
import ViewCompiler.Template.Node

/-!
# Scopes seen from inside

Every component instance and every mounted directive is a scope. What a name means is decided by
the frames around it: the frame of the scope itself, then those of the scopes that enclose it, up to
the root. Component frames declare the members of their component and repeating frames their loop
variables; the first frame that declares a name is the one it refers to.

The same list of frames decides whether a value can ever change. A property changes when a method
of its component can assign it or when the value fed to it from outside can change, and what is fed
from outside is read in the frames further out. So the recursion follows the list.
-/

namespace ViewCompiler

open ViewCompiler.Text ViewCompiler.Template

/-- The kinds of scopes. -/
inductive ScopeKind where
  | component | conditional | repeating
  deriving DecidableEq, Repr

namespace ScopeKind

/-- The name of a kind. -/
def name : ScopeKind → String
  | component => "component"
  | conditional => "conditional"
  | repeating => "repeating"

instance : Variant ScopeKind where
  all := [component, conditional, repeating]
  name := name
  unknown n := s!"Kind({n})"

end ScopeKind

/-- What a name can refer to. -/
inductive RefKind where
  | property | getter | method | item | index
  deriving DecidableEq, Repr

namespace RefKind

/-- The name of a kind of reference. -/
def name : RefKind → String
  | property => "property"
  | getter => "getter"
  | method => "method"
  | item => "item"
  | index => "index"

/-- The name of the kind of what may refer to nothing. -/
def nameOf : Option RefKind → String
  | some k => k.name
  | none => "none"

/-- Number zero stands for a name that refers to nothing. -/
instance : Variant (Option RefKind) where
  all := [none, some property, some getter, some method, some item, some index]
  name := nameOf
  unknown n := s!"RefKind({n})"

end RefKind

/-- What a scope is. -/
inductive Role where
  /-- An instance of the component with the given metadata. -/
  | component (metadata : Metadata)
  /-- The content of a conditional. -/
  | conditional
  /-- The content of a repeater. -/
  | repeating (loop : Loop)
  deriving DecidableEq, Repr

/-- The kind of a scope. -/
def Role.kind : Role → ScopeKind
  | component _ => .component
  | conditional => .conditional
  | repeating _ => .repeating

/-- A scope without its content: what it declares, and the bindings that feed it from outside. -/
structure Frame where
  id : Nat
  name : String
  role : Role
  /-- The inputs and outputs of an instance, or the path of a directive. -/
  feeds : List Binding
  deriving DecidableEq, Repr

namespace Frame

/-- The name and number of a scope. -/
def text (f : Frame) : String := s!"{f.name}#{f.id}"

/-- The kind of a scope. -/
def kind (f : Frame) : ScopeKind := f.role.kind

/-- The metadata of a component instance. -/
def metadata? (f : Frame) : Option Metadata :=
  match f.role with
  | .component m => some m
  | _ => none

/-- What a name refers to when this scope declares it. -/
def declares? (f : Frame) (name : String) : Option RefKind :=
  match f.role with
  | .component m =>
    match m.member? name with
    | some .property => some .property
    | some .getter => some .getter
    | some .method => some .method
    | none => none
  | .conditional => none
  | .repeating loop =>
    if name = loop.item then some .item
    else if name ≠ "" ∧ name = loop.index then some .index
    else none

/-- The names this scope declares. -/
def declared (f : Frame) : List String :=
  match f.role with
  | .component m => m.members
  | .conditional => []
  | .repeating loop => loop.item :: (if loop.index = "" then [] else [loop.index])

/-- The input that an instance receives for a property; of several the last one counts. -/
def input? (f : Frame) (property : String) : Option Binding :=
  (f.feeds.filter fun b => b.kind = .input ∧ b.name = property).getLast?

end Frame

/-- The frames around a place, the innermost first. -/
abbrev Frames := List Frame

namespace Frames

/-- The nearest component instance, with the frames from there outwards. -/
def boundary? : Frames → Option Frames
  | [] => none
  | f :: outer => if f.kind = .component then some (f :: outer) else boundary? outer

/-- The name of the component whose template a place belongs to. -/
def ownerName (fs : Frames) : String := (boundary? fs).elim "" fun fs => fs.head?.elim "" (·.name)

/-- Every name that can be referred to. -/
def visible (fs : Frames) : List String := fs.flatMap Frame.declared

/-- What a name refers to: the kind, and the frames from its definition outwards. -/
structure Origin where
  kind : RefKind
  frame : Frame
  outer : Frames
  deriving DecidableEq, Repr

/-- The nearest declaration of a name. -/
def resolve? : Frames → String → Option Origin
  | [], _ => none
  | f :: outer, name =>
    match f.declares? name with
    | some kind => some ⟨kind, f, outer⟩
    | none => resolve? outer name

/-- The frames from the innermost one up to the one with the given number. -/
def pathTo? (id : Nat) : Frames → Option Frames
  | [] => none
  | f :: outer => if f.id = id then some [f] else (pathTo? id outer).map (f :: ·)

/-! ### Constancy -/

/-- Whether a property of an instance can never change: no method assigns it, and what is fed to it
from outside is constant. -/
def propertyConstantWith (constant : Value → Bool) (f : Frame) (m : Metadata) (property : String) :
    Bool :=
  !m.canMutate property && ((f.input? property).elim true fun b => constant b.value)

/-- Whether no declared property of an instance can ever change. -/
def instanceConstantWith (constant : Value → Bool) (f : Frame) (m : Metadata) : Bool :=
  m.properties.all (propertyConstantWith constant f m)

/-- Whether what a name refers to can never change. A name that refers to nothing, or to a method
without calling it, is no constant. -/
def nameConstant : Frames → String → Bool
  | [], _ => false
  | f :: outer, name =>
    match f.declares? name with
    | none => nameConstant outer name
    | some kind =>
      -- The values that feed this frame are read in the frames outside it.
      let constant (v : Value) : Bool :=
        match v with
        | .text _ | .literal _ => true
        | .access path => nameConstant outer path.root
        | .call method arguments =>
          nameConstant outer method && arguments.all fun
            | .literal _ => true
            | .access path => nameConstant outer path.root
            | .payload => false
      match kind, f.role with
      | .property, .component m => propertyConstantWith constant f m name
      | .getter, .component m => instanceConstantWith constant f m
      | .method, .component m => instanceConstantWith constant f m
      | _, .repeating _ => f.feeds.all fun b => constant b.value
      | _, _ => false

/-- Whether an argument can never change. -/
def argumentConstant (fs : Frames) : Argument → Bool
  | .literal _ => true
  | .access path => nameConstant fs path.root
  | .payload => false

/-- Whether a value read in the given frames can never change. A call is constant when its
arguments are and no property of the instance that declares its method can change. -/
def valueConstant (fs : Frames) : Value → Bool
  | .text _ | .literal _ => true
  | .access path => nameConstant fs path.root
  | .call method arguments => nameConstant fs method && arguments.all (argumentConstant fs)

end Frames

end ViewCompiler
