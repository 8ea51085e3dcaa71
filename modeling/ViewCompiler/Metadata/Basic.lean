import ViewCompiler.Graph
import ViewCompiler.Text.Quoted
import ViewCompiler.Variant

/-!
# Component metadata

What the compiler has to know about a component besides its template: the names it declares, which
methods call which, and which properties each method assigns. The direct edges are closed once, so
that `mutates` of a method covers everything it calls. A property that no method can assign never
changes by itself.
-/

namespace ViewCompiler

open ViewCompiler.Text

/-- The kinds of declared members. -/
inductive MemberKind where
  | property | getter | method
  deriving DecidableEq, Repr

namespace MemberKind

/-- The name of a kind. -/
def name : MemberKind → String
  | property => "property"
  | getter => "getter"
  | method => "method"

/-- The name of the kind of a name, which may be declared or not. -/
def nameOf : Option MemberKind → String
  | some k => k.name
  | none => "none"

/-- Number zero stands for a name that is not declared. -/
instance : Variant (Option MemberKind) where
  all := [none, some property, some getter, some method]
  name := nameOf
  unknown _ := "none"

end MemberKind

/-- The direct edges of one method. -/
structure MethodEdges where
  calls : List String := []
  assigns : List String := []
  deriving DecidableEq, Repr, Inhabited

/-- The members of a component as declared, with direct edges. -/
structure Declaration where
  name : String
  properties : List String := []
  getters : List String := []
  methods : List (String × MethodEdges) := []
  deriving DecidableEq, Repr, Inhabited

/-- A method with the transitive closure of its edges. -/
structure Method where
  name : String
  /-- The methods reached by one or more calls, sorted. -/
  reachable : List String
  /-- The names assigned by the method or by any method it reaches, sorted. -/
  mutates : List String
  deriving DecidableEq, Repr, Inhabited

/-- The members of a component, sorted, with their edges closed. -/
structure Metadata where
  name : String
  properties : List String
  getters : List String
  methods : List Method
  deriving DecidableEq, Repr, Inhabited

/-! ### Declaring members -/

/-- Why a declaration is refused. -/
inductive DeclarationError where
  | emptyName (component : String)
  | declaredTwice (component member : String) (first second : MemberKind)
  deriving DecidableEq, Repr

/-- The message for a refused declaration. -/
def DeclarationError.message : DeclarationError → String
  | emptyName component => s!"component {component}: empty member name"
  | declaredTwice component member first second =>
    s!"component {component}: " ++ quote member ++
      s!" declared as both {first.name} and {second.name}"

namespace Declaration

/-- All declared members in the order they are checked. -/
def members (d : Declaration) : List (String × MemberKind) :=
  d.properties.map (·, .property) ++ d.getters.map (·, .getter) ++ d.methods.map (·.1, .method)

/-- The first member that has no name or repeats one of the earlier members `seen`. -/
def checkFrom (component : String) (seen : List (String × MemberKind)) :
    List (String × MemberKind) → Except DeclarationError Unit
  | [] => .ok ()
  | (name, kind) :: rest =>
    if name = "" then .error (.emptyName component)
    else match seen.lookup name with
      | some first => .error (.declaredTwice component name first kind)
      | none => checkFrom component ((name, kind) :: seen) rest

/-- Checks that every member has a name of its own. -/
def check (d : Declaration) : Except DeclarationError Unit := checkFrom d.name [] d.members

/-- The calls between declared methods. -/
def callGraph (d : Declaration) : Graph :=
  ⟨d.methods.map fun (m, e) => (m, e.calls.filter (d.methods.map (·.1)).contains)⟩

/-- What a method assigns directly. -/
def assignsOf (d : Declaration) (method : String) : List String :=
  (d.methods.lookup method).elim [] (·.assigns)

/-- A method with its edges closed. -/
def close (d : Declaration) (method : String) : Method :=
  let reachable := d.callGraph.reachable method
  { name := method
    reachable
    mutates := sortedSet (d.assignsOf method ++ reachable.flatMap d.assignsOf) }

end Declaration

/-! ### Metadata -/

namespace Metadata

/-- The metadata of a declaration. Calls of undeclared methods are ignored, assignments to
undeclared names are kept. -/
def ofDeclaration (d : Declaration) : Except DeclarationError Metadata := do
  d.check
  return {
    name := d.name
    properties := sortStrings d.properties
    getters := sortStrings d.getters
    methods := (sortStrings (d.methods.map (·.1))).map d.close }

/-- The kind of a name. -/
def member? (m : Metadata) (name : String) : Option MemberKind :=
  if m.properties.contains name then some .property
  else if m.getters.contains name then some .getter
  else if m.methods.any (·.name == name) then some .method
  else none

/-- A declared method. -/
def method? (m : Metadata) (name : String) : Option Method := m.methods.find? (·.name == name)

/-- The methods reached from a method. -/
def reachable (m : Metadata) (method : String) : List String :=
  (m.method? method).elim [] (·.reachable)

/-- The names a method can assign. -/
def mutates (m : Metadata) (method : String) : List String := (m.method? method).elim [] (·.mutates)

/-- Whether some method can assign the name. -/
def canMutate (m : Metadata) (name : String) : Bool := m.methods.any (·.mutates.contains name)

/-- Every declared name, sorted. -/
def members (m : Metadata) : List String :=
  sortStrings (m.properties ++ m.getters ++ m.methods.map (·.name))

/-- The declared properties that some method can assign. -/
def mutableProperties (m : Metadata) : List String := m.properties.filter m.canMutate

/-- Whether some declared property can be assigned. -/
def hasMutableState (m : Metadata) : Bool := m.properties.any m.canMutate

/-- The declaration with every direct edge replaced by the closed ones. -/
def toDeclaration (m : Metadata) : Declaration :=
  { name := m.name
    properties := m.properties
    getters := m.getters
    methods := m.methods.map fun f => (f.name, ⟨f.reachable, f.mutates⟩) }

end Metadata

end ViewCompiler
