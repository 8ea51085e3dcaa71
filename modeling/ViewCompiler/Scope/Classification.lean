import ViewCompiler.Scope.Change

/-!
# Classifying values

When a tree is built, every value in it is classified as constant or not, once and for all, and
later phases look the answer up. Classifying relies on what resolving names has made sure of: that
every name refers to something, that nothing but a call refers to a method, and that a loop has a
source. Where such a promise is broken, the run ends.
-/

namespace ViewCompiler

open ViewCompiler.Text ViewCompiler.Template

namespace Frames

/-- Classifies a property of an instance: it must not be assigned by a method, and what is fed to it
from outside must be constant. -/
def classifyProperty (classify : Value → Except Problem Bool) (f : Frame) (m : Metadata)
    (property : String) : Except Problem Bool :=
  if m.canMutate property then .ok false
  else
    match f.input? property with
    | some b => classify b.value
    | none => .ok true

/-- Classifies the properties of an instance up to the first one that can change. -/
def classifyInstance (classify : Value → Except Problem Bool) (f : Frame) (m : Metadata) :
    Except Problem Bool := m.properties.allM (classifyProperty classify f m)

/-- Classifies what a name refers to, read as a path or `called` as a method. -/
def classifyName (called : Bool) : Frames → String → Except Problem Bool
  | [], name => .error (.violation s!"value {name} has no definition factory")
  | f :: outer, name =>
    match f.declares? name with
    | none => classifyName called outer name
    | some kind =>
      -- The values that feed this frame are read in the frames outside it.
      let classify (v : Value) : Except Problem Bool :=
        match v with
        | .text _ | .literal _ => .ok true
        | .access path => classifyName false outer path.root
        | .call method arguments => do
          let constants ← arguments.mapM fun
            | .literal _ => Except.ok true
            | .access path => classifyName false outer path.root
            | .payload => Except.ok false
          let constant ← classifyName true outer method
          return constants.all id && constant
      match called, kind, f.role with
      | true, _, .component m => classifyInstance classify f m
      | true, _, _ => .error (.violation s!"call {name} resolved to a scope without metadata")
      | false, .property, .component m => classifyProperty classify f m name
      | false, .getter, .component m => classifyInstance classify f m
      | false, .item, .repeating _ | false, .index, .repeating _ =>
        match f.feeds.find? (·.kind = .repeatSource) with
        | some b => classify b.value
        | none => .error (.violation s!"{f.text} has no source")
      | false, kind, _ => .error (.violation s!"property access {name} resolved to {kind.name}")

/-- Classifies an argument of a call. -/
def classifyArgument (fs : Frames) : Argument → Except Problem Bool
  | .literal _ => .ok true
  | .access path => classifyName false fs path.root
  | .payload => .ok false

/-- Classifies a value that is read in the given frames. -/
def classify (fs : Frames) : Value → Except Problem Bool
  | .text _ | .literal _ => .ok true
  | .access path => classifyName false fs path.root
  | .call method arguments => do
    let constants ← arguments.mapM (classifyArgument fs)
    let constant ← classifyName true fs method
    return constants.all id && constant

end Frames

/-- The arguments of a value. -/
def Template.Value.arguments : Value → List Argument
  | .call _ arguments => arguments
  | .text _ | .literal _ | .access _ => []

/-- The classification of the values of a tree. -/
abbrev Constants := List (Occurrence × Bool)

namespace Placed

/-- The occurrence of an argument in the value of a binding. -/
def argumentOccurrence (p : Placed) (r : Read) (a : Argument) (i : Nat) : Occurrence :=
  ⟨p.id, r.number, some i, a.render⟩

/-- Classifies the value of a binding and its arguments. -/
def classifyRead (p : Placed) (r : Read) : Except Problem Constants := do
  let fs := p.readingFrames r.binding
  let constant ← fs.classify r.binding.value
  let arguments ← r.binding.value.arguments.zipIdx.mapM fun (a, i) => do
    return (p.argumentOccurrence r a i, ← fs.classifyArgument a)
  return (p.occurrence r, constant) :: arguments

end Placed

/-- Classifies every value of a tree. -/
def Tree.constants (t : Tree) : Except Problem Constants := do
  let rows ← t.scopes.mapM fun p => do
    let rows ← p.reads.mapM p.classifyRead
    return rows.flatten
  return rows.flatten

/-- Looks the classification of a value up. -/
def Constants.get (cs : Constants) (v : Occurrence) : Except Problem Bool :=
  match cs.lookup v with
  | some constant => .ok constant
  | none => .error (.violation s!"value {v.text} is not part of the tree")

end ViewCompiler
