import ViewCompiler.Program.Basic
import ViewCompiler.Scope.Classification
import ViewCompiler.Scope.Ledger

/-!
# Projecting a compilation

A program is read off a compilation through its tables: the scope that reads a binding from the
ledger, whether a value is constant from the classification, and what it refers to from the names
around it. Looking up something that was never recorded ends the run.
-/

namespace ViewCompiler.Program

open ViewCompiler.Template

/-- The tables of a tree. -/
structure Tables where
  tree : Tree
  ledger : Ledger
  constants : Constants

/-- Records the tables of a tree. -/
def Tables.ofTree (tree : Tree) : Except Problem Tables := do
  let ledger ← tree.ledger
  let constants ← tree.constants
  return ⟨tree, ledger, constants⟩

/-- The frames in which a binding of a scope is read, from those of the scope that reads it. -/
def Tables.framesOf (ts : Tables) (p : Placed) (r : Read) : Except Problem Frames := do
  let id ← ts.ledger.consumer p r
  match ts.tree.scopes.find? (·.id = id) with
  | some consumer => .ok (consumer.readingFrames r.binding)
  | none => .error (.violation s!"binding {r.binding.render} is read outside the tree")

/-- What a value refers to, and the way there from the frames of its consumer. -/
def Operand.resolve (o : Operand) (consumer : Frames) (reference : Option Reference) :
    Except Problem Operand :=
  match reference with
  | none => .error (.violation s!"value {o.text} is unresolved")
  | some r =>
    match Frames.pathTo? r.definition consumer with
    | none => .error (.violation s!"{r.definition} is not an ancestor of the consumer of {o.text}")
    | some path =>
      .ok { o with
            refKind := r.kind.name
            definition := some r.definition
            access := path.map fun f => (f.id : Int) }

/-- An argument of a call, read in the given frames. -/
def Tables.argument (ts : Tables) (fs : Frames) (occurrence : Occurrence) (a : Argument) :
    Except Problem Operand := do
  let base : Operand := { text := a.render, constant := ← ts.constants.get occurrence }
  match a with
  | .literal _ => return { base with kind := "literal" }
  | .payload => return { base with kind := "placeholder" }
  | .access _ => Operand.resolve { base with kind := "property" } fs (a.reference? fs)

/-- The value of a binding of a scope, read in the given frames. -/
def Tables.value (ts : Tables) (p : Placed) (r : Read) (fs : Frames) : Except Problem Value := do
  let v := r.binding.value
  let base : Operand := { text := v.render, constant := ← ts.constants.get (p.occurrence r) }
  match v with
  | .text content => return ⟨{ base with kind := "constant", text := content }, []⟩
  | .literal _ => return ⟨{ base with kind := "literal" }, []⟩
  | .access _ =>
    return ⟨← Operand.resolve { base with kind := "property" } fs (v.reference? fs), []⟩
  | .call _ arguments =>
    let operand ← Operand.resolve { base with kind := "call" } fs (v.reference? fs)
    let arguments ← arguments.zipIdx.mapM fun (a, i) => do
      return ⟨← ts.argument fs (p.argumentOccurrence r a i) a, []⟩
    return ⟨operand, arguments⟩

/-- A binding of a scope. -/
def Tables.binding (ts : Tables) (p : Placed) (r : Read) : Except Problem Binding := do
  let fs ← ts.framesOf p r
  return { kind := r.binding.kind.name, name := r.binding.name, value := ← ts.value p r fs }

/-- A saved node of a scope. -/
def Tables.node (ts : Tables) (p : Placed) (s : Slot) : Except Problem Node := do
  let bindings ← (p.reads.filter (·.node = some s.index)).mapM (ts.binding p)
  return { ofSlot p.frames s with bindings }

/-- A scope, given its change map and the scope that mounts it. -/
def Tables.scope (ts : Tables) (changes : ChangeMap) (parent : Option Placed) (p : Placed) :
    Except Problem Scope := do
  let selfBindings ← (p.reads.filter (·.node = none)).mapM (ts.binding p)
  let nodes ← p.scope.saved.mapM (ts.node p)
  return { ofPlaced changes parent p with selfBindings, nodes }

/-- The program of a compilation, read off its tables. -/
def project (c : Compilation) : Except Problem Program := do
  let ts ← Tables.ofTree c.tree
  let scopes ← c.tree.scopes.mapM fun p =>
    ts.scope (c.changes.of p.id)
      (p.parent?.bind fun f => c.tree.scopes.find? (·.id = f.id)) p
  return { ofCompilation c with scopes := some scopes }

end ViewCompiler.Program
