import ViewCompiler.Reconcile.Plan

/-!
# Instances over time

`Instances` holds one value per key of the list rendered last. An update keeps the value of every
key that stays, asks for a new one for every key that appears, in list order, and drops the
others. A list with a repeated key is refused and changes nothing.
-/

namespace ViewCompiler.Reconcile

/-- The instances of a keyed view, in the order of its keys. -/
structure Instances (κ ν : Type) where
  entries : List (κ × ν) := []

namespace Instances

variable {κ ν : Type}

/-- The keys rendered last. -/
def keys (s : Instances κ ν) : List κ := s.entries.map (·.1)

/-- The instances in key order. -/
def items (s : Instances κ ν) : List ν := s.entries.map (·.2)

/-- The number of instances. -/
def size (s : Instances κ ν) : Nat := s.entries.length

/-- The instance of a key. -/
def get? [DecidableEq κ] (s : Instances κ ν) (k : κ) : Option ν := s.entries.lookup k

/-- Replaces the key list. `create` is run once for every key that was absent, in list order. -/
def update {m : Type → Type} [Monad m] [DecidableEq κ] (s : Instances κ ν) (keys : List κ)
    (create : κ → m ν) : m (Except (DuplicateKey κ) (Plan × Instances κ ν)) :=
  match diff s.keys keys with
  | .error d => pure (.error d)
  | .ok plan => do
    let entries ← (keys.zip plan.reuse).mapM fun (k, reuse) =>
      match reuse.bind (s.entries[·]?) with
      | some (_, v) => pure (k, v)
      | none => do return (k, ← create k)
    return .ok (plan, ⟨entries⟩)

end Instances

end ViewCompiler.Reconcile
