/-!
# Runs of characters

A class of characters outside the ASCII range is given by a list of runs: a first code
point, a last one, and the step between neighbours. Steps of two occur where upper and lower
case letters alternate. Case mappings are runs with a common offset.
-/

namespace ViewCompiler.Text

/-- The code points `first, first + step, …, last`. -/
structure CharRun where
  first : Nat
  last : Nat
  step : Nat

namespace CharRun

/-- Whether code point `n` belongs to the run. -/
def contains (r : CharRun) (n : Nat) : Bool :=
  r.first ≤ n && n ≤ r.last && (n - r.first) % r.step == 0

theorem contains_iff {r : CharRun} {n : Nat} :
    r.contains n = true ↔ r.first ≤ n ∧ n ≤ r.last ∧ (n - r.first) % r.step = 0 := by
  simp [contains, and_assoc]

end CharRun

/-- Whether character `c` belongs to one of the runs. -/
def CharRun.anyContains (table : List CharRun) (c : Char) : Bool :=
  table.any (·.contains c.toNat)

/-- A run of characters that are all mapped by adding the same offset. -/
structure CharShift where
  run : CharRun
  offset : Int

/-- The image of `c` under a table of shifts; a character outside every run stays. -/
def CharShift.apply (table : List CharShift) (c : Char) : Char :=
  match table.find? (·.run.contains c.toNat) with
  | some s => Char.ofNat (Int.toNat (Int.ofNat c.toNat + s.offset))
  | none => c

end ViewCompiler.Text
