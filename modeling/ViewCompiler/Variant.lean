/-!
# Numbered variants

Several closed sets of variants are written to logs and reports by name, and other tools refer
to them by number. A number outside the set still has a text, and a question about it that only
the variants can answer is refused.
-/

namespace ViewCompiler

/-- A closed set of variants, numbered from zero in the order of `all`. -/
class Variant (α : Type) where
  /-- The variants in the order of their numbers. -/
  all : List α
  /-- The name of a variant. -/
  name : α → String
  /-- The text of a number that belongs to no variant. -/
  unknown : Int → String

namespace Variant

/-- The variant with the given number. -/
def ofNumber? (α : Type) [Variant α] (n : Int) : Option α :=
  if n < 0 then none else (all (α := α))[n.toNat]?

/-- The text of a number: the name of its variant, or the text for unknown numbers. -/
def describe (α : Type) [Variant α] (n : Int) : String :=
  match ofNumber? α n with
  | some a => name a
  | none => unknown α n

/-- A number of the set is described by the name of its variant. -/
theorem describe_of_ofNumber? {α : Type} [Variant α] {n : Int} {a : α}
    (h : ofNumber? α n = some a) : describe α n = name a := by
  simp [describe, h]

end Variant

end ViewCompiler
