/-!
# Numbers of a fixed size

The range of integers of 64 bits, and the powers of ten that decimal fractions are cut with.
-/

namespace ViewCompiler.Word

/-- How many numbers 64 bits can tell apart. -/
def count : Nat := 0x10000000000000000

/-- The least number that is too large for 64 bits with a sign. -/
def half : Nat := 0x8000000000000000

/-- Whether an integer fits into 64 bits with a sign. -/
def fits (n : Int) : Bool := -(half : Int) ≤ n && n < half

/-- A power of ten. -/
def tenTo (n : Nat) : Nat := Nat.pow 10 n

end ViewCompiler.Word
