import Mathlib.Tactic.IntervalCases
import ViewCompiler.Proofs.Text.Pieces
import ViewCompiler.Text.Basic

/-!
# Numbers in decimal digits

A number is written with digits only, without leading zeros, and reading its digits gives the number
back. An integer is written with its sign in front.
-/

namespace ViewCompiler.Text

theorem isDigit_of_mem_digits {n : Nat} {c : Char} (h : c ∈ digits n) : c.isDigit = true :=
  Nat.isDigit_of_mem_toDigits (by decide) (by decide) h

theorem digits_ne_nil (n : Nat) : digits n ≠ [] :=
  List.ne_nil_of_length_pos Nat.length_toDigits_pos

theorem digits_zero : digits 0 = ['0'] := rfl

/-- The digits of a number give the number back. -/
theorem foldl_digits (n : Nat) : (digits n).foldl (fun m c => 10 * m + digitValue c) 0 = n :=
  Nat.ofDigitChars_toDigits (by decide) (by decide)

theorem readNat?_digits (n : Nat) : readNat? (digits n) = some n := by
  have hempty : (digits n).isEmpty = false := by
    rw [List.isEmpty_eq_false_iff]
    exact digits_ne_nil n
  have hall : (digits n).any (!·.isDigit) = false := by
    rw [List.any_eq_false]
    intro c hc
    rw [isDigit_of_mem_digits hc]
    decide
  rw [readNat?, hempty, hall, if_neg (by decide), foldl_digits]

/-- Only zero is written with a zero in front. -/
private theorem head?_digits_ne_zero {n : Nat} (h : n ≠ 0) : (digits n).head? ≠ some '0' := by
  induction n using Nat.strongRecOn with
  | ind n ih =>
    by_cases hlt : n < 10
    · rw [digits, Nat.toDigits_of_lt_base hlt]
      interval_cases n
      · exact (h rfl).elim
      all_goals decide
    · have hdigits : digits n = digits (n / 10) ++ [(n % 10).digitChar] :=
        Nat.toDigits_of_base_le (by decide) (by omega)
      have hhead := ih (n / 10) (by omega) (by omega)
      obtain ⟨c, cs, hcons⟩ := List.exists_cons_of_ne_nil (digits_ne_nil (n / 10))
      rw [hcons] at hhead hdigits
      rw [hdigits]
      exact hhead

/-- The first digit of a number. -/
theorem exists_digits_eq_cons (n : Nat) :
    ∃ d ds, digits n = d :: ds ∧ d.isDigit = true ∧ (n ≠ 0 → d ≠ '0') := by
  obtain ⟨d, ds, hds⟩ := List.exists_cons_of_ne_nil (digits_ne_nil n)
  refine ⟨d, ds, hds, isDigit_of_mem_digits (hds ▸ List.mem_cons_self), ?_⟩
  rintro hn rfl
  exact head?_digits_ne_zero hn (by rw [hds]; rfl)

/-- An integer is written as its digits, behind a sign if it is negative. -/
theorem toList_toString (n : Int) :
    (toString n).toList = (if n < 0 then ['-'] else []) ++ digits n.natAbs := by
  have hrepr : ∀ m : Nat, (Nat.repr m).toList = digits m := by
    intro m
    rw [Nat.repr_eq_ofList_toDigits, String.toList_ofList]
    rfl
  cases n with
  | ofNat m =>
    change (Nat.repr m).toList = _
    rw [hrepr, if_neg (by simp)]
    rfl
  | negSucc m =>
    change ("-" ++ Nat.repr (m + 1)).toList = _
    rw [String.toList_append, hrepr, if_pos (by simp)]
    rfl

/-- Whether a character may occur in an integer. -/
def isNumeral (c : Char) : Bool := c.isDigit || c = '-'

theorem isNumeral_of_isDigit {c : Char} (h : c.isDigit = true) : isNumeral c = true := by
  rw [isNumeral, h, Bool.true_or]

/-- An integer starts with its sign or a digit, and goes on with digits. -/
theorem exists_toList_toString (n : Int) :
    ∃ c cs, (toString n).toList = c :: cs ∧ isNumeral c = true ∧ ∀ d ∈ cs, d.isDigit = true := by
  obtain ⟨d, ds, hds, -⟩ := exists_digits_eq_cons n.natAbs
  have hdigits : ∀ c ∈ digits n.natAbs, c.isDigit = true := fun c hc => isDigit_of_mem_digits hc
  rw [toList_toString]
  split
  · exact ⟨'-', digits n.natAbs, rfl, rfl, hdigits⟩
  · rw [hds] at hdigits ⊢
    obtain ⟨hd, hds⟩ := List.forall_mem_cons.1 hdigits
    exact ⟨d, ds, rfl, isNumeral_of_isDigit hd, hds⟩

end ViewCompiler.Text
