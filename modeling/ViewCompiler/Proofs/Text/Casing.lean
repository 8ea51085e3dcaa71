import Mathlib
import ViewCompiler.Proofs.Text.Pieces
import ViewCompiler.Text.Casing

/-!
# Words of ASCII letters and digits

On ASCII letters and digits, lower and title case of running text are what they are character by
character: no final sigma, no character that becomes several ones, and no end of a word.
-/

namespace ViewCompiler.Text.Casing

variable {c : Char}

theorem isAscii_of_isAlphanum (h : c.isAlphanum = true) : isAscii c = true := by
  simp only [Char.isAlphanum, Char.isAlpha, Char.isUpper, Char.isLower, Char.isDigit,
    Bool.or_eq_true,
    Bool.and_eq_true, decide_eq_true_eq, UInt32.le_iff_toNat_le, ge_iff_le] at h
  simp only [isAscii, Char.toNat, decide_eq_true_eq]
  have hbounds : 'Z'.val.toNat = 90 ∧ 'z'.val.toNat = 122 ∧ '9'.val.toNat = 57 := ⟨rfl, rfl, rfl⟩
  omega

private theorem lowerFull_of_isAscii (h : isAscii c = true) : lowerFull c = [c.toLower] := by
  have hlt : c.toNat < 0x80 := of_decide_eq_true h
  rw [lowerFull, if_neg (by omega), lowerChar, if_pos h]

private theorem lowerInside_of_isAscii (h : isAscii c = true) (after : List Char) :
    lowerInside c after = [c.toLower] := by
  have hsigma : c ≠ 'Σ' := by
    rintro rfl
    exact absurd h (by decide)
  rw [lowerInside, if_neg hsigma, lowerFull_of_isAscii h]

private theorem titleFull_of_isAscii (h : isAscii c = true) : titleFull c = [c.toUpper] := by
  have hlt : c.toNat < 0x80 := of_decide_eq_true h
  have htable : ∀ p ∈ CharTable.titleExpansions, 0x80 ≤ p.1 := by decide
  have hnone : CharTable.titleExpansions.lookup c.toNat = none :=
    List.lookup_eq_none_iff.2 fun p hp => bne_iff_ne.2 fun heq => by
      have := htable p hp
      omega
  rw [titleFull, hnone, titleChar, if_pos h]

/-- Of ASCII letters and digits, the digits have no case. -/
theorem isCased_of_isAlphanum (h : c.isAlphanum = true) : isCased c = c.isAlpha := by
  rw [isCased, if_pos (isAscii_of_isAlphanum h)]

theorem toLower_of_isAlpha_eq_false (h : c.isAlpha = false) : c.toLower = c :=
  Char.toLower_eq_of_not_isUpper fun hupper => by
    rw [Char.isAlpha, hupper, Bool.true_or] at h
    cases h

private theorem isWordMiddle_of_isAlphanum (h : c.isAlphanum = true) : isWordMiddle c = false := by
  rw [isWordMiddle, if_pos (isAscii_of_isAlphanum h)]
  have hne : ∀ d : Char, d.isAlphanum = false → c ≠ d := fun d => ne_of_class h
  simp [hne '\'' rfl, hne '.' rfl, hne ':' rfl]

private theorem endsWord_of_isAlphanum (h : c.isAlphanum = true) : endsWord c = false := by
  rw [endsWord, if_pos (isAscii_of_isAlphanum h), h]
  rfl

/-- Lower case of ASCII letters and digits. -/
private theorem lowerFrom_of_isAlphanum {cs : List Char} (h : ∀ c ∈ cs, c.isAlphanum = true)
    (inside : Bool) :
    lowerFrom inside cs = cs.map Char.toLower := by
  induction cs generalizing inside with
  | nil => cases inside <;> rfl
  | cons c cs ih =>
    obtain ⟨hc, hcs⟩ := List.forall_mem_cons.1 h
    have hascii := isAscii_of_isAlphanum hc
    rw [List.map_cons]
    cases inside with
    | false =>
      rw [lowerFrom, isCased_of_isAlphanum hc, lowerFull_of_isAscii hascii, ih hcs, ih hcs]
      split
      · rfl
      · rw [toLower_of_isAlpha_eq_false (eq_false_of_ne_true ‹_›)]
    | true =>
      rw [lowerFrom, lowerInside_of_isAscii hascii, ih hcs, ih hcs]
      split
      · rfl
      · rename_i hcase
        simp only [Bool.or_eq_true, not_or, Bool.not_eq_true, isCased_of_isAlphanum hc] at hcase
        rw [toLower_of_isAlpha_eq_false hcase.1]

/-- Inside a word, title case of ASCII letters and digits is their lower case. -/
private theorem titleFrom_of_isAlphanum {cs : List Char} (h : ∀ c ∈ cs, c.isAlphanum = true) :
    titleFrom true false cs = cs.map Char.toLower := by
  induction cs with
  | nil => rfl
  | cons c cs ih =>
    obtain ⟨hc, hcs⟩ := List.forall_mem_cons.1 h
    simp only [titleFrom, isCased_of_isAlphanum hc,
      lowerInside_of_isAscii (isAscii_of_isAlphanum hc),
      isWordMiddle_of_isAlphanum hc, endsWord_of_isAlphanum hc, ih hcs]
    split
    · rfl
    · rw [List.map_cons, toLower_of_isAlpha_eq_false (eq_false_of_ne_true ‹_›), ← ih hcs]
      rfl

/-- Title case of a letter and the ASCII letters and digits behind it. -/
private theorem titleFrom_cons_of_isAlpha {cs : List Char} (hc : c.isAlpha = true)
    (h : ∀ c ∈ cs, c.isAlphanum = true) :
    titleFrom false false (c :: cs) = c.toUpper :: cs.map Char.toLower := by
  have halnum : c.isAlphanum = true := by rw [Char.isAlphanum, hc, Bool.true_or]
  simp [titleFrom, isCased_of_isAlphanum halnum, hc,
    titleFull_of_isAscii (isAscii_of_isAlphanum halnum),
    isWordMiddle_of_isAlphanum halnum, titleFrom_of_isAlphanum h]

end ViewCompiler.Text.Casing

namespace ViewCompiler.Text.Caser

/-- On ASCII letters and digits there is nothing to lower and title case but the case of each
character: lower case has only small letters, title case of a letter and what follows it a capital
and small letters. -/
structure ActsOnAscii (caser : Caser) : Prop where
  lower_eq {w : List Char} (h : ∀ c ∈ w, c.isAlphanum = true) :
    caser.lower (String.ofList w) = String.ofList (w.map Char.toLower)
  title_eq {c : Char} {cs : List Char} (hc : c.isAlpha = true)
    (h : ∀ d ∈ cs, d.isAlphanum = true) :
    caser.title (String.ofList (c :: cs)) = String.ofList (c.toUpper :: cs.map Char.toLower)

theorem unicode_actsOnAscii : unicode.ActsOnAscii where
  lower_eq h := by
    change Casing.lower _ = _
    rw [Casing.lower, String.toList_ofList, Casing.lowerFrom_of_isAlphanum h]
  title_eq hc h := by
    change Casing.title _ = _
    rw [Casing.title, String.toList_ofList, Casing.titleFrom_cons_of_isAlpha hc h]

end ViewCompiler.Text.Caser
