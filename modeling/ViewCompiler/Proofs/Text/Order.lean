import Mathlib.Data.List.Sort
import Mathlib.Data.String.Basic
import ViewCompiler.Text.Basic

/-!
# Names in order

The ways in which this library orders names. What is kept by its name is put in its place, where it
takes the place of another one with that name (`mem_placeBy`). A sorted set ascends
(`pairwise_sortedSet`), so that it is known by its members. A sorted list keeps repetitions and is a
rearrangement (`sortStrings_perm`), known by its order and its members (`sortStrings_eq_of_perm`);
what is in order already stays as it is.
-/

namespace ViewCompiler.Text

/-! ### Lists in the order of a key -/

section ByKey

variable {α : Type} {key : α → String} {a b : α} {as : List α}

/-- Puts a value in its place, or in the place of the one with its key if there is any. -/
def placeBy (key : α → String) (a : α) : List α → List α
  | [] => [a]
  | b :: bs =>
    if key a < key b then a :: b :: bs
    else if key a = key b then a :: bs
    else b :: placeBy key a bs

theorem mem_placeBy_self : a ∈ placeBy key a as := by
  induction as with
  | nil => exact List.mem_cons_self
  | cons c cs ih =>
    rw [placeBy]
    split
    · exact List.mem_cons_self
    · split
      · exact List.mem_cons_self
      · exact List.mem_cons_of_mem _ ih

/-- A value takes the place of the one with its key. -/
theorem mem_placeBy (h : as.Pairwise (key · < key ·)) :
    b ∈ placeBy key a as ↔ b = a ∨ b ∈ as ∧ key b ≠ key a := by
  induction as with
  | nil => simp [placeBy]
  | cons c cs ih =>
    obtain ⟨hc, hcs⟩ := List.pairwise_cons.1 h
    rw [placeBy]
    split
    · rename_i hlt
      -- All keys from here on are greater, so nothing has to go.
      have hne : ∀ d ∈ c :: cs, key d ≠ key a :=
        List.forall_mem_cons.2 ⟨hlt.ne', fun d hd => (hlt.trans (hc d hd)).ne'⟩
      rw [List.mem_cons]
      exact or_congr_right (and_iff_left_of_imp (hne b)).symm
    · split
      · rename_i heq
        have hne : ∀ d ∈ cs, key d ≠ key a := fun d hd => heq ▸ (hc d hd).ne'
        rw [List.mem_cons, List.mem_cons]
        refine or_congr_right ⟨fun hb => ⟨.inr hb, hne b hb⟩, ?_⟩
        rintro ⟨rfl | hb, hkey⟩
        · exact absurd heq.symm hkey
        · exact hb
      · rename_i hne
        rw [List.mem_cons, List.mem_cons, ih hcs]
        constructor
        · rintro (rfl | rfl | ⟨hb, hkey⟩)
          · exact .inr ⟨.inl rfl, Ne.symm hne⟩
          · exact .inl rfl
          · exact .inr ⟨.inr hb, hkey⟩
        · rintro (rfl | ⟨rfl | hb, hkey⟩)
          · exact .inr (.inl rfl)
          · exact .inl rfl
          · exact .inr (.inr ⟨hb, hkey⟩)

theorem pairwise_placeBy (h : as.Pairwise (key · < key ·)) :
    (placeBy key a as).Pairwise (key · < key ·) := by
  induction as with
  | nil => exact List.pairwise_singleton _ _
  | cons c cs ih =>
    obtain ⟨hc, hcs⟩ := List.pairwise_cons.1 h
    rw [placeBy]
    split
    · rename_i hlt
      exact List.pairwise_cons.2
        ⟨List.forall_mem_cons.2 ⟨hlt, fun d hd => hlt.trans (hc d hd)⟩, h⟩
    · rename_i hnlt
      split
      · rename_i heq
        exact List.pairwise_cons.2 ⟨fun d hd => heq ▸ hc d hd, hcs⟩
      · rename_i hne
        refine List.pairwise_cons.2 ⟨fun d hd => ?_, ih hcs⟩
        rcases (mem_placeBy hcs).1 hd with rfl | ⟨hd, -⟩
        · exact lt_of_le_of_ne (not_lt.1 hnlt) (Ne.symm hne)
        · exact hc d hd

end ByKey

/-! ### Sorted sets -/

private theorem insertSorted_eq_placeBy (s : String) (ss : List String) :
    insertSorted s ss = placeBy id s ss := by
  induction ss with
  | nil => rfl
  | cons t rest ih =>
    simp only [insertSorted, placeBy, id_eq, ih]
    split_ifs with hlt heq
    · rfl
    · rw [heq]
    · rfl

private theorem pairwise_insertSorted {s : String} {ss : List String} (h : ss.Pairwise (· < ·)) :
    (insertSorted s ss).Pairwise (· < ·) := by
  rw [insertSorted_eq_placeBy]
  exact pairwise_placeBy h

/-- A sorted set ascends, so that it has no repetitions. -/
theorem pairwise_sortedSet (ss : List String) : (sortedSet ss).Pairwise (· < ·) := by
  induction ss with
  | nil => exact List.Pairwise.nil
  | cons s ss ih => exact pairwise_insertSorted ih

/-! ### Sorted lists -/

theorem sortStrings_perm (ss : List String) : (sortStrings ss).Perm ss := List.mergeSort_perm _ _

theorem mem_sortStrings {s : String} {ss : List String} : s ∈ sortStrings ss ↔ s ∈ ss :=
  (sortStrings_perm ss).mem_iff

private theorem pairwise_sortStrings (ss : List String) : (sortStrings ss).Pairwise (· ≤ ·) := by
  have htrans : ∀ a b c : String, (!decide (b < a)) = true → (!decide (c < b)) = true →
      (!decide (c < a)) = true := by
    simp only [Bool.not_eq_true', decide_eq_false_iff_not, not_lt]
    exact fun a b c hab hbc => hab.trans hbc
  have htotal : ∀ a b : String, ((!decide (b < a)) || !decide (a < b)) = true := by
    simp only [Bool.or_eq_true, Bool.not_eq_true', decide_eq_false_iff_not, not_lt]
    exact fun a b => le_total a b
  refine (List.pairwise_mergeSort htrans htotal ss).imp fun {a b} h => ?_
  rwa [Bool.not_eq_true', decide_eq_false_iff_not, not_lt] at h

/-- What is in order already stays as it is. -/
theorem sortStrings_sortStrings (ss : List String) :
    sortStrings (sortStrings ss) = sortStrings ss := by
  refine List.mergeSort_of_pairwise ((pairwise_sortStrings ss).imp fun {a b} h => ?_)
  rwa [Bool.not_eq_true', decide_eq_false_iff_not, not_lt]

/-- A rearrangement in strict order is what sorting gives. -/
theorem sortStrings_eq_of_perm {ss ts : List String} (hsorted : ts.Pairwise (· < ·))
    (hperm : ts.Perm ss) : sortStrings ss = ts :=
  ((sortStrings_perm ss).trans hperm.symm).eq_of_pairwise (fun _ _ _ _ => le_antisymm)
    (pairwise_sortStrings ss) (hsorted.imp le_of_lt)

end ViewCompiler.Text
