import ViewCompiler.Text.Basic

/-!
# Text put together and taken apart again

The readers trim, cut and split. Each of these undoes what writing does: blanks around a text that
neither starts nor ends with one are trimmed away, a cut finds the first delimiter after a piece
that has none, and pieces joined by a separator that none of them contains are split again.

They go by classes of characters. A decimal digit of any script is a number, and white space of any
script is neither a letter nor a number.
-/

namespace ViewCompiler.Text

/-! ### Classes of characters -/

/-- A character of a class is none that is not in it. -/
theorem ne_of_class {p : Char → Bool} {c d : Char} (hc : p c = true) (hd : p d = false) :
    c ≠ d := by
  rintro rfl
  rw [hc] at hd
  cases hd

/-- The code points of a run lie among those of another one, which leaves none out. -/
def CharRun.liesIn (r s : CharRun) : Bool := s.first.ble r.first && r.last.ble s.last && s.step == 1

/-- One of two runs ends before the other one starts. -/
def CharRun.isApart (r s : CharRun) : Bool := r.last.blt s.first || s.last.blt r.first

/-- A table whose runs lie inside runs of another one describes a smaller class. -/
private theorem CharRun.anyContains_of_liesIn {inner outer : List CharRun}
    (h : (inner.all fun r => outer.any r.liesIn) = true) {c : Char}
    (hc : CharRun.anyContains inner c = true) : CharRun.anyContains outer c = true := by
  obtain ⟨r, hr, hcontains⟩ := List.any_eq_true.1 hc
  obtain ⟨s, hs, hlies⟩ := List.any_eq_true.1 (List.all_eq_true.1 h r hr)
  simp only [CharRun.liesIn, Bool.and_eq_true, Nat.ble_eq, beq_iff_eq] at hlies
  obtain ⟨⟨hfirst, hlast⟩, hstep⟩ := hlies
  obtain ⟨hge, hle, -⟩ := CharRun.contains_iff.1 hcontains
  refine List.any_eq_true.2 ⟨s, hs, CharRun.contains_iff.2 ⟨by omega, by omega, ?_⟩⟩
  rw [hstep, Nat.mod_one]

/-- Two tables whose runs are apart describe classes without a common character. -/
theorem CharRun.anyContains_eq_false_of_isApart {one other : List CharRun}
    (h : (one.all fun r => other.all r.isApart) = true) {c : Char}
    (hc : CharRun.anyContains one c = true) : CharRun.anyContains other c = false := by
  obtain ⟨r, hr, hcontains⟩ := List.any_eq_true.1 hc
  obtain ⟨hge, hle, -⟩ := CharRun.contains_iff.1 hcontains
  refine List.any_eq_false.2 fun s hs hother => ?_
  obtain ⟨hge', hle', -⟩ := CharRun.contains_iff.1 hother
  have hapart := List.all_eq_true.1 (List.all_eq_true.1 h r hr) s hs
  simp only [CharRun.isApart, Bool.or_eq_true, Nat.blt_eq] at hapart
  omega

/-- Decimal digits are numbers. -/
theorem isNumber_of_isDecimalDigit {c : Char} (h : isDecimalDigit c = true) :
    isNumber c = true := by
  unfold isDecimalDigit at h
  unfold isNumber
  split at h
  · rw [if_pos ‹_›]
    exact h
  · rw [if_neg ‹_›]
    exact CharRun.anyContains_of_liesIn (by decide) h

/-- White space as a table of runs. -/
def blanks : List CharRun :=
  [⟨0x09, 0x0d, 1⟩, ⟨0x20, 0x20, 1⟩, ⟨0x85, 0x85, 1⟩, ⟨0xa0, 0xa0, 1⟩, ⟨0x1680, 0x1680, 1⟩,
   ⟨0x2000, 0x200a, 1⟩, ⟨0x2028, 0x2029, 1⟩, ⟨0x202f, 0x202f, 1⟩, ⟨0x205f, 0x205f, 1⟩,
   ⟨0x3000, 0x3000, 1⟩]

private theorem anyContains_blanks {c : Char} (h : isBlank c = true) :
    CharRun.anyContains blanks c = true := by
  simp only [isBlank, Bool.or_eq_true, Bool.and_eq_true, beq_iff_eq, decide_eq_true_eq] at h
  simp only [CharRun.anyContains, blanks, List.any_cons, List.any_nil, Bool.or_eq_true,
    CharRun.contains_iff, Nat.mod_one, and_true, Bool.false_eq_true, or_false]
  omega

/-- ASCII white space lies before the ASCII digits and letters. -/
theorem isAlphanum_eq_false_of_isBlank {c : Char} (h : isBlank c = true)
    (hascii : isAscii c = true) :
    c.isAlphanum = false := by
  have hranges : c.isAlphanum = (decide (c.val ≥ 'A'.val ∧ c.val ≤ 'Z'.val) ||
      (c.val ≥ 'a'.val && c.val ≤ 'z'.val) || (c.val ≥ '0'.val && c.val ≤ '9'.val)) := rfl
  have hbounds : '0'.val.toNat = 48 ∧ 'A'.val.toNat = 65 ∧ 'a'.val.toNat = 97 := ⟨rfl, rfl, rfl⟩
  rw [hranges, Bool.eq_false_iff]
  intro hc
  simp only [Bool.or_eq_true, Bool.and_eq_true, decide_eq_true_eq, UInt32.le_iff_toNat_le,
    ge_iff_le]
    at hc
  simp only [isAscii, isBlank, Bool.or_eq_true, Bool.and_eq_true, beq_iff_eq, decide_eq_true_eq,
    Char.toNat] at h hascii
  omega

theorem isLetter_eq_false_of_isBlank {c : Char} (h : isBlank c = true) : isLetter c = false := by
  unfold isLetter
  split
  · exact (Bool.or_eq_false_iff.1 (isAlphanum_eq_false_of_isBlank h ‹_›)).1
  · exact CharRun.anyContains_eq_false_of_isApart (by decide +kernel) (anyContains_blanks h)

theorem isNumber_eq_false_of_isBlank {c : Char} (h : isBlank c = true) : isNumber c = false := by
  unfold isNumber
  split
  · exact (Bool.or_eq_false_iff.1 (isAlphanum_eq_false_of_isBlank h ‹_›)).2
  · exact CharRun.anyContains_eq_false_of_isApart (by decide) (anyContains_blanks h)

/-! ### Runs of a class of characters -/

/-- Nothing is dropped where the first character is to be kept. -/
theorem dropWhile_eq_self_of_head? {p : Char → Bool} {cs : List Char}
    (h : ∀ c ∈ cs.head?, p c = false) : cs.dropWhile p = cs := by
  cases cs with
  | nil => rfl
  | cons c cs => rw [List.dropWhile_cons_of_neg (by simp [h c rfl])]

/-- A run of a class of characters ends where the next character is none of them. -/
theorem takeWhile_append {p : Char → Bool} {taken rest : List Char}
    (htaken : ∀ c ∈ taken, p c = true)
    (hrest : ∀ c ∈ rest.head?, p c = false) : (taken ++ rest).takeWhile p = taken := by
  rw [List.takeWhile_append_of_pos htaken]
  cases rest with
  | nil => rw [List.takeWhile_nil, List.append_nil]
  | cons c rest => rw [List.takeWhile_cons_of_neg (by simp [hrest c rfl]), List.append_nil]

/-- Characters are dropped up to the first that is to be kept. -/
theorem dropWhile_append {p : Char → Bool} {taken rest : List Char}
    (htaken : ∀ c ∈ taken, p c = true)
    (hrest : ∀ c ∈ rest.head?, p c = false) : (taken ++ rest).dropWhile p = rest := by
  rw [List.dropWhile_append_of_pos htaken, dropWhile_eq_self_of_head? hrest]

/-! ### Trimming -/

/-- Text without blanks at its ends loses nothing to trimming. -/
theorem trimBlank_eq_self {cs : List Char} (hfirst : ∀ c ∈ cs.head?, isBlank c = false)
    (hlast : ∀ c ∈ cs.getLast?, isBlank c = false) : trimBlank cs = cs := by
  rw [trimBlank, dropTrailing, dropWhile_eq_self_of_head? hfirst,
    dropWhile_eq_self_of_head? (by rwa [List.head?_reverse]), List.reverse_reverse]

theorem trimBlank_eq_self_of_forall {cs : List Char} (h : ∀ c ∈ cs, isBlank c = false) :
    trimBlank cs = cs :=
  trimBlank_eq_self (fun c hc => h c (List.mem_of_head? hc))
    fun c hc => h c (List.mem_of_getLast? hc)

/-- A text is what is left of it without trailing characters of a class, and those characters. -/
theorem exists_append_dropTrailing (p : Char → Bool) (cs : List Char) :
    ∃ trailing, cs = dropTrailing p cs ++ trailing ∧ ∀ c ∈ trailing, p c = true := by
  refine ⟨(cs.reverse.takeWhile p).reverse, ?_, fun c hc => ?_⟩
  · rw [dropTrailing, ← List.reverse_append, List.takeWhile_append_dropWhile, List.reverse_reverse]
  · exact List.all_eq_true.1 List.all_takeWhile c (List.mem_reverse.1 hc)

/-- Trimmed text does not start with a blank. -/
theorem not_isBlank_of_head?_trimBlank {cs : List Char} :
    ∀ c ∈ (trimBlank cs).head?, isBlank c = false := by
  intro c hc
  obtain ⟨trailing, heq, -⟩ := exists_append_dropTrailing isBlank (cs.dropWhile isBlank)
  have hhead : (cs.dropWhile isBlank).head? = some c := by
    rw [heq, List.head?_append]
    exact Option.or_eq_some_iff.2 (.inl hc)
  have := List.head?_dropWhile_not isBlank cs
  rw [hhead] at this
  simpa using this

/-- Trimmed text does not end with a blank. -/
theorem not_isBlank_of_getLast?_trimBlank {cs : List Char} :
    ∀ c ∈ (trimBlank cs).getLast?, isBlank c = false := by
  intro c hc
  rw [trimBlank, dropTrailing, List.getLast?_reverse] at hc
  have := List.head?_dropWhile_not isBlank (cs.dropWhile isBlank).reverse
  rw [Option.mem_def.1 hc] at this
  simpa using this

@[simp]
theorem trimBlank_trimBlank (cs : List Char) : trimBlank (trimBlank cs) = trimBlank cs :=
  trimBlank_eq_self not_isBlank_of_head?_trimBlank not_isBlank_of_getLast?_trimBlank

/-- A blank in front is trimmed. -/
theorem trimBlank_cons_of_isBlank {c : Char} (h : isBlank c = true) (cs : List Char) :
    trimBlank (c :: cs) = trimBlank cs := by
  rw [trimBlank, List.dropWhile_cons_of_pos h, trimBlank]

/-- A blank at the end is trimmed. -/
theorem trimBlank_concat_of_isBlank {c : Char} (h : isBlank c = true) (cs : List Char) :
    trimBlank (cs ++ [c]) = trimBlank cs := by
  rw [trimBlank, trimBlank, List.dropWhile_append]
  split
  · rename_i hempty
    rw [List.isEmpty_iff.1 hempty, List.dropWhile_cons_of_pos h]
    rfl
  · rw [dropTrailing, List.reverse_append, List.reverse_singleton, List.singleton_append,
      List.dropWhile_cons_of_pos h, dropTrailing]

/-- What is left after trimming stood in the text between blanks. -/
theorem exists_append_trimBlank (cs : List Char) :
    ∃ leading trailing, cs = leading ++ trimBlank cs ++ trailing ∧
      (∀ c ∈ leading, isBlank c = true) ∧ ∀ c ∈ trailing, isBlank c = true := by
  obtain ⟨trailing, heq, htrailing⟩ := exists_append_dropTrailing isBlank (cs.dropWhile isBlank)
  refine ⟨cs.takeWhile isBlank, trailing, ?_, fun c hc => ?_, htrailing⟩
  · rw [trimBlank, List.append_assoc, ← heq, List.takeWhile_append_dropWhile]
  · exact List.all_eq_true.1 List.all_takeWhile c hc

/-- Trimmed text stands in the text that was trimmed. -/
theorem infix_trimBlank (cs : List Char) : trimBlank cs <:+: cs := by
  obtain ⟨leading, trailing, heq, -, -⟩ := exists_append_trimBlank cs
  exact ⟨leading, trailing, heq.symm⟩

/-- Trimming loses nothing but blanks. -/
theorem mem_trimBlank {cs : List Char} {c : Char} (h : c ∈ cs) (hc : isBlank c = false) :
    c ∈ trimBlank cs := by
  have hdrop : ∀ {ds : List Char}, c ∈ ds → c ∈ ds.dropWhile isBlank := by
    intro ds hds
    rw [← List.takeWhile_append_dropWhile (p := isBlank) (l := ds), List.mem_append] at hds
    refine hds.resolve_left fun htake => ?_
    rw [List.all_eq_true.1 List.all_takeWhile c htake] at hc
    cases hc
  rw [trimBlank, dropTrailing, List.mem_reverse]
  exact hdrop (List.mem_reverse.2 (hdrop h))

/-! ### Cutting -/

/-- A cut at a character finds its first occurrence. -/
theorem cut?_append {c : Char} {before : List Char} (h : c ∉ before) (after : List Char) :
    cut? [c] (before ++ c :: after) = some (before, after) := by
  induction before with
  | nil => simp [cut?, dropPrefix?]
  | cons b before ih =>
    obtain ⟨hb, hbefore⟩ := List.ne_and_not_mem_of_not_mem_cons h
    simp [cut?, dropPrefix?, hb, ih hbefore]

/-- A text cannot be cut at a character exactly if the character is not in it. -/
theorem cut?_eq_none_iff {c : Char} {cs : List Char} : cut? [c] cs = none ↔ c ∉ cs := by
  induction cs with
  | nil => simp [cut?]
  | cons d cs ih =>
    by_cases hd : c = d
    · simp [cut?, dropPrefix?, hd]
    · simp [cut?, dropPrefix?, hd, ih]

/-- A cut behind the first character cuts the others. -/
theorem exists_of_cut?_cons {c d : Char} (hne : c ≠ d) {cs before after : List Char}
    (h : cut? [c] (d :: cs) = some (before, after)) :
    ∃ more, before = d :: more ∧ cut? [c] cs = some (more, after) := by
  rw [cut?] at h
  split at h
  · rename_i hdrop
    simp [dropPrefix?, hne] at hdrop
  · obtain ⟨⟨b, a⟩, hcut, heq⟩ := Option.map_eq_some_iff.1 h
    obtain ⟨rfl, rfl⟩ := Prod.mk.inj heq
    exact ⟨b, rfl, hcut⟩

/-- A text is cut at the first place of a character. -/
theorem notMem_of_cut? {c : Char} {cs before after : List Char}
    (h : cut? [c] cs = some (before, after)) : c ∉ before := by
  induction cs generalizing before with
  | nil => cases h
  | cons d cs ih =>
    by_cases hd : c = d
    · have hcut : cut? [c] (d :: cs) = some ([], cs) := hd ▸ cut?_append List.not_mem_nil cs
      obtain ⟨rfl, -⟩ := Prod.mk.inj (Option.some.inj (hcut.symm.trans h))
      exact List.not_mem_nil
    · obtain ⟨more, rfl, hcut⟩ := exists_of_cut?_cons hd h
      exact List.not_mem_cons_of_ne_of_not_mem hd (ih hcut)

theorem exists_of_startsWith {pre cs : List Char} (h : startsWith pre cs = true) :
    ∃ rest, cs = pre ++ rest := by
  obtain ⟨rest, hrest⟩ := Option.isSome_iff_exists.1 h
  exact ⟨rest, dropPrefix?_eq_some_iff.1 hrest⟩

/-- A text is cut at once where it starts with what is sought. -/
theorem cut?_append_self (needle after : List Char) :
    cut? needle (needle ++ after) = some ([], after) := by
  have hdrop : dropPrefix? needle (needle ++ after) = some after := dropPrefix?_eq_some_iff.2 rfl
  cases hcs : needle ++ after with
  | nil =>
    obtain ⟨rfl, rfl⟩ := List.append_eq_nil_iff.1 hcs
    rfl
  | cons c cs =>
    rw [hcs] at hdrop
    rw [cut?, hdrop]

/-- A needle that starts with the only occurrence of a character in it is found behind a text that
it does not occur in. -/
theorem cut?_append_of_not_infix {c : Char} {needle before : List Char} (hc : c ∉ needle)
    (h : ¬c :: needle <:+: before) (after : List Char) :
    cut? (c :: needle) (before ++ c :: needle ++ after) = some (before, after) := by
  induction before with
  | nil => exact cut?_append_self (c :: needle) after
  | cons b before ih =>
    have hnone : dropPrefix? (c :: needle) (b :: (before ++ c :: needle ++ after)) = none := by
      refine Option.eq_none_iff_forall_ne_some.2 fun rest hrest => ?_
      have hprefix : c :: needle <+: (b :: before) ++ c :: (needle ++ after) := by
        rw [dropPrefix?_eq_some_iff] at hrest
        exact ⟨rest, by simpa using hrest.symm⟩
      rcases Nat.lt_or_ge before.length needle.length with hlt | hle
      · -- It would reach over the character that the needle behind the text starts with.
        have hinside : (b :: before) ++ [c] <+: c :: needle := by
          refine List.prefix_of_prefix_length_le ⟨needle ++ after, by simp⟩ hprefix ?_
          simpa using Nat.succ_le_of_lt hlt
        exact hc (((List.cons_prefix_cons.1 hinside).2).subset (by simp))
      · have hwithin : c :: needle <+: b :: before :=
          List.prefix_of_prefix_length_le hprefix (List.prefix_append _ _) (by simpa using hle)
        exact h hwithin.isInfix
    have hbefore : ¬c :: needle <:+: before := fun hinfix => h (List.infix_cons hinfix)
    rw [List.cons_append, List.cons_append, cut?, hnone]
    simp only [ih hbefore, Option.map_some]

/-- So is a needle that ends with the only occurrence of a character in it. -/
theorem cut?_append_of_not_infix_concat {needle before : List Char} {c : Char} (hc : c ∉ needle)
    (h : ¬needle ++ [c] <:+: before) (after : List Char) :
    cut? (needle ++ [c]) (before ++ (needle ++ [c]) ++ after) = some (before, after) := by
  induction before with
  | nil => exact cut?_append_self (needle ++ [c]) after
  | cons b before ih =>
    have hnone :
        dropPrefix? (needle ++ [c]) (b :: (before ++ (needle ++ [c]) ++ after)) = none := by
      refine Option.eq_none_iff_forall_ne_some.2 fun rest hrest => ?_
      have hprefix : needle ++ [c] <+: (b :: before) ++ (needle ++ ([c] ++ after)) := by
        rw [dropPrefix?_eq_some_iff] at hrest
        exact ⟨rest, by simpa using hrest.symm⟩
      rcases Nat.lt_or_ge needle.length (b :: before).length with hlt | hle
      · have hwithin : needle ++ [c] <+: b :: before :=
          List.prefix_of_prefix_length_le hprefix (List.prefix_append _ _)
            (by simpa using Nat.le_of_lt_succ hlt)
        exact h hwithin.isInfix
      · -- It would end before the needle behind the text does, so with another character.
        have hlast : ((b :: before) ++ (needle ++ ([c] ++ after)))[needle.length]? = some c := by
          rw [List.prefix_iff_getElem?.1 hprefix needle.length (by simp),
            List.getElem_concat_length rfl]
        rw [List.getElem?_append_right hle,
          List.getElem?_append_left (by simp at hle ⊢; omega)] at hlast
        exact hc (List.mem_of_getElem? hlast)
    have hbefore : ¬needle ++ [c] <:+: before := fun hinfix => h (List.infix_cons hinfix)
    rw [List.cons_append, List.cons_append, cut?, hnone]
    simp only [ih hbefore, Option.map_some]

/-- Where a text is cut does not depend on what follows the needle. -/
theorem cut?_append_needle {needle before after : List Char}
    (h : cut? needle (before ++ needle ++ after) = some (before, after)) (after' : List Char) :
    cut? needle (before ++ needle ++ after') = some (before, after') := by
  induction before with
  | nil => exact cut?_append_self needle after'
  | cons c before ih =>
    simp only [List.cons_append] at h ⊢
    rw [cut?] at h ⊢
    split at h
    · cases h
    · rename_i hnone
      obtain ⟨⟨b, a⟩, hcut, heq⟩ := Option.map_eq_some_iff.1 h
      obtain ⟨hb, rfl⟩ := Prod.mk.inj heq
      obtain rfl := (List.cons.inj hb).2
      have hnone' : dropPrefix? needle (c :: (b ++ needle ++ after')) = none := by
        refine Option.eq_none_iff_forall_ne_some.2 fun rest hrest => ?_
        -- A needle found here would end before what follows.
        have hprefix : needle <+: (c :: (b ++ needle)) ++ after' :=
          ⟨rest, (dropPrefix?_eq_some_iff.1 hrest).symm⟩
        have hlength : needle.length ≤ (c :: (b ++ needle)).length := by
          simp only [List.length_cons, List.length_append]
          omega
        obtain ⟨more, hmore⟩ :=
          List.prefix_of_prefix_length_le hprefix (List.prefix_append _ _) hlength
        have hfound : dropPrefix? needle (c :: (b ++ needle ++ a)) = some (more ++ a) := by
          rw [dropPrefix?_eq_some_iff, ← List.append_assoc, hmore, List.cons_append]
        rw [hfound] at hnone
        cases hnone
      rw [hnone']
      simp only [ih hcut, Option.map_some]

/-- Where a text is cut does not depend on what follows. -/
theorem cut?_append_text {needle cs before after : List Char}
    (h : cut? needle cs = some (before, after))
    (more : List Char) : cut? needle (cs ++ more) = some (before, after ++ more) := by
  obtain rfl := eq_of_cut?_eq_some h
  rw [List.append_assoc _ after]
  exact cut?_append_needle h (after ++ more)

/-! ### Splitting and joining -/

private theorem splitOn_of_notMem {sep : Char} {cs : List Char} (h : sep ∉ cs) :
    splitOn sep cs = [cs] := by
  induction cs with
  | nil => rfl
  | cons c cs ih =>
    obtain ⟨hc, hcs⟩ := List.ne_and_not_mem_of_not_mem_cons h
    rw [splitOn, if_neg hc.symm, ih hcs]

/-- A piece without separators is split off in front of the first one. -/
private theorem splitOn_append {sep : Char} {piece : List Char} (h : sep ∉ piece) (cs : List Char) :
    splitOn sep (piece ++ sep :: cs) = piece :: splitOn sep cs := by
  induction piece with
  | nil => simp [splitOn]
  | cons c piece ih =>
    obtain ⟨hc, hpiece⟩ := List.ne_and_not_mem_of_not_mem_cons h
    rw [List.cons_append, splitOn, if_neg hc.symm, ih hpiece]

/-- No piece holds the character that it was cut at. -/
theorem notMem_of_mem_splitOn {sep : Char} {cs piece : List Char} (h : piece ∈ splitOn sep cs) :
    sep ∉ piece := by
  induction cs generalizing piece with
  | nil =>
    obtain rfl := List.mem_singleton.1 h
    exact List.not_mem_nil
  | cons c cs ih =>
    rw [splitOn] at h
    split at h
    · rcases List.mem_cons.1 h with rfl | h
      · exact List.not_mem_nil
      · exact ih h
    · rename_i hc
      cases hsplit : splitOn sep cs with
      | nil => exact absurd hsplit (splitOn_ne_nil sep cs)
      | cons first rest =>
        rw [hsplit] at h ih
        rcases List.mem_cons.1 h with rfl | h
        · exact List.not_mem_cons_of_ne_of_not_mem (Ne.symm hc) (ih List.mem_cons_self)
        · exact ih (List.mem_cons_of_mem _ h)

theorem join_cons (sep s : String) {ss : List String} (h : ss ≠ []) :
    join sep (s :: ss) = s ++ sep ++ join sep ss := by
  cases ss with
  | nil => exact absurd rfl h
  | cons t ss => rfl

/-- The last piece is joined behind the others. -/
theorem join_concat (sep s : String) {ss : List String} (h : ss ≠ []) :
    join sep (ss ++ [s]) = join sep ss ++ sep ++ s := by
  induction ss with
  | nil => exact absurd rfl h
  | cons t ss ih =>
    rw [List.cons_append, join_cons _ _ (by simp)]
    by_cases hnil : ss = []
    · subst hnil
      rfl
    · simp only [ih hnil, join_cons _ _ hnil, String.append_assoc]

/-- What stands behind the last piece stands behind all of them. -/
theorem join_concat_append (sep a b : String) (ss : List String) :
    join sep (ss ++ [a ++ b]) = join sep (ss ++ [a]) ++ b := by
  by_cases h : ss = []
  · subst h
    rfl
  · rw [join_concat _ _ h, join_concat _ _ h, ← String.append_assoc]

/-- A character of joined text is one of the separator or of a piece. -/
theorem mem_of_mem_join {sep : String} {ss : List String} {c : Char}
    (h : c ∈ (join sep ss).toList) : c ∈ sep.toList ∨ ∃ s ∈ ss, c ∈ s.toList := by
  induction ss with
  | nil => cases h
  | cons s ss ih =>
    by_cases hnil : ss = []
    · subst hnil
      exact .inr ⟨s, List.mem_cons_self, h⟩
    · rw [join_cons _ _ hnil] at h
      simp only [String.toList_append, List.mem_append] at h
      rcases h with (h | h) | h
      · exact .inr ⟨s, List.mem_cons_self, h⟩
      · exact .inl h
      · exact (ih h).imp_right fun ⟨t, ht, hc⟩ => ⟨t, List.mem_cons_of_mem _ ht, hc⟩

/-- The characters of the first piece are in the joined text. -/
theorem mem_join_cons {sep s : String} (ss : List String) {c : Char} (h : c ∈ s.toList) :
    c ∈ (join sep (s :: ss)).toList := by
  by_cases hnil : ss = []
  · rw [hnil]
    exact h
  · rw [join_cons _ _ hnil, String.toList_append, String.toList_append, List.append_assoc]
    exact List.mem_append_left _ h

/-- Pieces without the separator are split again where they were joined. -/
theorem splitOn_join {sep : Char} {ss : List String} (hss : ss ≠ [])
    (h : ∀ s ∈ ss, sep ∉ s.toList) :
    splitOn sep (join (String.singleton sep) ss).toList = ss.map String.toList := by
  induction ss with
  | nil => exact absurd rfl hss
  | cons s ss ih =>
    obtain ⟨hs, hrest⟩ := List.forall_mem_cons.1 h
    by_cases hnil : ss = []
    · subst hnil
      rw [join, splitOn_of_notMem hs, List.map_singleton]
    · rw [join_cons _ _ hnil, String.toList_append, String.toList_append, String.toList_singleton,
        List.append_assoc, List.singleton_append, splitOn_append hs, ih hnil hrest, List.map_cons]

/-- Joining the pieces of a text gives it back. -/
theorem toList_join_splitOn (sep : Char) (cs : List Char) :
    (join (String.singleton sep) ((splitOn sep cs).map String.ofList)).toList = cs := by
  induction cs with
  | nil => rfl
  | cons c cs ih =>
    rw [splitOn]
    split
    · rename_i hc
      rw [List.map_cons, join_cons _ _ (by simp [splitOn_ne_nil])]
      simp [ih, hc]
    · split
      · exact absurd ‹_› (splitOn_ne_nil sep cs)
      · rename_i first rest hsplit
        rw [hsplit] at ih
        cases rest with
        | nil => simpa [join] using ih
        | cons second rest =>
          rw [List.map_cons, join_cons _ _ (by simp)] at ih ⊢
          simpa using ih

end ViewCompiler.Text
