import Mathlib
import ViewCompiler.Proofs.Text.Casing
import ViewCompiler.Proofs.Text.Pieces
import ViewCompiler.Registry.Tag

/-!
# Tags of PascalCase names

A PascalCase name is a row of words, each a capital with small letters or digits behind it
(`IsPascalCase`). Its tag holds these words in lower case, with a `w` in front of a single one
(`exists_words_ofNameBy`). The words are found again in the tag, which is therefore its own tag, and
the name is found again from them (`toNameBy_ofNameBy`).

All that is used of lower and title case is what they do to ASCII letters and digits
(`Caser.ActsOnAscii`), so this holds of every notion of them that does the same, and in particular
of the one that tags are made with (`toName_ofName`).

Words are found by going through a text with the character before the current one and the word so
far. A capital behind another character ends the word, and so does a hyphen. In a row of words, each
capital stands behind the last character of the word before it, which is a small letter or a digit,
as a word has at least two characters. In a tag there are no capitals, and words end at hyphens
only. So in both cases a word is taken up whole and the next one starts where it should.

That words have two characters is also what tells the `w` in front of a single word from a word: the
name is made from a tag by dropping it, and no word of a name becomes `w` in lower case. Without
that, the tags of two names could be the same.
-/

namespace ViewCompiler.Tag

open ViewCompiler.Text

/-! ### Words -/

/-- Whether a character goes on with a word: a small ASCII letter or a digit. -/
def continuesWord (c : Char) : Bool := c.isLower || c.isDigit

/-- Whether a text is a word of a PascalCase name: a capital with at least one character behind it,
all of which go on with the word. -/
def IsWord : List Char → Prop
  | [] => False
  | c :: cs => c.isUpper = true ∧ cs ≠ [] ∧ ∀ d ∈ cs, continuesWord d = true

/-- Whether a name is a row of at least one word. -/
def IsPascalCase (name : String) : Prop :=
  ∃ ws ≠ [], (∀ w ∈ ws, IsWord w) ∧ name.toList = ws.flatten

/-- Whether a text is a word of a tag. -/
def IsTagWord (w : List Char) : Prop := w ≠ [] ∧ ∀ c ∈ w, continuesWord c = true

section

variable {c : Char} (h : continuesWord c = true)
include h

private theorem not_isUpper_of_continuesWord : c.isUpper = false := by
  rcases Bool.or_eq_true_iff.1 h with h | h
  · exact eq_false_of_ne_true (Char.not_isUpper_of_isLower h)
  · simp only [Char.isDigit, Char.isUpper, Bool.and_eq_true, decide_eq_true_eq,
      decide_eq_false_iff_not,
      UInt32.le_iff_toNat_le, ge_iff_le] at h ⊢
    have hbounds : 'A'.val.toNat = 65 ∧ '9'.val.toNat = 57 := ⟨rfl, rfl⟩
    omega

private theorem isAlphanum_of_continuesWord : c.isAlphanum = true := by
  rcases Bool.or_eq_true_iff.1 h with h | h <;> simp [Char.isAlphanum, Char.isAlpha, h]

private theorem toLower_of_continuesWord : c.toLower = c :=
  Char.toLower_eq_of_not_isUpper (ne_true_of_eq_false (not_isUpper_of_continuesWord h))

end

/-- In lower case, every letter and digit goes on with a word. -/
theorem continuesWord_toLower {c : Char} (h : c.isAlphanum = true) :
    continuesWord c.toLower = true := by
  rw [continuesWord, Char.isLower_toLower_eq_isAlpha]
  cases halpha : c.isAlpha with
  | true => rfl
  | false =>
    rw [Casing.toLower_of_isAlpha_eq_false halpha, Bool.false_or]
    rwa [Char.isAlphanum, halpha, Bool.false_or] at h

/-- Among letters and digits of ASCII, capitals are those of ASCII. -/
theorem isUpper_eq_of_isAlphanum {c : Char} (h : c.isAlphanum = true) : isUpper c = c.isUpper := by
  rw [isUpper, if_pos (Casing.isAscii_of_isAlphanum h)]

theorem IsWord.ne_nil {w : List Char} (h : IsWord w) : w ≠ [] := by
  rintro rfl
  exact h

/-- Words have letters and digits only. -/
theorem IsWord.isAlphanum {w : List Char} (h : IsWord w) {c : Char} (hc : c ∈ w) :
    c.isAlphanum = true := by
  cases w with
  | nil => cases h
  | cons capital cs =>
    obtain ⟨hcapital, -, hcs⟩ := h
    rcases List.mem_cons.1 hc with rfl | hc
    · simp [Char.isAlphanum, Char.isAlpha, hcapital]
    · exact isAlphanum_of_continuesWord (hcs c hc)

/-! ### Cutting names and tags -/

/-- The words with hyphens between them. -/
def hyphenated (ws : List (List Char)) : String := join "-" (ws.map String.ofList)

private theorem toList_hyphenated_singleton (w : List Char) : (hyphenated [w]).toList = w :=
  String.toList_ofList

/-- The first word stands in front of a hyphen and the other words. -/
theorem toList_hyphenated_cons_cons (w w' : List Char) (ws : List (List Char)) :
    (hyphenated (w :: w' :: ws)).toList = w ++ '-' :: (hyphenated (w' :: ws)).toList := by
  simp [hyphenated, join]

variable {previous : Char} {word : List Char}

private theorem wordsFrom_nil (hword : word ≠ []) :
    wordsFrom previous word [] = [word.reverse] := by
  obtain ⟨d, word, rfl⟩ := List.exists_cons_of_ne_nil hword
  rfl

/-- A hyphen ends a word. -/
private theorem wordsFrom_hyphen (hword : word ≠ []) (cs : List Char) :
    wordsFrom previous word ('-' :: cs) = word.reverse :: wordsFrom '-' [] cs := by
  obtain ⟨d, word, rfl⟩ := List.exists_cons_of_ne_nil hword
  rfl

/-- A capital behind another character ends a word and begins another one. -/
private theorem wordsFrom_capital (hword : word ≠ []) {c : Char} (hc : c.isUpper = true)
    (hprevious : isUpper previous = false) (cs : List Char) :
    wordsFrom previous word (c :: cs) = word.reverse :: wordsFrom c [c] cs := by
  obtain ⟨d, word, rfl⟩ := List.exists_cons_of_ne_nil hword
  have halnum : c.isAlphanum = true := by simp [Char.isAlphanum, Char.isAlpha, hc]
  have hne : ∀ d : Char, d.isUpper = false → c ≠ d := fun d => ne_of_class hc
  rw [wordsFrom, if_neg, if_pos]
  · rfl
  · simp [isUpper_eq_of_isAlphanum halnum, hc, hprevious]
  · simp [hne '-' rfl, hne '_' rfl]

private theorem isUpper_eq_false {c : Char} (hc : continuesWord c = true) : isUpper c = false := by
  rw [isUpper_eq_of_isAlphanum (isAlphanum_of_continuesWord hc), not_isUpper_of_continuesWord hc]

/-- A letter or digit that does not start a word goes on with it. -/
theorem wordsFrom_cons {c : Char} (hc : continuesWord c = true) (cs : List Char) :
    wordsFrom previous word (c :: cs) = wordsFrom c (c :: word) cs := by
  rw [wordsFrom, if_neg, if_neg]
  · simp [isUpper_eq_false hc]
  · simp [ne_of_class hc (d := '-') rfl, ne_of_class hc (d := '_') rfl]

/-- Characters that go on with a word are added to it. -/
theorem exists_wordsFrom_append (previous : Char) (word : List Char) {cs : List Char}
    (hne : cs ≠ [])
    (h : ∀ c ∈ cs, continuesWord c = true) (rest : List Char) : ∃ last, isUpper last = false ∧
      wordsFrom previous word (cs ++ rest) = wordsFrom last (cs.reverse ++ word) rest := by
  induction cs generalizing previous word with
  | nil => exact absurd rfl hne
  | cons c cs ih =>
    obtain ⟨hc, hcs⟩ := List.forall_mem_cons.1 h
    rw [List.cons_append, wordsFrom_cons hc, List.reverse_cons, List.append_assoc]
    by_cases hnil : cs = []
    · subst hnil
      exact ⟨c, isUpper_eq_false hc, rfl⟩
    · exact ih _ _ hnil hcs

/-- The words of a PascalCase name are found. -/
private theorem words_flatten {ws : List (List Char)} (h : ∀ w ∈ ws, IsWord w) :
    words ws.flatten = ws := by
  induction ws with
  | nil => rfl
  | cons w ws ih =>
    obtain ⟨hw, hws⟩ := List.forall_mem_cons.1 h
    obtain ⟨c, cs, rfl⟩ := List.exists_cons_of_ne_nil hw.ne_nil
    obtain ⟨-, hne, hcs⟩ := hw
    obtain ⟨last, hlast, hfirst⟩ := exists_wordsFrom_append c [c] hne hcs ws.flatten
    have hword : cs.reverse ++ [c] ≠ [] := by simp
    rw [List.flatten_cons, List.cons_append, words, hfirst]
    cases ws with
    | nil =>
      rw [List.flatten_nil, wordsFrom_nil hword]
      simp
    | cons w' ws =>
      obtain ⟨hw', -⟩ := List.forall_mem_cons.1 hws
      obtain ⟨c', cs', rfl⟩ := List.exists_cons_of_ne_nil hw'.ne_nil
      have ih := ih hws
      rw [List.flatten_cons, List.cons_append, words] at ih
      rw [List.flatten_cons, List.cons_append, wordsFrom_capital hword hw'.1 hlast, ih]
      simp

/-- The words of a tag are found behind a hyphen. -/
private theorem wordsFrom_hyphenated {ws : List (List Char)} (hne : ws ≠ [])
    (h : ∀ w ∈ ws, IsTagWord w) :
    wordsFrom '-' [] (hyphenated ws).toList = ws := by
  induction ws with
  | nil => exact absurd rfl hne
  | cons w ws ih =>
    obtain ⟨⟨hnil, hw⟩, hws⟩ := List.forall_mem_cons.1 h
    have hword : w.reverse ++ [] ≠ [] := by simpa using hnil
    cases ws with
    | nil =>
      obtain ⟨last, -, hlast⟩ := exists_wordsFrom_append '-' [] hnil hw []
      rw [List.append_nil, wordsFrom_nil hword] at hlast
      rw [toList_hyphenated_singleton, hlast]
      simp
    | cons w' ws =>
      obtain ⟨last, -, hlast⟩ := exists_wordsFrom_append '-' [] hnil hw
        ('-' :: (hyphenated (w' :: ws)).toList)
      rw [toList_hyphenated_cons_cons, hlast, wordsFrom_hyphen hword, ih (List.cons_ne_nil _ _) hws]
      simp

/-- The words of a tag are found. -/
private theorem words_hyphenated {ws : List (List Char)} (hne : ws ≠ [])
    (h : ∀ w ∈ ws, IsTagWord w) :
    words (hyphenated ws).toList = ws := by
  obtain ⟨w, ws, rfl⟩ := List.exists_cons_of_ne_nil hne
  obtain ⟨⟨hnil, hw⟩, -⟩ := List.forall_mem_cons.1 h
  obtain ⟨c, cs, rfl⟩ := List.exists_cons_of_ne_nil hnil
  obtain ⟨text, htext⟩ : ∃ text, (hyphenated ((c :: cs) :: ws)).toList = c :: text := by
    cases ws with
    | nil => exact ⟨cs, toList_hyphenated_singleton _⟩
    | cons w' ws => exact ⟨_, toList_hyphenated_cons_cons _ _ _⟩
  -- the first character begins a word, as the one behind a hyphen does
  have hfound := wordsFrom_hyphenated hne h
  rw [htext, wordsFrom_cons (hw c List.mem_cons_self)] at hfound
  rw [htext, words, hfound]

/-! ### From names to tags -/

variable {caser : Caser}

/-- The words of the tag for a name with the given words: in lower case, behind a `w` if there is
only one. -/
def tagWords (ws : List (List Char)) : List (List Char) :=
  if ws.length = 1 then ['w'] :: ws.map (·.map Char.toLower) else ws.map (·.map Char.toLower)

/-- A tag has at least two words. -/
private theorem two_le_length_tagWords {ws : List (List Char)} (hne : ws ≠ []) :
    2 ≤ (tagWords ws).length := by
  have := List.length_pos_iff.2 hne
  unfold tagWords
  split
  · simp_all
  · rw [List.length_map]
    omega

/-- Every word of a tag is one that tags can have. -/
private theorem isTagWord_of_mem_tagWords {ws : List (List Char)} (hne : ∀ w ∈ ws, w ≠ [])
    (h : ∀ w ∈ ws, ∀ c ∈ w, c.isAlphanum = true) : ∀ w ∈ tagWords ws, IsTagWord w := by
  have hlower : ∀ w ∈ ws.map (·.map Char.toLower), IsTagWord w := by
    intro w hw
    obtain ⟨w, hmem, rfl⟩ := List.mem_map.1 hw
    refine ⟨by simpa using hne w hmem, fun c hc => ?_⟩
    obtain ⟨c, hcmem, rfl⟩ := List.mem_map.1 hc
    exact continuesWord_toLower (h w hmem c hcmem)
  unfold tagWords
  split
  · exact List.forall_mem_cons.2 ⟨⟨List.cons_ne_nil _ _, List.forall_mem_singleton.2 rfl⟩, hlower⟩
  · exact hlower

/-- The words of a tag are those of the tag for it. -/
private theorem tagWords_of_isTagWord {ws : List (List Char)} (hlength : 2 ≤ ws.length)
    (h : ∀ w ∈ ws, IsTagWord w) :
    tagWords ws = ws := by
  rw [tagWords, if_neg (by omega)]
  refine (List.map_congr_left fun w hw => ?_).trans (List.map_id _)
  exact (List.map_congr_left fun c hc => toLower_of_continuesWord ((h w hw).2 c hc)).trans
    (List.map_id _)

/-- The tag of a name with words of ASCII letters and digits. -/
theorem ofNameBy_of_words (hcaser : caser.ActsOnAscii) {name : String} {ws : List (List Char)}
    (hwords : words name.toList = ws) (hne : ws ≠ [])
    (h : ∀ w ∈ ws, ∀ c ∈ w, c.isAlphanum = true) :
    ofNameBy caser name = hyphenated (tagWords ws) := by
  have hlower : ws.map (fun w => caser.lower (String.ofList w)) =
      (ws.map (·.map Char.toLower)).map String.ofList := by
    rw [List.map_map]
    exact List.map_congr_left fun w hw => hcaser.lower_eq (h w hw)
  rw [ofNameBy, hwords, hlower]
  change (if (hyphenated (ws.map (·.map Char.toLower))).toList.contains '-' = true then _ else _) =
    _
  cases ws with
  | nil => exact absurd rfl hne
  | cons w ws =>
    cases ws with
    -- One word has no hyphen, so that a prefix with one is put in front.
    | nil =>
      have hhyphen : '-' ∉ w.map Char.toLower := by
        intro hmem
        obtain ⟨c, hc, heq⟩ := List.mem_map.1 hmem
        exact ne_of_class (continuesWord_toLower (h w List.mem_cons_self c hc)) rfl heq
      rw [if_neg]
      · simp [hyphenated, tagWords, join]
      · simpa [toList_hyphenated_singleton] using hhyphen
    | cons w' ws =>
      rw [if_pos]
      · rfl
      · rw [List.map_cons, List.map_cons, toList_hyphenated_cons_cons]
        simp

/-- The tag of a PascalCase name has at least two words, each of them in lower case. -/
theorem exists_words_ofNameBy (hcaser : caser.ActsOnAscii) {name : String}
    (h : IsPascalCase name) :
    ∃ ws, name.toList = ws.flatten ∧ ws ≠ [] ∧ (∀ w ∈ ws, IsWord w) ∧
      ofNameBy caser name = hyphenated (tagWords ws) ∧ ∀ w ∈ tagWords ws, IsTagWord w := by
  obtain ⟨ws, hne, hws, hname⟩ := h
  have halnum : ∀ w ∈ ws, ∀ c ∈ w, c.isAlphanum = true := fun w hw c hc => (hws w hw).isAlphanum hc
  have hnil : ∀ w ∈ ws, w ≠ [] := fun w hw => (hws w hw).ne_nil
  refine ⟨ws, hname, hne, hws, ofNameBy_of_words hcaser ?_ hne halnum,
    isTagWord_of_mem_tagWords hnil halnum⟩
  rw [hname, words_flatten hws]

/-! ### From tags to names -/

/-- A word is its lower case form in title case. -/
theorem IsWord.title (hcaser : caser.ActsOnAscii) {w : List Char} (h : IsWord w) :
    (caser.title (String.ofList (w.map Char.toLower))).toList = w := by
  cases w with
  | nil => cases h
  | cons c cs =>
    obtain ⟨hc, -, hcs⟩ := h
    have hsmall : cs.map Char.toLower = cs :=
      (List.map_congr_left fun d hd => toLower_of_continuesWord (hcs d hd)).trans (List.map_id _)
    have halpha : c.toLower.isAlpha = true := by
      rw [Char.isAlpha_toLower_eq_isAlpha, Char.isAlpha, hc, Bool.true_or]
    rw [List.map_cons, hsmall,
      hcaser.title_eq halpha fun d hd => isAlphanum_of_continuesWord (hcs d hd), hsmall,
      String.toList_ofList, Char.toUpper_toLower_eq_toUpper,
      Char.toUpper_eq_of_not_isLower (Char.not_isLower_of_isUpper hc)]

/-- The `w` in front of a single word is taken away, and nothing else: words of a name have two
characters. -/
private theorem dropPrefix?_hyphenated {ws : List (List Char)} (hne : ws ≠ [])
    (h : ∀ w ∈ ws, IsWord w) :
    (dropPrefix? "w-".toList (hyphenated (tagWords ws)).toList).getD
      (hyphenated (tagWords ws)).toList =
      (hyphenated (ws.map (·.map Char.toLower))).toList := by
  obtain ⟨w, ws, rfl⟩ := List.exists_cons_of_ne_nil hne
  cases ws with
  | nil => simp [tagWords, toList_hyphenated_cons_cons, toList_hyphenated_singleton, dropPrefix?]
  | cons w' ws =>
    obtain ⟨hw, -⟩ := List.forall_mem_cons.1 h
    obtain ⟨c, cs, rfl⟩ := List.exists_cons_of_ne_nil hw.ne_nil
    obtain ⟨-, hcs, hsmall⟩ := hw
    obtain ⟨d, cs, rfl⟩ := List.exists_cons_of_ne_nil hcs
    have hd : '-' ≠ d.toLower := by
      rw [toLower_of_continuesWord (hsmall d List.mem_cons_self)]
      exact (ne_of_class (hsmall d List.mem_cons_self) rfl).symm
    simp [tagWords, toList_hyphenated_cons_cons, dropPrefix?, hd]

/-- The name of a tag puts its words together again. -/
private theorem toNameBy_hyphenated (hcaser : caser.ActsOnAscii) {ws : List (List Char)}
    (hne : ws ≠ []) (h : ∀ w ∈ ws, IsWord w) :
    (toNameBy caser (hyphenated (tagWords ws))).toList = ws.flatten := by
  have hhyphen : ∀ s ∈ (ws.map (·.map Char.toLower)).map String.ofList, '-' ∉ s.toList := by
    intro s hs hmem
    rw [List.map_map] at hs
    obtain ⟨w, hw, rfl⟩ := List.mem_map.1 hs
    rw [Function.comp_apply, String.toList_ofList] at hmem
    obtain ⟨c, hc, heq⟩ := List.mem_map.1 hmem
    exact ne_of_class (continuesWord_toLower ((h w hw).isAlphanum hc)) rfl heq
  have hsplit : splitOn '-' (hyphenated (ws.map (·.map Char.toLower))).toList =
      ((ws.map (·.map Char.toLower)).map String.ofList).map String.toList :=
    splitOn_join (by simpa using hne) hhyphen
  rw [toNameBy, dropPrefix?_hyphenated hne h, hsplit, String.toList_join, List.flatMap_map,
    List.flatMap_map,
    List.flatMap_map, List.flatMap_map, List.flatten_eq_flatMap]
  refine List.flatMap_congr fun w hw => ?_
  rw [String.toList_ofList]
  exact (h w hw).title hcaser

/-- Whatever lower and title case do to other characters, the tag of a PascalCase name stands for
that name and for no other, and is its own tag. -/
theorem toNameBy_ofNameBy (hcaser : caser.ActsOnAscii) {name : String} (h : IsPascalCase name) :
    toNameBy caser (ofNameBy caser name) = name ∧
      ofNameBy caser (ofNameBy caser name) = ofNameBy caser name ∧
      ∀ other, IsPascalCase other → ofNameBy caser other = ofNameBy caser name → other = name := by
  have hname : ∀ {name}, IsPascalCase name → toNameBy caser (ofNameBy caser name) = name := by
    intro name h
    obtain ⟨ws, hname, hne, hws, htag, -⟩ := exists_words_ofNameBy hcaser h
    rw [htag]
    exact String.toList_inj.1 ((toNameBy_hyphenated hcaser hne hws).trans hname.symm)
  refine ⟨hname h, ?_, fun other hother heq => ?_⟩
  · obtain ⟨ws, -, hne, hws, htag, htagWords⟩ := exists_words_ofNameBy hcaser h
    have hlength := two_le_length_tagWords hne
    have hne' : tagWords ws ≠ [] := List.ne_nil_of_length_pos (by omega)
    rw [htag, ofNameBy_of_words hcaser (words_hyphenated hne' htagWords) hne' fun w hw c hc =>
        isAlphanum_of_continuesWord ((htagWords w hw).2 c hc),
      tagWords_of_isTagWord hlength htagWords]
  · rw [← hname hother, heq, hname h]

/-- The tag of a PascalCase name stands for that name and for no other, and is its own tag. -/
theorem toName_ofName {name : String} (h : IsPascalCase name) :
    toName (ofName name) = name ∧ ofName (ofName name) = ofName name ∧
      ∀ other, IsPascalCase other → ofName other = ofName name → other = name :=
  toNameBy_ofNameBy Caser.unicode_actsOnAscii h

/-- Two words, and a single one with a `w` in front of it. -/
theorem toName_ofName_cards :
    (ofName "CardList2" = "card-list2" ∧ toName "card-list2" = "CardList2" ∧
      ofName "card-list2" = "card-list2") ∧
    (ofName "Card" = "w-card" ∧ toName "w-card" = "Card" ∧ ofName "w-card" = "w-card" ∧
      ∀ other, IsPascalCase other → ofName other = "w-card" → other = "Card") := by
  have hcard : IsWord "Card".toList := ⟨rfl, by decide, List.all_eq_true.1 rfl⟩
  have hlist : IsWord "List2".toList := ⟨rfl, by decide, List.all_eq_true.1 rfl⟩
  have htwo : IsPascalCase "CardList2" :=
    ⟨["Card".toList, "List2".toList], by decide,
      List.forall_mem_cons.2 ⟨hcard, List.forall_mem_singleton.2 hlist⟩, rfl⟩
  have hone : IsPascalCase "Card" :=
    ⟨["Card".toList], by decide, List.forall_mem_singleton.2 hcard, rfl⟩
  have htwoTag : ofName "CardList2" = "card-list2" := by decide +kernel
  have honeTag : ofName "Card" = "w-card" := by decide +kernel
  obtain ⟨hname, hagain, -⟩ := toName_ofName htwo
  obtain ⟨hname', hagain', hother⟩ := toName_ofName hone
  rw [htwoTag] at hname hagain
  rw [honeTag] at hname' hagain' hother
  exact ⟨⟨htwoTag, hname, hagain⟩, honeTag, hname', hagain', hother⟩

end ViewCompiler.Tag
