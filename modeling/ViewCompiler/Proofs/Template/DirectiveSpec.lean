import ViewCompiler.Proofs.Outcome
import ViewCompiler.Proofs.Text.Pieces
import ViewCompiler.Template.DirectiveSpec

/-!
# Specifications read back

The characters of an identifier are neither white space nor one of the delimiters around it, so a
path, a condition and a repeater that are written out from identifiers are read as what they were
(`readPath?_render`, `Directive.isReadFrom_render`). The other way round, a specification that is
read has no other characters than these and the delimiters (`Directive.IsReadFrom.isSpecChar`).

Three classes of characters are told apart. Those of identifiers may stand in names, those of
variables are the same with numbers of every script, and those of specifications are all that may
stand in a directive at all. The variables of a repeater are read by the second class, which is
wider than the first, so what can be read back is stated of a wider class of repeaters
(`Loop.Readable`) than the one whose variables are identifiers (`Loop.Valid`).

The head of a repeater is read from left to right, and each of its readers takes characters off the
front. For the first direction they are given what the writer wrote; for the other one, `TakesSpec`
says that what was taken has only characters of specifications, and is passed on from one reader to
the next.

Blanks around a specification do not matter (`Directive.IsReadFrom.trim`), which is why a tag and an
attribute can hold the same one.
-/

namespace ViewCompiler.Template

open ViewCompiler.Text

/-! ### Characters of identifiers -/

/-- What may stand in an identifier may stand in a variable of a repeater. -/
theorem isVariableRest_of_isIdentRest {c : Char} (h : isIdentRest c = true) :
    isVariableRest c = true := by
  rw [isIdentRest, Bool.or_eq_true] at h
  rw [isVariableRest, Bool.or_eq_true]
  exact h.imp_right isNumber_of_isDecimalDigit

private theorem not_isVariableRest_of_isBlank {c : Char} (h : isBlank c = true) :
    isVariableRest c = false := by
  have hunderscore : c ≠ '_' := ne_of_class h (by decide)
  have hdollar : c ≠ '$' := ne_of_class h (by decide)
  rw [isVariableRest, isIdentStart, isLetter_eq_false_of_isBlank h, isNumber_eq_false_of_isBlank h]
  simp [hunderscore, hdollar]

private theorem not_isIdentRest_of_not_isVariableRest {c : Char} (h : isVariableRest c = false) :
    isIdentRest c = false := by
  cases hrest : isIdentRest c with
  | false => rfl
  | true =>
    rw [isVariableRest_of_isIdentRest hrest] at h
    cases h

private theorem not_isIdentRest_of_isBlank {c : Char} (h : isBlank c = true) :
    isIdentRest c = false :=
  not_isIdentRest_of_not_isVariableRest (not_isVariableRest_of_isBlank h)

theorem not_isBlank_of_isIdentRest {c : Char} (h : isIdentRest c = true) : isBlank c = false := by
  cases hblank : isBlank c with
  | false => rfl
  | true =>
    rw [not_isIdentRest_of_isBlank hblank] at h
    cases h

/-- Every character of an identifier may stand in one. -/
theorem isIdentRest_of_mem {cs : List Char} (h : isIdentifier cs = true) {c : Char} (hc : c ∈ cs) :
    isIdentRest c = true := by
  cases cs with
  | nil => cases hc
  | cons d cs =>
    simp only [isIdentifier, Bool.and_eq_true, List.all_eq_true] at h
    rcases List.mem_cons.1 hc with rfl | hc
    · rw [isIdentRest, h.1, Bool.true_or]
    · exact h.2 c hc

theorem ne_nil_of_isIdentifier {cs : List Char} (h : isIdentifier cs = true) : cs ≠ [] := by
  rintro rfl
  cases h

/-- No delimiter stands in an identifier. -/
theorem notMem_of_isIdentifier {cs : List Char} (h : isIdentifier cs = true) {c : Char}
    (hc : isIdentRest c = false) : c ∉ cs := by
  intro hmem
  rw [isIdentRest_of_mem h hmem] at hc
  cases hc

/-! ### Characters of variables -/

/-- Whether the characters form a variable of a repeater. -/
def isVariable : List Char → Bool
  | [] => false
  | c :: cs => isIdentStart c && cs.all isVariableRest

/-- Every identifier can name a variable of a repeater. -/
theorem isVariable_of_isIdentifier {cs : List Char} (h : isIdentifier cs = true) :
    isVariable cs = true := by
  cases cs with
  | nil => cases h
  | cons c cs =>
    simp only [isIdentifier, isVariable, Bool.and_eq_true, List.all_eq_true] at h ⊢
    exact ⟨h.1, fun d hd => isVariableRest_of_isIdentRest (h.2 d hd)⟩

/-- Every character of a variable may stand in one. -/
theorem isVariableRest_of_mem {cs : List Char} (h : isVariable cs = true) {c : Char} (hc : c ∈ cs) :
    isVariableRest c = true := by
  cases cs with
  | nil => cases hc
  | cons d cs =>
    simp only [isVariable, Bool.and_eq_true, List.all_eq_true] at h
    rcases List.mem_cons.1 hc with rfl | hc
    · rw [isVariableRest, h.1, Bool.true_or]
    · exact h.2 c hc

theorem ne_nil_of_isVariable {cs : List Char} (h : isVariable cs = true) : cs ≠ [] := by
  rintro rfl
  cases h

/-- No delimiter stands in a variable. -/
theorem notMem_of_isVariable {cs : List Char} (h : isVariable cs = true) {c : Char}
    (hc : isVariableRest c = false) : c ∉ cs := by
  intro hmem
  rw [isVariableRest_of_mem h hmem] at hc
  cases hc

/-! ### Paths -/

/-- A path of identifiers. -/
def Path.Valid (p : Path) : Prop := ∀ s ∈ p.segments, isIdentifier s.toList = true

/-- A path is written with characters of identifiers and dots. -/
theorem isIdentRest_of_mem_render {p : Path} (h : p.Valid) {c : Char} (hc : c ∈ p.render.toList) :
    isIdentRest c = true ∨ c = '.' := by
  rcases mem_of_mem_join hc with hc | ⟨s, hs, hc⟩
  · exact .inr (by simpa using hc)
  · exact .inl (isIdentRest_of_mem (h s hs) hc)

private theorem notMem_render {p : Path} (h : p.Valid) {c : Char} (hc : isIdentRest c = false)
    (hdot : c ≠ '.') : c ∉ p.render.toList := by
  intro hmem
  rcases isIdentRest_of_mem_render h hmem with hrest | heq
  · rw [hrest] at hc
    cases hc
  · exact hdot heq

private theorem not_isBlank_of_mem_render {p : Path} (h : p.Valid) {c : Char}
    (hc : c ∈ p.render.toList) :
    isBlank c = false := by
  rcases isIdentRest_of_mem_render h hc with hc | rfl
  · exact not_isBlank_of_isIdentRest hc
  · rfl

/-- A written path has no blanks around it. -/
theorem trimBlank_render {p : Path} (h : p.Valid) : trimBlank p.render.toList = p.render.toList :=
  trimBlank_eq_self_of_forall fun _ hc => not_isBlank_of_mem_render h hc

/-- A path reads back. -/
theorem readPath?_render {p : Path} (h : p.Valid) : readPath? p.render.toList = some p := by
  have hdot : ∀ s ∈ p.segments, '.' ∉ s.toList := fun s hs => notMem_of_isIdentifier (h s hs) rfl
  have hsplit : splitOn '.' p.render.toList = p.segments.map String.toList :=
    splitOn_join (List.cons_ne_nil _ _) hdot
  obtain ⟨hroot, hrest⟩ := List.forall_mem_cons.1 h
  have hall : (p.rest.map String.toList).all isIdentifier = true := by
    simpa [List.all_map] using hrest
  rw [readPath?, hsplit, Path.segments, List.map_cons]
  simp [hroot, hall]

/-- A path that was read is written as it stood. -/
theorem render_of_readPath? {cs : List Char} {p : Path} (h : readPath? cs = some p) :
    p.render.toList = cs ∧ p.Valid := by
  unfold readPath? at h
  split at h
  · cases h
  · rename_i root rest hsplit
    split at h
    · rename_i hvalid
      obtain rfl := Option.some.inj h
      simp only [Bool.and_eq_true, List.all_eq_true] at hvalid
      refine ⟨?_, ?_⟩
      · rw [← toList_join_splitOn '.' cs, hsplit]
        rfl
      · simpa [Path.Valid, Path.segments] using hvalid
    · cases h

private theorem render_ne_nil {p : Path} (h : p.Valid) : p.render.toList ≠ [] := by
  intro hnil
  have := readPath?_render h
  rw [hnil] at this
  cases this

/-! ### Conditions -/

/-- A condition as it is written. -/
theorem toList_render_conditional (negated : Bool) (p : Path) :
    (Directive.conditional negated p).render.toList =
      (if negated then ['!'] else []) ++ p.render.toList := by
  cases negated <;> simp [Directive.render]

/-- A written condition has no blanks around it. -/
theorem trimBlank_conditional (negated : Bool) {p : Path} (h : p.Valid) :
    trimBlank ((if negated then ['!'] else []) ++ p.render.toList) =
      (if negated then ['!'] else []) ++ p.render.toList := by
  refine trimBlank_eq_self_of_forall (List.forall_mem_append.2 ⟨?_, ?_⟩)
  · cases negated with
    | true => exact List.forall_mem_singleton.2 rfl
    | false => exact nofun
  · exact fun c hc => not_isBlank_of_mem_render h hc

/-- A condition reads back. -/
private theorem readCondition_render (negated : Bool) {p : Path} (h : p.Valid) :
    readCondition (Directive.conditional negated p).render = .ok (.conditional negated p) := by
  rw [readCondition, toList_render_conditional, trimBlank_conditional negated h]
  cases negated with
  | true =>
    simp only [if_true, List.singleton_append, trimBlank_render h, readPath?_render h]
  | false =>
    -- A path does not start with the mark of a negation.
    have hmark : ∀ rest, p.render.toList ≠ '!' :: rest := by
      intro rest heq
      exact notMem_render h (c := '!') rfl (by decide) (heq ▸ List.mem_cons_self)
    simp only [Bool.false_eq_true, if_false, List.nil_append, readPath?_render h]

/-! ### Repeaters -/

/-- The variables of a repeater are different identifiers, and its paths consist of identifiers. -/
structure Loop.Valid (l : Loop) : Prop where
  item : isIdentifier l.item.toList = true
  index : l.index = "" ∨ isIdentifier l.index.toList = true ∧ l.index ≠ l.item
  source : l.source.Valid
  key : ∀ s ∈ l.key, isIdentifier s.toList = true

/-- The variables of a repeater are different, and its paths consist of identifiers. -/
structure Loop.Readable (l : Loop) : Prop where
  item : isVariable l.item.toList = true
  index : l.index = "" ∨ isVariable l.index.toList = true ∧ l.index ≠ l.item
  source : l.source.Valid
  key : ∀ s ∈ l.key, isIdentifier s.toList = true

/-- The variables of a valid repeater can be read, since they are identifiers. -/
theorem Loop.Valid.readable {l : Loop} (h : l.Valid) : l.Readable where
  item := isVariable_of_isIdentifier h.item
  index := h.index.imp_right (And.imp_left isVariable_of_isIdentifier)
  source := h.source
  key := h.key

private theorem skipSpace_eq_self {cs : List Char} (h : ∀ c ∈ cs.head?, isMarkupSpace c = false) :
    skipSpace cs = cs :=
  dropWhile_eq_self_of_head? h

private theorem not_isMarkupSpace_of_isVariableRest {c : Char} (h : isVariableRest c = true) :
    isMarkupSpace c = false := by
  cases hspace : isMarkupSpace c with
  | false => rfl
  | true =>
    rw [not_isVariableRest_of_isBlank (isBlank_of_isMarkupSpace hspace)] at h
    cases h

private theorem skipSpace_append {name : List Char} (h : isVariable name = true)
    (rest : List Char) :
    skipSpace (name ++ rest) = name ++ rest := by
  obtain ⟨c, name, rfl⟩ := List.exists_cons_of_ne_nil (ne_nil_of_isVariable h)
  refine skipSpace_eq_self fun d hd => ?_
  obtain rfl := Option.some.inj hd
  exact not_isMarkupSpace_of_isVariableRest (isVariableRest_of_mem h List.mem_cons_self)

private theorem skipSpace_render {p : Path} (h : p.Valid) :
    skipSpace p.render.toList = p.render.toList := by
  refine skipSpace_eq_self fun c hc => ?_
  rcases isIdentRest_of_mem_render h (List.mem_of_head? hc) with hc | rfl
  · exact not_isMarkupSpace_of_isVariableRest (isVariableRest_of_isIdentRest hc)
  · rfl

private theorem readLine?_render {p : Path} (h : p.Valid) :
    readLine? p.render.toList = some p.render.toList := by
  rw [readLine?, if_neg]
  simp only [Bool.or_eq_true, List.isEmpty_iff, List.contains_iff_mem, not_or]
  exact ⟨render_ne_nil h, notMem_render h (by decide) (by decide)⟩

/-- A variable ends at the first character that it cannot go on with. -/
theorem readVariable?_append {name : List Char} (h : isVariable name = true) {rest : List Char}
    (hrest : ∀ c ∈ rest.head?, isVariableRest c = false) :
    readVariable? (name ++ rest) = some (name, rest) := by
  cases name with
  | nil => cases h
  | cons c name =>
    simp only [isVariable, Bool.and_eq_true, List.all_eq_true] at h
    simp only [List.cons_append, readVariable?, h.1, if_true, takeWhile_append h.2 hrest,
      dropWhile_append h.2 hrest]

/-- The index variable as it is written after the item. -/
def Loop.indexText (l : Loop) : List Char :=
  if l.index = "" then [] else ',' :: ' ' :: l.index.toList

/-- The index is read back from its part of the head, and so is its absence. -/
private theorem readIndex_indexText {l : Loop} (h : l.Readable) (rest : List Char) :
    (readIndex (l.indexText ++ ')' :: rest)).getD ([], l.indexText ++ ')' :: rest) =
      (l.index.toList, ')' :: rest) := by
  rcases h.index with hnone | ⟨hindex, -⟩
  · rw [Loop.indexText, if_pos hnone, hnone]
    rfl
  · have hne : l.index ≠ "" := by
      intro hnil
      rw [hnil] at hindex
      cases hindex
    have hread : readVariable? (l.index.toList ++ ')' :: rest) =
        some (l.index.toList, ')' :: rest) :=
      readVariable?_append hindex (by simp; decide)
    have hspace : skipSpace (' ' :: (l.index.toList ++ ')' :: rest)) =
        l.index.toList ++ ')' :: rest :=
      skipSpace_append hindex _
    have hcomma : ∀ cs, skipSpace (',' :: cs) = ',' :: cs := fun _ => rfl
    rw [Loop.indexText, if_neg hne, List.cons_append, List.cons_append, readIndex]
    simp only [hcomma, hspace, hread, Option.getD_some]

/-- The variables between the parentheses are read back, whatever follows them. -/
private theorem readVariables?_append {l : Loop} (h : l.Readable) (rest : List Char) :
    readVariables? ('(' :: (l.item.toList ++ (l.indexText ++ ')' :: rest))) =
      some (l.item.toList, l.index.toList, rest) := by
  have hstop : ∀ c ∈ (l.indexText ++ ')' :: rest).head?, isVariableRest c = false := by
    intro c hc
    unfold Loop.indexText at hc
    split at hc
    · obtain rfl := Option.some.inj hc
      decide
    · obtain rfl := Option.some.inj hc
      decide
  rw [readVariables?, skipSpace_append h.item, readVariable?_append h.item hstop]
  simp only [Option.bind_eq_bind, Option.bind_some, readIndex_indexText h]
  rfl

/-- What stands before the semicolon of a repeater. -/
def Loop.head (l : Loop) : List Char :=
  '(' ::
    (l.item.toList ++ (l.indexText ++ ')' :: ' ' :: 'o' :: 'f' :: ' ' :: l.source.render.toList))

/-- The head of a repeater is read back: its variables and the text of its source. -/
theorem readHead?_head {l : Loop} (h : l.Readable) :
    readHead? l.head = some (l.item.toList, l.index.toList, l.source.render.toList) := by
  rw [readHead?, Loop.head, readVariables?_append h]
  have hof : ∀ cs, readSpace? (' ' :: 'o' :: cs) = some ('o' :: cs) := fun _ => rfl
  have hspace : readSpace? (' ' :: l.source.render.toList) = some l.source.render.toList :=
    congrArg some (skipSpace_render h.source)
  simp only [Option.bind_eq_bind, Option.bind_some, hof, dropPrefix?, if_true, hspace,
    readLine?_render h.source]

/-- A text that ends in a path loses nothing to trimming if it does not start with a blank. -/
theorem trimBlank_of_suffix {p : Path} (hp : p.Valid) {cs : List Char}
    (hfirst : ∀ c ∈ cs.head?, isBlank c = false) (hlast : p.render.toList <:+ cs) :
    trimBlank cs = cs := by
  refine trimBlank_eq_self hfirst fun c hc => ?_
  obtain ⟨front, rfl⟩ := hlast
  rw [List.getLast?_append, Option.mem_def, Option.or_eq_some_iff] at hc
  rcases hc with hc | ⟨hnil, -⟩
  · exact not_isBlank_of_mem_render hp (List.mem_of_getLast? hc)
  · exact absurd (List.getLast?_eq_none_iff.1 hnil) (render_ne_nil hp)

private theorem suffix_head (l : Loop) : l.source.render.toList <:+ l.head :=
  ⟨'(' :: (l.item.toList ++ (l.indexText ++ [')', ' ', 'o', 'f', ' '])), by simp [Loop.head]⟩

/-- Besides variables and the path, a head has only the characters that delimit them. -/
private theorem notMem_head {l : Loop} (h : l.Readable) {c : Char} (hc : isVariableRest c = false)
    (hdelimiter : c ∉ ['(', ')', ',', ' ', '.']) : c ∉ l.head := by
  have hindex : c ∉ l.indexText := by
    unfold Loop.indexText
    split
    · exact List.not_mem_nil
    · rcases h.index with hnone | ⟨hindex, -⟩
      · contradiction
      · simp_all [notMem_of_isVariable hindex hc]
  have hitem := notMem_of_isVariable h.item hc
  have hof : c ∉ ['o', 'f'] := notMem_of_isVariable (by decide) hc
  have hsource := notMem_render h.source (not_isIdentRest_of_not_isVariableRest hc) (by simp_all)
  simp_all [Loop.head]

/-- The key of a repeater reads back from the text after the semicolon. -/
private theorem readKeyPath_render {p : Path} (h : p.Valid) :
    readKeyPath (" key: ".toList ++ p.render.toList) = .ok p.segments := by
  have htail : trimBlank (" key: ".toList ++ p.render.toList) =
      'k' :: 'e' :: 'y' :: ':' :: ' ' :: p.render.toList := by
    refine (trimBlank_cons_of_isBlank rfl _).trans ?_
    exact trimBlank_of_suffix h (by simp; decide) ⟨['k', 'e', 'y', ':', ' '], rfl⟩
  have hkey : readKey? ('k' :: 'e' :: 'y' :: ':' :: ' ' :: p.render.toList) =
      some p.render.toList := by
    have hspace : skipSpace (' ' :: p.render.toList) = p.render.toList := skipSpace_render h
    have hcolon : skipSpace (':' :: ' ' :: p.render.toList) = ':' :: ' ' :: p.render.toList := rfl
    simp [readKey?, dropPrefix?, hcolon, hspace, readLine?_render h]
  simp only [readKeyPath, htail, hkey, trimBlank_render h, readPath?_render h]

/-- A repeater is written without a key, or with one after a semicolon. -/
theorem Loop.toList_render {l : Loop} (h : l.Readable) :
    l.key = [] ∧ l.render.toList = l.head ∨
      ∃ p : Path, p.Valid ∧ p.segments = l.key ∧
        l.render.toList = l.head ++ ';' :: (" key: ".toList ++ p.render.toList) := by
  have hrender : l.render.toList = l.head ++
      if l.key.isEmpty then [] else ';' :: (" key: ".toList ++ (join "." l.key).toList) := by
    unfold Loop.render Loop.head Loop.indexText
    by_cases hindex : l.index = "" <;> cases hkey : l.key.isEmpty <;> simp [hindex, toString]
  cases hkey : l.key with
  | nil =>
    refine .inl ⟨rfl, ?_⟩
    simp [hrender, hkey]
  | cons root rest =>
    refine .inr ⟨⟨root, rest⟩, ?_, rfl, ?_⟩
    · have := h.key
      rwa [hkey] at this
    · simp [hrender, hkey, Path.render, Path.segments]

private theorem trimBlank_head {l : Loop} (h : l.Readable) : trimBlank l.head = l.head :=
  trimBlank_of_suffix h.source (by simp [Loop.head]; decide) (suffix_head l)

private theorem trimBlank_head_append (l : Loop) {p : Path} (hp : p.Valid) :
    trimBlank (l.head ++ ';' :: (" key: ".toList ++ p.render.toList)) =
      l.head ++ ';' :: (" key: ".toList ++ p.render.toList) :=
  trimBlank_of_suffix hp (by simp [Loop.head]; decide) ⟨l.head ++ "; key: ".toList, by simp⟩

/-- A repeater reads back. -/
theorem readRepeater_render {l : Loop} (h : l.Readable) : readRepeater l.render = .ok l := by
  have hdiffer : (!l.index.toList.isEmpty && decide (l.index.toList = l.item.toList)) = false := by
    rcases h.index with hnone | ⟨-, hne⟩
    · simp [hnone]
    · simp [String.toList_inj, hne]
  -- The head has no semicolon, so the text is cut where the key begins, if there is one.
  have hsemicolon : ';' ∉ l.head := notMem_head h (by decide) (by decide)
  rcases Loop.toList_render h with ⟨hkey, htext⟩ | ⟨p, hp, hkey, htext⟩
  · simp only [readRepeater, htext, trimBlank_head h, cut?_eq_none_iff.2 hsemicolon,
      readHead?_head h, hdiffer, trimBlank_render h.source, readPath?_render h.source]
    simp [← hkey]
  · have hcut : cut? [';'] (trimBlank l.render.toList) =
        some (l.head, " key: ".toList ++ p.render.toList) := by
      rw [htext, trimBlank_head_append l hp, cut?_append hsemicolon]
    simp only [readRepeater, hcut, trimBlank_head h, readHead?_head h, hdiffer,
      trimBlank_render h.source, readPath?_render h.source, readKeyPath_render hp]
    simp [hkey]

/-! ### Directives -/

/-- A directive whose variables and paths consist of identifiers. -/
def Directive.Valid : Directive → Prop
  | conditional _ p => p.Valid
  | repeating l => l.Valid

/-- A written directive has no blanks around it. -/
private theorem trimBlank_directive {d : Directive} (h : d.Valid) :
    trimBlank d.render.toList = d.render.toList := by
  cases d with
  | conditional negated p => rw [toList_render_conditional, trimBlank_conditional negated h]
  | repeating l =>
    change trimBlank l.render.toList = l.render.toList
    have hloop : l.Readable := Loop.Valid.readable h
    rcases Loop.toList_render hloop with ⟨-, htext⟩ | ⟨p, hp, -, htext⟩
    · rw [htext, trimBlank_head hloop]
    · rw [htext, trimBlank_head_append l hp]

theorem trim_directive {d : Directive} (h : d.Valid) : trim d.render = d.render := by
  rw [trim, trimBlank_directive h, String.ofList_toList]

/-! ### Characters of specifications -/

/-- The characters that a specification may have. -/
def isSpecChar (c : Char) : Bool :=
  isBlank c || isVariableRest c || ['!', '(', ')', ',', ';', ':', '.'].contains c

private theorem isSpecChar_of_isBlank {c : Char} (h : isBlank c = true) : isSpecChar c = true := by
  rw [isSpecChar, h, Bool.true_or, Bool.true_or]

/-- What may stand in a variable may stand in a directive. -/
theorem isSpecChar_of_isVariableRest {c : Char} (h : isVariableRest c = true) :
    isSpecChar c = true := by
  rw [isSpecChar, h, Bool.or_true, Bool.true_or]

/-- Only characters of specifications stand in a text before what is left of it. -/
def TakesSpec (cs rest : List Char) : Prop :=
  ∃ taken, cs = taken ++ rest ∧ ∀ c ∈ taken, isSpecChar c = true

theorem TakesSpec.refl (cs : List Char) : TakesSpec cs cs := ⟨[], rfl, nofun⟩

theorem TakesSpec.trans {cs middle rest : List Char} (h : TakesSpec cs middle)
    (h' : TakesSpec middle rest) :
    TakesSpec cs rest := by
  obtain ⟨taken, rfl, htaken⟩ := h
  obtain ⟨taken', rfl, htaken'⟩ := h'
  exact ⟨taken ++ taken', by rw [List.append_assoc], List.forall_mem_append.2 ⟨htaken, htaken'⟩⟩

theorem TakesSpec.cons {c : Char} (hc : isSpecChar c = true) {cs rest : List Char}
    (h : TakesSpec cs rest) :
    TakesSpec (c :: cs) rest :=
  TakesSpec.trans ⟨[c], rfl, List.forall_mem_singleton.2 hc⟩ h

/-- A text that is taken up to a rest of such characters has only such characters itself. -/
theorem TakesSpec.forall_mem {cs rest : List Char} (h : TakesSpec cs rest)
    (hrest : ∀ c ∈ rest, isSpecChar c = true) : ∀ c ∈ cs, isSpecChar c = true := by
  obtain ⟨taken, rfl, htaken⟩ := h
  exact List.forall_mem_append.2 ⟨htaken, hrest⟩

private theorem takesSpec_skipSpace (cs : List Char) : TakesSpec cs (skipSpace cs) := by
  refine ⟨cs.takeWhile isMarkupSpace, List.takeWhile_append_dropWhile.symm, fun c hc => ?_⟩
  exact isSpecChar_of_isBlank
    (isBlank_of_isMarkupSpace (List.all_eq_true.1 List.all_takeWhile c hc))

/-- Reading a variable takes characters of directives only. -/
theorem takesSpec_readVariable? {cs name rest : List Char}
    (h : readVariable? cs = some (name, rest)) :
    TakesSpec cs rest := by
  refine ⟨name, eq_append_of_readVariable? h, fun c hc => isSpecChar_of_isVariableRest ?_⟩
  unfold readVariable? at h
  split at h
  · cases h
  · split at h
    · rename_i d cs hd
      obtain ⟨rfl, rfl⟩ := Prod.mk.inj (Option.some.inj h)
      rcases List.mem_cons.1 hc with rfl | hc
      · rw [isVariableRest, hd, Bool.true_or]
      · exact List.all_eq_true.1 List.all_takeWhile c hc
    · cases h

/-- Reading an index, or none, takes characters of directives only. -/
theorem takesSpec_readIndex {cs index rest : List Char}
    (h : (readIndex cs).getD ([], cs) = (index, rest)) : TakesSpec cs rest := by
  cases hindex : readIndex cs with
  | none =>
    rw [hindex] at h
    obtain ⟨-, rfl⟩ := Prod.mk.inj h
    exact .refl cs
  | some found =>
    rw [hindex] at h
    obtain rfl : found = (index, rest) := h
    unfold readIndex at hindex
    split at hindex
    · rename_i inner hcomma
      have hinner := (takesSpec_skipSpace inner).trans (takesSpec_readVariable? hindex)
      exact (hcomma ▸ takesSpec_skipSpace cs).trans (hinner.cons rfl)
    · cases hindex

/-- Reading the variables between parentheses takes characters of directives only. -/
private theorem takesSpec_readVariables? {cs item index rest : List Char}
    (h : readVariables? cs = some (item, index, rest)) : TakesSpec cs rest := by
  unfold readVariables? at h
  split at h
  · rename_i inner
    obtain ⟨⟨found, behind⟩, hitem, h⟩ := Option.bind_eq_some_iff.1 h
    obtain ⟨⟨i, after⟩, hindex⟩ : ∃ r, (readIndex behind).getD ([], behind) = r := ⟨_, rfl⟩
    simp only [hindex] at h
    split at h
    · rename_i last hclose
      obtain ⟨rfl, hrest⟩ := Prod.mk.inj (Option.some.inj h)
      obtain ⟨rfl, rfl⟩ := Prod.mk.inj hrest
      have hbehind := (takesSpec_skipSpace inner).trans (takesSpec_readVariable? hitem)
      have hafter := takesSpec_readIndex hindex
      have hlast := hclose ▸ takesSpec_skipSpace after
      exact ((hbehind.trans hafter).trans (hlast.trans ((TakesSpec.refl _).cons rfl))).cons rfl
    · cases h
  · obtain ⟨⟨found, behind⟩, hitem, h⟩ := Option.bind_eq_some_iff.1 h
    obtain ⟨⟨i, after⟩, hindex⟩ : ∃ r, (readIndex behind).getD ([], behind) = r := ⟨_, rfl⟩
    simp only [hindex] at h
    obtain ⟨rfl, hrest⟩ := Prod.mk.inj (Option.some.inj h)
    obtain ⟨rfl, rfl⟩ := Prod.mk.inj hrest
    exact (takesSpec_readVariable? hitem).trans (takesSpec_readIndex hindex)

private theorem takesSpec_readSpace? {cs rest : List Char} (h : readSpace? cs = some rest) :
    TakesSpec cs rest := by
  unfold readSpace? at h
  split at h
  · split at h
    · rename_i c cs hspace
      obtain rfl := Option.some.inj h
      exact (takesSpec_skipSpace cs).cons (isSpecChar_of_isBlank (isBlank_of_isMarkupSpace hspace))
    · cases h
  · cases h

/-- Dropping a prefix takes characters of directives only, if the prefix has no others. -/
theorem takesSpec_of_dropPrefix? {pre cs rest : List Char} (hpre : ∀ c ∈ pre, isSpecChar c = true)
    (h : dropPrefix? pre cs = some rest) : TakesSpec cs rest :=
  ⟨pre, dropPrefix?_eq_some_iff.1 h, hpre⟩

/-- A text is read as one line only if all of it is that line. -/
theorem eq_of_readLine? {cs line : List Char} (h : readLine? cs = some line) : line = cs := by
  unfold readLine? at h
  split at h
  · cases h
  · exact (Option.some.inj h).symm

/-- Reading the head of a repeater takes characters of directives only, up to the source. -/
private theorem takesSpec_readHead? {cs item index source : List Char}
    (h : readHead? cs = some (item, index, source)) : TakesSpec cs source := by
  have hof : ∀ c ∈ ['o', 'f'], isSpecChar c = true := List.all_eq_true.1 rfl
  unfold readHead? at h
  obtain ⟨⟨i, j, first⟩, hvariables, h⟩ := Option.bind_eq_some_iff.1 h
  obtain ⟨second, hspace, h⟩ := Option.bind_eq_some_iff.1 h
  obtain ⟨third, hkeyword, h⟩ := Option.bind_eq_some_iff.1 h
  obtain ⟨fourth, hspace', h⟩ := Option.bind_eq_some_iff.1 h
  obtain ⟨line, hline, h⟩ := Option.bind_eq_some_iff.1 h
  rw [eq_of_readLine? hline] at h
  obtain ⟨rfl, hsource⟩ := Prod.mk.inj (Option.some.inj h)
  obtain ⟨rfl, rfl⟩ := Prod.mk.inj hsource
  have hbefore := (takesSpec_readVariables? hvariables).trans (takesSpec_readSpace? hspace)
  exact hbefore.trans ((takesSpec_of_dropPrefix? hof hkeyword).trans (takesSpec_readSpace? hspace'))

/-- Reading the mark of a key takes characters of directives only. -/
private theorem takesSpec_readKey? {cs text : List Char} (h : readKey? cs = some text) :
    TakesSpec cs text := by
  have hkey : ∀ c ∈ ['k', 'e', 'y'], isSpecChar c = true := List.all_eq_true.1 rfl
  unfold readKey? at h
  obtain ⟨rest, hkeyword, h⟩ := Option.bind_eq_some_iff.1 h
  split at h
  · rename_i inner hcolon
    obtain rfl := eq_of_readLine? h
    have hbefore :=
      (takesSpec_of_dropPrefix? hkey hkeyword).trans (hcolon ▸ takesSpec_skipSpace rest)
    exact hbefore.trans ((takesSpec_skipSpace inner).cons rfl)
  · cases h

/-- Blanks may stand in a directive, so a text may where the trimmed text may. -/
theorem isSpecChar_of_trimBlank {cs : List Char} (h : ∀ c ∈ trimBlank cs, isSpecChar c = true) :
    ∀ c ∈ cs, isSpecChar c = true := by
  intro c hc
  cases hblank : isBlank c with
  | true => exact isSpecChar_of_isBlank hblank
  | false => exact h c (mem_trimBlank hc hblank)

/-- What is read as a path has only characters of directives. -/
theorem isSpecChar_of_readPath? {cs : List Char} {p : Path} (h : readPath? cs = some p) :
    ∀ c ∈ cs, isSpecChar c = true := by
  obtain ⟨rfl, hvalid⟩ := render_of_readPath? h
  intro c hc
  rcases isIdentRest_of_mem_render hvalid hc with hrest | rfl
  · exact isSpecChar_of_isVariableRest (isVariableRest_of_isIdentRest hrest)
  · rfl

/-- A condition that was read is a path, behind an exclamation mark if it is negated. -/
theorem cases_of_readCondition {spec : String} {d : Directive} (h : readCondition spec = .ok d) :
    ∃ path, d = .conditional false path ∧ readPath? (trimBlank spec.toList) = some path ∨
      d = .conditional true path ∧
        ∃ rest, trimBlank spec.toList = '!' :: rest ∧ readPath? (trimBlank rest) = some path := by
  unfold readCondition at h
  simp only at h
  split at h
  · rename_i path hpath
    obtain rfl := Except.ok.inj h
    split at hpath
    · rename_i rest hmark
      simp only [hmark]
      exact ⟨path, .inr ⟨rfl, rest, rfl, hpath⟩⟩
    · rename_i hmark
      exact ⟨path, .inl ⟨rfl, hpath⟩⟩
  · cases h

/-- What is read as a condition has only characters of directives. -/
private theorem isSpecChar_of_readCondition {spec : String} {d : Directive}
    (h : readCondition spec = .ok d) :
    ∀ c ∈ spec.toList, isSpecChar c = true := by
  refine isSpecChar_of_trimBlank ?_
  obtain ⟨path, ⟨-, hpath⟩ | ⟨-, rest, hmark, hpath⟩⟩ := cases_of_readCondition h
  · exact isSpecChar_of_readPath? hpath
  · rw [hmark]
    exact List.forall_mem_cons.2 ⟨rfl, isSpecChar_of_trimBlank (isSpecChar_of_readPath? hpath)⟩

/-- What is read as the key of a repeater has only characters of directives. -/
private theorem isSpecChar_of_readKeyPath {tail : List Char} {key : List String}
    (h : readKeyPath tail = .ok key) :
    ∀ c ∈ tail, isSpecChar c = true := by
  refine isSpecChar_of_trimBlank ?_
  unfold readKeyPath at h
  simp only at h
  split at h
  · cases h
  · rename_i text hkey
    split at h
    · cases h
    · rename_i path hpath
      exact (takesSpec_readKey? hkey).forall_mem
        (isSpecChar_of_trimBlank (isSpecChar_of_readPath? hpath))

/-- The check on the two variables of a repeater, as it is made on their characters. -/
theorem eq_empty_or_ne_of_differ {item index : List Char}
    (h : ¬(!index.isEmpty && decide (index = item)) = true) :
    String.ofList index = "" ∨ String.ofList index ≠ String.ofList item := by
  cases hindex : index.isEmpty with
  | true => exact .inl (by rw [List.isEmpty_iff.1 hindex, String.ofList_nil])
  | false =>
    refine .inr fun heq => h ?_
    obtain rfl := String.ofList_injective heq
    rw [hindex, decide_eq_true rfl, Bool.not_false, Bool.and_true]

/-- A repeater is read from its head and, behind a semicolon, from its key. -/
theorem exists_of_readRepeater {spec : String} {l : Loop} (h : readRepeater spec = .ok l) :
    ∃ head after source, trimBlank spec.toList = head ++ after ∧
      readHead? (trimBlank head) = some (l.item.toList, l.index.toList, source) ∧
      (l.index = "" ∨ l.index ≠ l.item) ∧ readPath? (trimBlank source) = some l.source ∧
      (after = [] ∧ l.key = [] ∨ ∃ tail, after = ';' :: tail ∧ readKeyPath tail = .ok l.key) := by
  unfold readRepeater at h
  cases hcut : cut? [';'] (trimBlank spec.toList) with
  | none =>
    simp only [hcut] at h
    split at h
    · cases h
    · rename_i item index source hhead
      split at h
      · cases h
      · rename_i hsame
        split at h
        · cases h
        · rename_i path hpath
          obtain rfl := Except.ok.inj h
          refine ⟨_, [], source, (List.append_nil _).symm, ?_,
            eq_empty_or_ne_of_differ hsame, hpath, .inl ⟨rfl, rfl⟩⟩
          simpa using hhead
  | some parts =>
    obtain ⟨head, tail⟩ := parts
    simp only [hcut] at h
    split at h
    · cases h
    · rename_i item index source hhead
      split at h
      · cases h
      · rename_i hsame
        split at h
        · cases h
        · rename_i path hpath
          split at h
          · cases h
          · rename_i key hkey
            obtain rfl := Except.ok.inj h
            have heq := eq_of_cut?_eq_some hcut
            rw [List.append_assoc] at heq
            refine ⟨head, ';' :: tail, source, heq, ?_, eq_empty_or_ne_of_differ hsame, hpath,
              .inr ⟨tail, rfl, hkey⟩⟩
            simpa using hhead

/-- What is read as a repeater has only characters of directives. -/
private theorem isSpecChar_of_readRepeater {spec : String} {l : Loop}
    (h : readRepeater spec = .ok l) :
    ∀ c ∈ spec.toList, isSpecChar c = true := by
  obtain ⟨head, after, source, heq, hhead, -, hpath, hafter⟩ := exists_of_readRepeater h
  have hsource := isSpecChar_of_trimBlank (isSpecChar_of_readPath? hpath)
  refine isSpecChar_of_trimBlank (heq ▸ List.forall_mem_append.2 ⟨?_, ?_⟩)
  · exact isSpecChar_of_trimBlank ((takesSpec_readHead? hhead).forall_mem hsource)
  · rcases hafter with ⟨rfl, -⟩ | ⟨tail, rfl, hkey⟩
    · exact nofun
    · exact List.forall_mem_cons.2 ⟨rfl, isSpecChar_of_readKeyPath hkey⟩

/-! ### Specifications that are read -/

/-- The directive is what its specification says. -/
def Directive.IsReadFrom (spec : String) (d : Directive) : Prop :=
  readCondition spec = .ok d ∨ ∃ l, readRepeater spec = .ok l ∧ d = .repeating l

/-- What the reader of repeaters makes of a text is read from it. -/
theorem Directive.isReadFrom_of_map {spec : String} {d : Directive}
    (h : (readRepeater spec).map .repeating = .ok d) : d.IsReadFrom spec := by
  obtain ⟨l, hl, rfl⟩ := map_eq_ok_iff.1 h
  exact .inr ⟨l, hl, rfl⟩

/-- A condition is read from a text by the reader of conditions. -/
theorem Directive.isReadFrom_conditional_iff {spec : String} {negated : Bool} {path : Path} :
    (conditional negated path).IsReadFrom spec ↔
      readCondition spec = .ok (conditional negated path) :=
  or_iff_left (by rintro ⟨_, -, h⟩; cases h)

/-- A repeater is read from a text by the reader of repeaters. -/
theorem Directive.isReadFrom_repeating_iff {spec : String} {l : Loop} :
    (repeating l).IsReadFrom spec ↔ readRepeater spec = .ok l := by
  have hcondition : readCondition spec ≠ .ok (repeating l) := by
    intro h
    obtain ⟨path, ⟨hcond, -⟩ | ⟨hcond, -⟩⟩ := cases_of_readCondition h <;> cases hcond
  constructor
  · rintro (h | ⟨_, h, ⟨⟩⟩)
    · exact absurd h hcondition
    · exact h
  · exact fun h => .inr ⟨l, h, rfl⟩

/-- A written directive reads back. -/
theorem Directive.isReadFrom_render {d : Directive} (h : d.Valid) : d.IsReadFrom d.render := by
  cases d with
  | conditional negated p => exact .inl (readCondition_render negated h)
  | repeating l => exact .inr ⟨l, readRepeater_render (Loop.Valid.readable h), rfl⟩

/-- What a directive is read from has only characters of directives. -/
theorem Directive.IsReadFrom.isSpecChar {spec : String} {d : Directive} (h : d.IsReadFrom spec) :
    ∀ c ∈ spec.toList, isSpecChar c = true := by
  rcases h with h | ⟨l, h, -⟩
  · exact isSpecChar_of_readCondition h
  · exact isSpecChar_of_readRepeater h

/-- What ends a tag or a value does not stand in a specification. -/
theorem Directive.IsReadFrom.notMem {spec : String} {d : Directive} (h : d.IsReadFrom spec)
    {c : Char}
    (hc : c = '>' ∨ c = '/' ∨ c = '"') : c ∉ spec.toList := by
  intro hmem
  have hspec := h.isSpecChar c hmem
  rcases hc with rfl | rfl | rfl <;> revert hspec <;> decide

/-! ### White space -/

private theorem toList_trim (spec : String) : (trim spec).toList = trimBlank spec.toList :=
  String.toList_ofList

/-- A condition is read in the same way without the blanks around it. -/
private theorem readCondition_trim {spec : String} {d : Directive}
    (h : readCondition spec = .ok d) :
    readCondition (trim spec) = .ok d := by
  unfold readCondition at h ⊢
  simp only [toList_trim, trimBlank_trimBlank] at h ⊢
  split at h
  · exact h
  · cases h

/-- A repeater is read in the same way without the blanks around it. -/
private theorem readRepeater_trim {spec : String} {l : Loop} (h : readRepeater spec = .ok l) :
    readRepeater (trim spec) = .ok l := by
  unfold readRepeater at h ⊢
  simp only [toList_trim, trimBlank_trimBlank] at h ⊢
  split at h
  · cases h
  · exact h

/-- A directive is read in the same way without the blanks around it. -/
theorem Directive.IsReadFrom.trim {spec : String} {d : Directive} (h : d.IsReadFrom spec) :
    d.IsReadFrom (Text.trim spec) := by
  rcases h with h | ⟨l, h, rfl⟩
  · exact .inl (readCondition_trim h)
  · exact .inr ⟨l, readRepeater_trim h, rfl⟩

end ViewCompiler.Template
