import ViewCompiler.Proofs.Style.Declarations
import ViewCompiler.Proofs.Style.Encapsulation

/-!
# Style sheets, read and written

The rules of a style sheet are written in a form from which they are read again (`parse_sheetText`):
no text runs into the next one, and none of them makes a comment. What is read from a style sheet is
of this form (`isRead_of_parse`), except for an at-rule without a block at its very end, whose
string or bracket may be left open.

`Rule.IsRead` says what the texts of one rule have to be: a prelude is read through to its end by
the readers of `Style/Zone` and has no blanks around it, and declarations are as `AreDeclarations`
has them. `Rule.Every` carries this to the rules within a group.

For the first half, `ReadsAs text rules` says that `text` is read to `rules` wherever it stands and
whatever follows it. Rules one behind the other are read one behind the other, a group around rules
that are read is read, and so a sheet is, by induction on its rules. Comments are stripped before
anything is read, so it has to be shown as well that the written text has none (`HasNoComment`):
every text is read to its end by a reader that stops at a comment, and what follows it does not
start with a star.

For the second half the pieces that the scan finds are followed from the cursor at which they start,
in text where no comment opens. Putting pieces together to rules asks nothing of them and keeps what
is known (`every_of_assemble`).
-/

namespace ViewCompiler.Style

open ViewCompiler.Text

/-! ### Rules that are read as they are written -/

/-- Whether a text is a prelude by itself: neat, with all strings and brackets closed, and with no
braces outside strings if it is to be bare. -/
def IsPrelude (cs : List Char) (bare : Bool := false) : Prop :=
  ∃ s, (Zone.prelude true bare).read { blank := true } cs = some s ∧ s.quoting = .outside ∧
    s.depth = 0 ∧ s.blank = false

/-- Whether a text is the name of an at-rule. -/
def IsAtName (cs : List Char) : Prop :=
  ∃ bare, cs = '@' :: bare ∧ bare ≠ [] ∧ ∀ c ∈ bare, isNameChar c = true

/-- Whether a rule, apart from the rules in it, is read as it is written. -/
inductive Rule.IsRead : Rule → Prop
  | qualified {selector declarations} (hselector : IsPrelude selector.toList)
      (hat : selector.toList.head? ≠ some '@') (hdeclarations : AreDeclarations declarations) :
      IsRead (.qualified selector declarations)
  | statement {name condition} (hname : IsAtName name.toList)
      (hcondition : condition = "" ∨ IsPrelude condition.toList) :
          IsRead (.statement name condition)
  | block {name condition declarations} (hname : IsAtName name.toList)
      (hkind : groupKind? name = none)
      (hcondition : condition = "" ∨ IsPrelude condition.toList)
      (hdeclarations : AreDeclarations declarations) : IsRead (.block name condition declarations)
  | group {name condition keyframes rules} (hname : IsAtName name.toList)
      (hkind : groupKind? name = some keyframes)
      (hcondition : condition = "" ∨ IsPrelude condition.toList) :
      IsRead (.group name condition keyframes rules)

/-- Whether a rule and all rules in it, at any nesting, satisfy `P`. -/
inductive Rule.Every (P : Rule → Prop) : Rule → Prop
  | intro {r} (hr : P r) (hrules : ∀ r' ∈ r.rules, Every P r') : Every P r

/-- What holds throughout the rules of a sheet holds of every rule that occurs in it. -/
theorem Occurs.every {P : Rule → Prop} {rules : List Rule} (h : ∀ r ∈ rules, r.Every P)
    {confined : Bool} {r : Rule} (hr : Occurs rules confined r) : r.Every P := by
  induction hr with
  | top hr => exact h _ hr
  | inside _ hr ih =>
    obtain ⟨-, hinner⟩ := ih
    exact hinner _ hr

/-- What holds of all rules that occur in a rule holds throughout it. -/
theorem Occurs.every_of_forall {P : Rule → Prop} {rules : List Rule}
    (h : ∀ confined r, Occurs rules confined r → P r) {confined : Bool} {r : Rule}
    (hr : Occurs rules confined r) : r.Every P := by
  refine .intro (h confined r hr) fun r' hr' => ?_
  cases hrule : r with
  | group name condition keyframes inner =>
    subst hrule
    exact every_of_forall h (.inside hr hr')
  | qualified | statement | block => rw [hrule] at hr'; cases hr'
termination_by sizeOf r
decreasing_by
  subst hrule
  have := List.sizeOf_lt_of_mem hr'
  simp only [Rule.rules] at this
  simp only [Rule.group.sizeOf_spec]
  omega

/-! ### Writing and reading -/

namespace IsPrelude

section

variable {cs : List Char} {bare : Bool} (h : IsPrelude cs bare)
include h

theorem ne_nil : cs ≠ [] := by
  obtain ⟨s, hread, -, -, hblank⟩ := h
  rintro rfl
  obtain rfl := Option.some.inj hread
  cases hblank

theorem collapse : collapse cs = String.ofList cs := by
  obtain ⟨s, hread, -, -, hblank⟩ := h
  exact congrArg String.ofList ((Zone.collapseFrom_of_read rfl hread hblank).1 fun _ => rfl)

/-- A prelude starts with no blank, and with nothing that would end it. -/
theorem head?_eq : ∀ c ∈ cs.head?, isMarkupSpace c = false ∧ c ≠ '\x7b' ∧ c ≠ '\x7d' ∧ c ≠ ';' := by
  intro c hc
  cases cs with
  | nil => cases hc
  | cons d cs =>
    obtain rfl := Option.some.inj hc
    obtain ⟨s, hread, -⟩ := h
    obtain ⟨hstops, -⟩ := Zone.read_cons_eq_some_iff.1 hread
    rw [Zone.stops_of_isOutside rfl] at hstops
    have hall : (d ≠ '\x7b' ∧ d ≠ '\x7d' ∧ d ≠ ';') ∧ isMarkupSpace d = false := by
      simpa [Zone.prelude, and_assoc] using hstops
    exact ⟨hall.2, hall.1⟩

end

variable {cs : List Char} (h : IsPrelude cs)
include h

/-- A prelude goes up to the brace or semicolon behind it. -/
theorem takePrelude {stop : Char} (hstop : stop = '\x7b' ∨ stop = '\x7d' ∨ stop = ';')
    (rest : List Char) : takePrelude .outside 0 (cs ++ stop :: rest) = (cs, stop :: rest) := by
  obtain ⟨s, hread, hs, hdepth, -⟩ := h
  exact Zone.takePrelude_of_read hread hs hdepth hstop rest

/-- Behind a blank, a prelude is read through as well. -/
theorem exists_read_blank : ∃ s, (Zone.prelude true).read {} (' ' :: cs) = some s ∧
    s.quoting = .outside ∧ s.depth = 0 ∧ s.blank = false := by
  obtain ⟨s, hread, hs, hdepth, hblank⟩ := h
  exact ⟨s, hread, hs, hdepth, hblank⟩

end IsPrelude

/-- The rules that are read from a cursor on, with the groups that are open there. -/
def rulesFrom (c : Cursor) (groups : List OpenGroup) (before : List Rule) :
    Except Error (List Rule) :=
  assemble (scanFrom c).error (scanFrom c).stop (scanFrom c).pieces groups before

/-- Reading rules goes on behind a piece, with the piece put together last. -/
theorem rulesFrom_of_step {c next : Cursor} {p : Piece}
    (hhead : c.rest.head?.any isMarkupSpace = false) (hstep : step c = .ok (some p, next))
    (hshorter : next.rest.length < c.rest.length) (groups : List OpenGroup) (before : List Rule) :
    rulesFrom c groups before =
      assemble (scanFrom next).error (scanFrom next).stop (p :: (scanFrom next).pieces) groups
        before := by
  rw [rulesFrom, scanFrom_of_step hhead hstep hshorter]

/-- Whether a text is read as some rules wherever it stands. -/
def ReadsAs (text : List Char) (rules : List Rule) : Prop :=
  ∀ offset rest groups before, ∃ offset',
    rulesFrom ⟨text ++ rest, offset⟩ groups before =
      rulesFrom ⟨rest, offset'⟩ groups (rules.reverse ++ before)

private theorem readsAs_nil : ReadsAs [] [] := fun offset _ _ _ => ⟨offset, rfl⟩

/-- Texts one behind the other are read as their rules one behind the other. -/
theorem ReadsAs.append {a b : List Char} {as bs : List Rule} (ha : ReadsAs a as)
    (hb : ReadsAs b bs) :
    ReadsAs (a ++ b) (as ++ bs) := by
  intro offset rest groups before
  obtain ⟨middle, ha⟩ := ha offset (b ++ rest) groups before
  obtain ⟨offset', hb⟩ := hb middle rest groups (as.reverse ++ before)
  refine ⟨offset', ?_⟩
  rw [List.append_assoc, ha, hb, List.reverse_append, List.append_assoc]

/-- A text in which one step reads a rule. -/
theorem readsAs_of_step {text : List Char} {r : Rule} (hhead : text.head?.any isMarkupSpace = false)
    (hne : text ≠ [])
    (hstep : ∀ offset rest, ∃ offset',
      step ⟨text ++ rest, offset⟩ = .ok (some (.rule r), ⟨rest, offset'⟩)) : ReadsAs text [r] := by
  intro offset rest groups before
  obtain ⟨offset', hstep⟩ := hstep offset rest
  refine ⟨offset', ?_⟩
  obtain ⟨c, text, rfl⟩ := List.exists_cons_of_ne_nil hne
  rw [rulesFrom_of_step (c := ⟨c :: text ++ rest, offset⟩) hhead hstep
    (by simp only [List.length_append, List.length_cons]; omega)]
  rfl

/-- A written block is read back as its declarations. -/
theorem readBlock_writeDeclarations {declarations : List String} (h : AreDeclarations declarations)
    (offset : Nat) (rest : List Char) :
    ∃ offset', readBlock ⟨(join ";" declarations).toList ++ '\x7d' :: rest, offset⟩ =
      .ok (declarations, ⟨rest, offset'⟩) :=
  readDeclarations_join h offset offset offset rest

private theorem toList_writeDeclarations_append (declarations : List String) (rest : List Char) :
    (writeDeclarations declarations).toList ++ rest =
      '\x7b' :: ((join ";" declarations).toList ++ '\x7d' :: rest) := by
  rw [writeDeclarations, String.toList_append, String.toList_append, List.append_assoc,
    List.append_assoc]
  rfl

/-- A step reads a qualified rule where nothing else can start. -/
private theorem step_qualified {c : Cursor} {d : Char} {cs : List Char} (hrest : c.rest = d :: cs)
    (hclosing : d ≠ '\x7d') (hat : d ≠ '@') (hsemicolon : d ≠ ';') :
    step c = (readQualified c).map fun p => (some p.1, p.2) := by
  unfold step
  split
  · rename_i h
    exact absurd (List.cons.inj (hrest.symm.trans h)).1 hclosing
  · rename_i h
    exact absurd (List.cons.inj (hrest.symm.trans h)).1 hat
  · rename_i h
    exact absurd (List.cons.inj (hrest.symm.trans h)).1 hsemicolon
  · rfl

/-- A written qualified rule is read back. -/
private theorem readsAs_qualified {selector : String} {declarations : List String}
    (hselector : IsPrelude selector.toList) (hat : selector.toList.head? ≠ some '@')
    (hdeclarations : AreDeclarations declarations) :
    ReadsAs (Rule.qualified selector declarations).text.toList
      [.qualified selector declarations] := by
  have htext : ∀ rest, (Rule.qualified selector declarations).text.toList ++ rest =
      selector.toList ++ '\x7b' :: ((join ";" declarations).toList ++ '\x7d' :: rest) := by
    intro rest
    rw [Rule.text, String.toList_append, List.append_assoc, toList_writeDeclarations_append]
  obtain ⟨c, cs, hcs⟩ := List.exists_cons_of_ne_nil hselector.ne_nil
  have hc := hselector.head?_eq c (by rw [hcs]; rfl)
  have hne : selector ≠ "" := by
    rintro rfl
    cases hcs
  refine readsAs_of_step ?_ ?_ fun offset rest => ?_
  · rw [← List.append_nil (Rule.text _).toList, htext, hcs]
    exact hc.1
  · rw [← List.append_nil (Rule.text _).toList, htext, hcs]
    exact List.cons_ne_nil c _
  · have htake :=
      hselector.takePrelude (.inl rfl) ((join ";" declarations).toList ++ '\x7d' :: rest)
    obtain ⟨offset', hblock⟩ := readBlock_writeDeclarations hdeclarations
      (offset + byteLength (selector.toList ++ ['\x7b'])) rest
    have hread :
        readQualified ⟨(Rule.qualified selector declarations).text.toList ++ rest, offset⟩ =
        .ok (.rule (.qualified selector declarations), ⟨rest, offset'⟩) := by
      rw [readQualified, htext, htake]
      simp only [hselector.collapse, String.ofList_toList, if_neg hne, Cursor.past, hblock]
      rfl
    -- No other kind of rule starts with the first character of the selector.
    have hat' : c ≠ '@' := fun heq => hat (by rw [hcs, heq]; rfl)
    have hstep :=
      step_qualified (c := ⟨(Rule.qualified selector declarations).text.toList ++ rest, offset⟩)
      ((htext rest).trans (by rw [hcs]; rfl)) hc.2.2.1 hat' hc.2.2.2
    refine ⟨offset', ?_⟩
    rw [hstep, hread]
    rfl

/-! ### At-rules -/

/-- What stands between the name of an at-rule and what follows its condition. -/
def conditionText (condition : String) : List Char :=
  if condition = "" then [] else ' ' :: condition.toList

/-- The head of an at-rule is its name and its condition behind a blank. -/
theorem toList_writeHead (name condition : String) :
    (writeHead name condition).toList = name.toList ++ conditionText condition := by
  unfold writeHead conditionText
  split
  · rw [List.append_nil]
  · rw [String.toList_append, String.toList_append, List.append_assoc]
    rfl

section

variable {name condition : String} {stop : Char} (hname : IsAtName name.toList)
  (hcondition : condition = "" ∨ IsPrelude condition.toList)
  (hstop : stop = '\x7b' ∨ stop = '\x7d' ∨ stop = ';')

private theorem not_isNameChar_of_stop (hstop : stop = '\x7b' ∨ stop = '\x7d' ∨ stop = ';') :
    isNameChar stop = false := by
  rcases hstop with rfl | rfl | rfl <;> rfl

include hcondition hstop in
/-- The condition of an at-rule is taken up to what ends it, and trimmed to itself. -/
theorem takePrelude_conditionText (rest : List Char) :
    takePrelude .outside 0 (conditionText condition ++ stop :: rest) =
        (conditionText condition, stop :: rest) ∧
      collapse (conditionText condition) = condition := by
  unfold conditionText
  split
  · rename_i hempty
    refine ⟨?_, hempty.symm⟩
    rcases hstop with rfl | rfl | rfl <;> rfl
  · rename_i hne
    have hprelude := hcondition.resolve_left hne
    obtain ⟨s, hread, hs, hdepth, -⟩ := hprelude.exists_read_blank
    refine ⟨Zone.takePrelude_of_read hread hs hdepth hstop rest, ?_⟩
    have hcollapse := hprelude.collapse
    rw [String.ofList_toList] at hcollapse
    refine Eq.trans ?_ hcollapse
    obtain ⟨c, cs, hcs⟩ := List.exists_cons_of_ne_nil hprelude.ne_nil
    have hc := (hprelude.head?_eq c (by rw [hcs]; rfl)).1
    have hspace : (Quoting.outside.isOutside && isMarkupSpace ' ') = true := rfl
    rw [hcs, collapse, collapse, collapseFrom, if_pos hspace, collapseFrom, collapseFrom, hc]
    rfl

include hname hstop in
/-- The name of an at-rule ends before its condition. -/
theorem exists_takeWhile_isNameChar (condition : String) (rest : List Char) :
    ∃ bare, name = String.ofList ('@' :: bare) ∧ bare.isEmpty = false ∧
      name.toList ++ (conditionText condition ++ stop :: rest) =
        '@' :: (bare ++ (conditionText condition ++ stop :: rest)) ∧
      (bare ++ (conditionText condition ++ stop :: rest)).takeWhile isNameChar = bare ∧
      (bare ++ (conditionText condition ++ stop :: rest)).dropWhile isNameChar =
        conditionText condition ++ stop :: rest := by
  obtain ⟨bare, hbare, hne, hchars⟩ := hname
  have hhead : ∀ c ∈ (conditionText condition ++ stop :: rest).head?, isNameChar c = false := by
    intro c hc
    unfold conditionText at hc
    split at hc
    · exact Option.some.inj hc ▸ not_isNameChar_of_stop hstop
    · obtain rfl := Option.some.inj hc
      rfl
  refine ⟨bare, ?_, by simpa using hne, by rw [hbare]; rfl, takeWhile_append hchars hhead,
    dropWhile_append hchars hhead⟩
  rw [← hbare, String.ofList_toList]

include hname hcondition in
/-- A written statement is read back. -/
private theorem readAtRule_statement (offset : Nat) (rest : List Char) :
    ∃ offset', readAtRule ⟨name.toList ++ (conditionText condition ++ ';' :: rest), offset⟩ =
      .ok (.rule (.statement name condition), ⟨rest, offset'⟩) := by
  obtain ⟨bare, hbare, hne, htext, htake, hdrop⟩ :=
    exists_takeWhile_isNameChar hname (.inr (.inr rfl)) condition rest
  obtain ⟨hprelude, hcollapse⟩ := takePrelude_conditionText hcondition (.inr (.inr rfl)) rest
  rw [readAtRule, htext]
  simp only [List.drop_succ_cons, List.drop_zero, htake, hdrop, hne, ← hbare, Cursor.past, hprelude,
    hcollapse]
  exact ⟨_, rfl⟩

include hname hcondition in
/-- The head of a written group is read back. -/
private theorem readAtRule_group {keyframes : Bool} (hkind : groupKind? name = some keyframes)
    (offset : Nat)
    (rest : List Char) :
    ∃ offset', readAtRule ⟨name.toList ++ (conditionText condition ++ '\x7b' :: rest), offset⟩ =
      .ok (.opening name condition keyframes, ⟨rest, offset'⟩) := by
  obtain ⟨bare, hbare, hne, htext, htake, hdrop⟩ :=
    exists_takeWhile_isNameChar hname (.inl rfl) condition rest
  obtain ⟨hprelude, hcollapse⟩ := takePrelude_conditionText hcondition (.inl rfl) rest
  rw [readAtRule, htext]
  simp only [List.drop_succ_cons, List.drop_zero, htake, hdrop, hne, ← hbare, Cursor.past, hprelude,
    hcollapse]
  unfold groupKind? at hkind
  split at hkind
  · rename_i hsuffix
    obtain rfl := Option.some.inj hkind
    exact ⟨_, by rw [if_neg Bool.false_ne_true, if_pos hsuffix]⟩
  · rename_i hsuffix
    split at hkind
    · rename_i hgroup
      obtain rfl := Option.some.inj hkind
      exact ⟨_, by rw [if_neg Bool.false_ne_true, if_neg hsuffix, if_pos hgroup]⟩
    · cases hkind

include hname hcondition in
/-- A written at-rule with declarations is read back. -/
private theorem readAtRule_block {declarations : List String} (hkind : groupKind? name = none)
    (hdeclarations : AreDeclarations declarations) (offset : Nat) (rest : List Char) :
    ∃ offset', readAtRule ⟨name.toList ++ (conditionText condition ++
        '\x7b' :: ((join ";" declarations).toList ++ '\x7d' :: rest)), offset⟩ =
      .ok (.rule (.block name condition declarations), ⟨rest, offset'⟩) := by
  obtain ⟨bare, hbare, hne, htext, htake, hdrop⟩ := exists_takeWhile_isNameChar hname (.inl rfl)
    condition ((join ";" declarations).toList ++ '\x7d' :: rest)
  obtain ⟨hprelude, hcollapse⟩ := takePrelude_conditionText hcondition (.inl rfl)
    ((join ";" declarations).toList ++ '\x7d' :: rest)
  rw [readAtRule, htext]
  simp only [List.drop_succ_cons, List.drop_zero, htake, hdrop, hne, ← hbare, Cursor.past, hprelude,
    hcollapse]
  unfold groupKind? at hkind
  split at hkind
  · cases hkind
  · rename_i hsuffix
    split at hkind
    · cases hkind
    · rename_i hgroup
      obtain ⟨offset', hblock⟩ := readBlock_writeDeclarations hdeclarations
        (offset + byteLength ('@' :: bare) + byteLength (conditionText condition) +
          byteLength ['\x7b']) rest
      refine ⟨offset', ?_⟩
      rw [if_neg Bool.false_ne_true, if_neg hsuffix, if_neg hgroup, hblock]
      rfl

end

/-- The head of an at-rule reads like its condition. -/
theorem isPrelude_writeHead {name condition : String} (hname : IsAtName name.toList)
    (hcondition : condition = "" ∨ IsPrelude condition.toList) :
    IsPrelude (writeHead name condition).toList := by
  obtain ⟨bare, hbare, hne, hchars⟩ := hname
  have hread : (Zone.prelude true).read { blank := true } name.toList = some {} := by
    rw [hbare]
    exact Zone.read_cons_eq_some_iff.2 ⟨rfl, Zone.read_of_isNameChar hchars hne rfl⟩
  rw [toList_writeHead]
  unfold conditionText
  split
  · rw [List.append_nil]
    exact ⟨_, hread, rfl, rfl, rfl⟩
  · rename_i hcond
    obtain ⟨s, hcondition, hs⟩ := (hcondition.resolve_left hcond).exists_read_blank
    exact ⟨s, Zone.read_append_eq_some_iff.2 ⟨_, hread, hcondition⟩, hs⟩

/-! ### Rules -/

/-- A step reads an at-rule where its name starts. -/
theorem step_of_isAtName {name : String} (hname : IsAtName name.toList) (offset : Nat)
    (text : List Char) :
    step ⟨name.toList ++ text, offset⟩ =
      (readAtRule ⟨name.toList ++ text, offset⟩).map fun (p, c) => (some p, c) := by
  obtain ⟨bare, hbare, -⟩ := hname
  rw [hbare]
  rfl

/-- An at-rule that is read in one step. -/
theorem readsAs_atRule {name : String} (hname : IsAtName name.toList) {tail : List Char} {r : Rule}
    (hread : ∀ offset rest, ∃ offset', readAtRule ⟨name.toList ++ (tail ++ rest), offset⟩ =
      .ok (.rule r, ⟨rest, offset'⟩)) : ReadsAs (name.toList ++ tail) [r] := by
  refine readsAs_of_step ?_ ?_ fun offset rest => ?_
  · obtain ⟨bare, hbare, -⟩ := hname
    rw [hbare]
    rfl
  · obtain ⟨bare, hbare, -⟩ := hname
    rw [hbare]
    exact List.cons_ne_nil _ _
  · obtain ⟨offset', hread⟩ := hread offset rest
    refine ⟨offset', ?_⟩
    rw [List.append_assoc, step_of_isAtName hname, hread]
    rfl

/-- A written sheet is read back if each of its rules is. -/
theorem readsAs_sheetText {rules : List Rule} (h : ∀ r ∈ rules, ReadsAs r.text.toList [r]) :
    ReadsAs (Rule.sheetText rules).toList rules := by
  induction rules with
  | nil => exact readsAs_nil
  | cons r rules ih =>
    obtain ⟨hr, hrules⟩ := List.forall_mem_cons.1 h
    rw [Rule.sheetText, String.toList_append]
    exact hr.append (ih hrules)

/-- The rules of a group are read between its braces. -/
private theorem readsAs_group {name condition : String} {keyframes : Bool} {rules : List Rule}
    (hname : IsAtName name.toList) (hkind : groupKind? name = some keyframes)
    (hcondition : condition = "" ∨ IsPrelude condition.toList)
    (hrules : ReadsAs (Rule.sheetText rules).toList rules) :
    ReadsAs (Rule.group name condition keyframes rules).text.toList
      [.group name condition keyframes rules] := by
  intro offset rest groups before
  have htext : (Rule.group name condition keyframes rules).text.toList ++ rest =
      name.toList ++ (conditionText condition ++
        '\x7b' :: ((Rule.sheetText rules).toList ++ '\x7d' :: rest)) := by
    simp only [Rule.text, String.toList_append, toList_writeHead, List.append_assoc]
    rfl
  obtain ⟨inside, hread⟩ := readAtRule_group hname hcondition hkind offset
    ((Rule.sheetText rules).toList ++ '\x7d' :: rest)
  obtain ⟨closing, hinner⟩ :=
    hrules inside ('\x7d' :: rest) (⟨name, condition, keyframes, before⟩ :: groups) []
  have hopening : step ⟨(Rule.group name condition keyframes rules).text.toList ++ rest, offset⟩ =
      .ok (some (.opening name condition keyframes),
        ⟨(Rule.sheetText rules).toList ++ '\x7d' :: rest, inside⟩) := by
    rw [htext, step_of_isAtName hname, hread]
    rfl
  have hclosing : step ⟨'\x7d' :: rest, closing⟩ =
      .ok (some (.closing closing), ⟨rest, closing + 1⟩) := rfl
  refine ⟨closing + 1, ?_⟩
  rw [rulesFrom_of_step ?_ hopening ?_]
  · change rulesFrom ⟨(Rule.sheetText rules).toList ++ '\x7d' :: rest, inside⟩
      (⟨name, condition, keyframes, before⟩ :: groups) [] = _
    rw [hinner, rulesFrom_of_step rfl hclosing (Nat.lt_succ_self _), List.append_nil]
    change assemble _ _ _ groups (.group name condition keyframes rules.reverse.reverse :: before) =
      _
    rw [List.reverse_reverse]
    rfl
  · rw [htext]
    obtain ⟨bare, hbare, -⟩ := hname
    rw [hbare]
    rfl
  · rw [htext]
    simp only [List.length_append, List.length_cons]
    omega

/-- A rule that is read as it is written, if those in it are. -/
private theorem Rule.Every.readsAs {r : Rule} (h : r.Every Rule.IsRead) :
    ReadsAs r.text.toList [r] := by
  induction h with
  | @intro r hr _ ih =>
    cases hr with
    | qualified hselector hat hdeclarations => exact readsAs_qualified hselector hat hdeclarations
    | @statement name condition hname hcondition =>
      rw [Rule.text, String.toList_append, toList_writeHead, List.append_assoc]
      refine readsAs_atRule hname fun offset rest => ?_
      rw [List.append_assoc]
      exact readAtRule_statement hname hcondition offset rest
    | @block name condition declarations hname hkind hcondition hdeclarations =>
      rw [Rule.text, String.toList_append, toList_writeHead, List.append_assoc]
      refine readsAs_atRule hname fun offset rest => ?_
      rw [List.append_assoc, toList_writeDeclarations_append]
      exact readAtRule_block hname hcondition hkind hdeclarations offset rest
    | @group name condition keyframes rules hname hkind hcondition =>
      exact readsAs_group hname hkind hcondition (readsAs_sheetText ih)

/-- Rules that are read as they are written are those of the text that they make. -/
private theorem parseRules_sheetText {rules : List Rule} (h : ∀ r ∈ rules, r.Every Rule.IsRead) :
    parseRules (Rule.sheetText rules).toList = .ok rules := by
  obtain ⟨offset, hread⟩ := readsAs_sheetText (fun r hr => (h r hr).readsAs) 0 [] [] []
  have hend : scanFrom ⟨[], offset⟩ = ⟨[], none, offset⟩ := by
    rw [scanFrom]
    rfl
  rw [List.append_nil, List.append_nil] at hread
  refine hread.trans ?_
  rw [rulesFrom, hend]
  exact congrArg Except.ok (List.reverse_reverse rules)

/-! ### Comments -/

/-- Whether no comment begins in a text, nor with its end. -/
def HasNoComment (text : List Char) : Prop :=
  ∀ rest, opensComment .outside (text ++ rest) = opensComment .outside rest

/-- No comment opens in two texts one behind the other if none opens in either, whatever follows. -/
theorem HasNoComment.append {a b : List Char} (ha : HasNoComment a) (hb : HasNoComment b) :
    HasNoComment (a ++ b) := fun rest => by rw [List.append_assoc, ha, hb]

/-- No comment opens in a text that is read to its end outside of quotes. -/
theorem hasNoComment_of_read {z : Zone} {s t : Spot} {text : List Char} (h : z.read s text = some t)
    (hs : s.quoting = .outside) (ht : t.quoting = .outside) {stop : Char}
    (hstop : stop = '\x7b' ∨ stop = '\x7d' ∨ stop = ';') : HasNoComment (text ++ [stop]) := by
  intro rest
  have hstar : (stop :: rest).head? ≠ some '*' := by
    rcases hstop with rfl | rfl | rfl <;> exact fun h => absurd (Option.some.inj h) (by decide)
  have hread := Zone.opensComment_append_of_read h hstar
  rw [hs, ht] at hread
  rw [List.append_assoc, List.singleton_append, hread]
  rcases hstop with rfl | rfl | rfl <;> rfl

/-- No comment opens in a prelude. -/
theorem IsPrelude.hasNoComment {text : List Char} (h : IsPrelude text) {stop : Char}
    (hstop : stop = '\x7b' ∨ stop = '\x7d' ∨ stop = ';') : HasNoComment (text ++ [stop]) := by
  obtain ⟨s, hread, hs, -, -⟩ := h
  exact hasNoComment_of_read hread rfl hs hstop

/-- No comment opens in written declarations. -/
theorem hasNoComment_join {declarations : List String} (h : AreDeclarations declarations) :
    HasNoComment ((join ";" declarations).toList ++ ['\x7d']) := by
  induction h with
  | nil => exact fun rest => rfl
  | @cons d ds s hread hquoting hdepth _ _ ih =>
    by_cases hnil : ds = []
    · subst hnil
      exact hasNoComment_of_read hread rfl hquoting (.inr (.inl rfl))
    · have hfirst := hasNoComment_of_read hread rfl hquoting (.inr (.inr rfl))
      rw [join_cons _ _ hnil, String.toList_append, String.toList_append, List.append_assoc]
      exact hfirst.append ih

private theorem hasNoComment_sheetText {rules : List Rule}
    (h : ∀ r ∈ rules, HasNoComment r.text.toList) :
    HasNoComment (Rule.sheetText rules).toList := by
  induction rules with
  | nil => exact fun rest => rfl
  | cons r rules ih =>
    obtain ⟨hr, hrules⟩ := List.forall_mem_cons.1 h
    rw [Rule.sheetText, String.toList_append]
    exact hr.append (ih hrules)

/-- No comment opens in the text of a rule that was read. -/
theorem Rule.Every.hasNoComment {r : Rule} (h : r.Every Rule.IsRead) :
    HasNoComment r.text.toList := by
  have hbraces : ∀ {head inner : String}, HasNoComment (head.toList ++ ['\x7b']) →
      HasNoComment (inner.toList ++ ['\x7d']) →
      HasNoComment (head ++ "\x7b" ++ inner ++ "\x7d").toList := by
    intro head inner hhead hinner
    have hopen : "\x7b".toList = ['\x7b'] := rfl
    have hclose : "\x7d".toList = ['\x7d'] := rfl
    rw [String.toList_append, String.toList_append, String.toList_append, hopen, hclose,
      List.append_assoc]
    exact hhead.append hinner
  induction h with
  | @intro r hr _ ih =>
    cases hr with
    | qualified hselector _ hdeclarations =>
      rw [Rule.text, writeDeclarations, ← String.append_assoc, ← String.append_assoc]
      exact hbraces (hselector.hasNoComment (.inl rfl)) (hasNoComment_join hdeclarations)
    | statement hname hcondition =>
      rw [Rule.text, String.toList_append]
      exact (isPrelude_writeHead hname hcondition).hasNoComment (.inr (.inr rfl))
    | block hname _ hcondition hdeclarations =>
      rw [Rule.text, writeDeclarations, ← String.append_assoc, ← String.append_assoc]
      exact hbraces ((isPrelude_writeHead hname hcondition).hasNoComment (.inl rfl))
        (hasNoComment_join hdeclarations)
    | group hname _ hcondition =>
      rw [Rule.text]
      exact hbraces ((isPrelude_writeHead hname hcondition).hasNoComment (.inl rfl))
        ((hasNoComment_sheetText ih).append fun rest => rfl)

/-- Rules that are read as they are written are those of the style sheet that they make, and that
has no comment. -/
theorem parse_sheetText {rules : List Rule} (h : ∀ confined r, Occurs rules confined r → r.IsRead) :
    stripComments (Rule.sheetText rules).toList = .ok (Rule.sheetText rules).toList ∧
      parse (Rule.sheetText rules) = .ok rules := by
  have hrules : ∀ r ∈ rules, r.Every Rule.IsRead := fun r hr => Occurs.every_of_forall h (.top hr)
  have hcomment : opensComment .outside (Rule.sheetText rules).toList = false := by
    rw [← List.append_nil (Rule.sheetText rules).toList,
      hasNoComment_sheetText fun r hr => (hrules r hr).hasNoComment]
    rfl
  have hstrip : stripComments (Rule.sheetText rules).toList = .ok (Rule.sheetText rules).toList :=
    stripFrom_of_opensComment hcomment 0
  refine ⟨hstrip, ?_⟩
  rw [parse, hstrip]
  exact parseRules_sheetText hrules

/-! ### What is read -/

/-- The open string and the number of open brackets behind a text. -/
def openAfter : Quoting → Nat → List Char → Quoting × Nat
  | q, depth, [] => (q, depth)
  | q, depth, c :: cs => openAfter (q.next c) (if q.isOutside then nesting depth c else depth) cs

/-- Whether a text closes all strings and brackets that it opens. -/
def IsClosedText (cs : List Char) : Prop := openAfter .outside 0 cs = (.outside, 0)

instance (cs : List Char) : Decidable (IsClosedText cs) := inferInstanceAs (Decidable (_ = _))

/-- Where the reading of a text ends, quotes and brackets are open as they are after the text. -/
private theorem openAfter_of_read {neat : Bool} {s t : Spot} {cs : List Char}
    (h : (Zone.prelude neat).read s cs = some t) :
    openAfter s.quoting s.depth cs = (t.quoting, t.depth) := by
  induction cs generalizing s with
  | nil =>
    obtain rfl := Option.some.inj h
    rfl
  | cons c cs ih =>
    have hrest := ih (Zone.read_cons_eq_some_iff.1 h).2
    rwa [Zone.quoting_advance, Zone.depth_advance] at hrest

/-- Whether a rule is read as it is written if it closes what it opens. Only an at-rule without a
block may leave something open. -/
def Rule.IsReadIfClosed (r : Rule) : Prop :=
  (∀ name condition, r = .statement name condition → IsClosedText condition.toList) → r.IsRead

/-- Whether all rules in a piece satisfy `P`, and the rule that it opens whatever comes into it. -/
def Piece.Every (P : Rule → Prop) : Piece → Prop
  | .rule r => r.Every P
  | .opening name condition keyframes => ∀ rules, P (.group name condition keyframes rules)
  | .closing _ => True

/-- What holds throughout all pieces holds throughout the rules that are put together from them. -/
theorem every_of_assemble {P : Rule → Prop} {error : Option Error} {stop : Nat}
    {pieces : List Piece}
    (hpieces : ∀ p ∈ pieces, p.Every P) {rules : List Rule}
    (h : assemble error stop pieces [] [] = .ok rules) : ∀ r ∈ rules, r.Every P :=
  forall_of_assemble (fun r hr => hpieces (.rule r) hr)
    (fun _ _ _ hopening rules hrules => .intro (hpieces _ hopening rules) hrules)
      (List.forall_mem_nil _)
    (List.forall_mem_nil _) h

/-- The pieces of a text without comments, and what follows them. -/
private theorem isRead_of_readQualified {c next : Cursor} {p : Piece}
    (hclear : ({} : Spot).Clear c.rest)
    (hhead : ∀ d ∈ c.rest.head?, isMarkupSpace d = false ∧ d ≠ '@')
    (h : readQualified c = .ok (p, next)) :
    p.Every Rule.IsReadIfClosed ∧ ({} : Spot).Clear next.rest := by
  obtain ⟨text, inner, ds, htake, hne, rfl, hblock⟩ := exists_of_readQualified h
  have happend := takePrelude_append .outside 0 c.rest
  obtain ⟨t, hread, htclear, hstop⟩ : ∃ t,
      (Zone.prelude false).read {} (takePrelude .outside 0 c.rest).1 = some t ∧
      t.Clear (takePrelude .outside 0 c.rest).2 ∧
      ∀ d ∈ (takePrelude .outside 0 c.rest).2.head?, t.quoting = .outside ∧ t.depth = 0 ∧
        (d = '\x7b' ∨ d = '\x7d' ∨ d = ';') := exists_read_takePrelude hclear
  rw [htake] at happend hread htclear hstop
  obtain ⟨ht, hdepth, -⟩ := hstop '\x7b' rfl
  have hinner : ({} : Spot).Clear inner := (htclear.restart ht).tail rfl
  obtain ⟨hdeclarations, hnext⟩ := areDeclarations_of_readDeclarations (s := {}) rfl hinner hblock
  obtain ⟨s, hselector, hs, hsdepth, hblank⟩ := Zone.exists_read_collapse hread rfl rfl true true
  refine ⟨.intro (fun _ => .qualified
    ⟨s, hselector, hs.trans ht, hsdepth.trans hdepth, hblank hne⟩ ?_ hdeclarations) nofun, hnext⟩
  cases text with
  | nil => exact absurd rfl hne
  | cons d text =>
    obtain ⟨hspace, hat⟩ := hhead d (by rw [← happend]; rfl)
    rw [collapse_cons hspace]
    exact fun h => hat (Option.some.inj h)

/-- An at-rule that is read is one that can be read again, and leaves the rest clear. -/
private theorem isRead_of_readAtRule {c next : Cursor} {p : Piece} {text : List Char}
    (hclear : ({} : Spot).Clear c.rest) (hrest : c.rest = '@' :: text)
    (h : readAtRule c = .ok (p, next)) :
    p.Every Rule.IsReadIfClosed ∧ ({} : Spot).Clear next.rest := by
  obtain ⟨hne, head, rest, htake, hends⟩ := exists_of_readAtRule hrest h
  have hchars : ∀ d ∈ text.takeWhile isNameChar, isNameChar d = true :=
    fun d hd => List.all_eq_true.1 List.all_takeWhile d hd
  have hname : IsAtName (String.ofList ('@' :: text.takeWhile isNameChar)).toList := by
    rw [String.toList_ofList]
    exact ⟨_, rfl, hne, hchars⟩
  have hafter : ({} : Spot).Clear (text.dropWhile isNameChar) := by
    rw [hrest] at hclear
    have htext := hclear.tail rfl
    rw [← List.takeWhile_append_dropWhile (p := isNameChar) (l := text)] at htext
    have hread : (Zone.prelude false).read {} (text.takeWhile isNameChar) = some {} :=
      Zone.read_of_isNameChar hchars hne rfl
    exact htext.of_read hread
  obtain ⟨t, hread, htclear, hstop⟩ : ∃ t,
      (Zone.prelude false).read {} (takePrelude .outside 0 (text.dropWhile isNameChar)).1 = some t ∧
      t.Clear (takePrelude .outside 0 (text.dropWhile isNameChar)).2 ∧
      ∀ d ∈ (takePrelude .outside 0 (text.dropWhile isNameChar)).2.head?,
        t.quoting = .outside ∧ t.depth = 0 ∧ (d = '\x7b' ∨ d = '\x7d' ∨ d = ';') :=
    exists_read_takePrelude hafter
  rw [htake] at hread htclear hstop
  obtain ⟨s, hcollapse, hs, hsdepth, hblank⟩ := Zone.exists_read_collapse hread rfl rfl true true
  have hcondition : t.quoting = .outside → t.depth = 0 →
      collapse head = "" ∨ IsPrelude (collapse head).toList := fun ht hdepth =>
    or_iff_not_imp_left.2 fun hhead =>
      ⟨s, hcollapse, hs.trans ht, hsdepth.trans hdepth, hblank hhead⟩
  cases hends with
  | group hkind =>
    obtain ⟨ht, hdepth, -⟩ := hstop '\x7b' rfl
    exact ⟨fun _ _ => .group hname hkind (hcondition ht hdepth), (htclear.restart ht).tail rfl⟩
  | block hkind hblock =>
    obtain ⟨ht, hdepth, -⟩ := hstop '\x7b' rfl
    obtain ⟨hdeclarations, hnext⟩ := areDeclarations_of_readDeclarations (s := {}) rfl
      ((htclear.restart ht).tail rfl) hblock
    exact ⟨.intro (fun _ => .block hname hkind (hcondition ht hdepth) hdeclarations)
      (List.forall_mem_nil _), hnext⟩
  | closed =>
    obtain ⟨ht, hdepth, -⟩ := hstop ';' rfl
    exact ⟨.intro (fun _ => .statement hname (hcondition ht hdepth)) (List.forall_mem_nil _),
      (htclear.restart ht).tail rfl⟩
  | unclosed =>
    refine ⟨.intro (fun hclosed => .statement hname ?_) (List.forall_mem_nil _), ?_⟩
    · -- What is closed when its blanks are reduced was closed before.
      have hopen := openAfter_of_read hcollapse
      rw [hclosed _ _ rfl] at hopen
      obtain ⟨hquoting, hdepth⟩ := Prod.mk.inj hopen
      exact hcondition (hs.symm.trans hquoting.symm) (hsdepth.symm.trans hdepth.symm)
    · cases rest with
      | nil => exact ⟨rfl, fun _ hd => by cases hd⟩
      | cons d rest => exact htclear.restart (hstop d rfl).1

/-- A step reads pieces that can be read again, and leaves the rest clear. -/
theorem isRead_of_step {c next : Cursor} {p : Option Piece} (hclear : ({} : Spot).Clear c.rest)
    (hhead : ∀ d ∈ c.rest.head?, isMarkupSpace d = false) (h : step c = .ok (p, next)) :
    (∀ q ∈ p, q.Every Rule.IsReadIfClosed) ∧ ({} : Spot).Clear next.rest := by
  cases stepsTo_of_step h with
  | closing hrest =>
    rw [hrest] at hclear
    refine ⟨fun q hq => ?_, hclear.tail rfl⟩
    obtain rfl := Option.some.inj hq
    trivial
  | atRule hrest hread =>
    obtain ⟨hq, hnext⟩ := isRead_of_readAtRule hclear hrest hread
    exact ⟨fun _ h => Option.some.inj h ▸ hq, hnext⟩
  | semicolon hrest =>
    rw [hrest] at hclear
    exact ⟨nofun, hclear.tail rfl⟩
  | qualified hat hread =>
    have hselector : ∀ d ∈ c.rest.head?, isMarkupSpace d = false ∧ d ≠ '@' :=
      fun d hd => ⟨hhead d hd, fun heq => hat (heq ▸ hd)⟩
    obtain ⟨hq, hnext⟩ := isRead_of_readQualified hclear hselector hread
    exact ⟨fun _ h => Option.some.inj h ▸ hq, hnext⟩

/-- Every piece is read again as it is written, if it closes what it opens. -/
private theorem isRead_of_scanFrom (c : Cursor) (hclear : ({} : Spot).Clear c.rest) :
    ∀ p ∈ (scanFrom c).pieces, p.Every Rule.IsReadIfClosed := by
  have hhead : ∀ cs :
      List Char, ∀ d ∈ (cs.dropWhile isMarkupSpace).head?, isMarkupSpace d = false := by
    intro cs d hd
    have hfirst := List.head?_dropWhile_not isMarkupSpace cs
    rwa [Option.mem_def.1 hd] at hfirst
  induction c using scanFrom.induct with
  | case1 c here hempty =>
    rw [scanFrom, if_pos hempty]
    exact List.forall_mem_nil _
  | case2 c here hempty e hstep =>
    rw [scanFrom, if_neg hempty, hstep]
    exact List.forall_mem_nil _
  | case3 c here hempty piece next hstep hshorter ih =>
    obtain ⟨hpiece, hnext⟩ := isRead_of_step hclear.dropWhile (hhead c.rest) hstep
    rw [scanFrom, if_neg hempty, hstep]
    simp only [hshorter, if_true]
    intro p hp
    rcases List.mem_append.1 hp with hp | hp
    · exact hpiece p (Option.mem_toList.1 hp)
    · exact ih hnext p hp
  | case4 c here hempty piece next hstep hlonger =>
    obtain ⟨hpiece, -⟩ := isRead_of_step hclear.dropWhile (hhead c.rest) hstep
    rw [scanFrom, if_neg hempty, hstep]
    simp only [hlonger, if_false]
    exact fun p hp => hpiece p (Option.mem_toList.1 hp)

/-- The rules of a style sheet are read as they are written, but for at-rules without a block that
leave something open. -/
theorem isRead_of_parse {css : String} {rules : List Rule} (h : parse css = .ok rules)
    (hclosed : ∀ confined name condition, Occurs rules confined (.statement name condition) →
      IsClosedText condition.toList)
    {confined : Bool} {r : Rule} (hr : Occurs rules confined r) : r.IsRead := by
  obtain ⟨cs, hstrip, hrules⟩ := bind_eq_ok_iff.1 h
  have hclear : ({} : Spot).Clear cs := ⟨opensComment_of_stripFrom hstrip, nofun⟩
  have hevery : ∀ r ∈ rules, r.Every Rule.IsReadIfClosed :=
    every_of_assemble (isRead_of_scanFrom ⟨cs, 0⟩ hclear) hrules
  obtain ⟨hread, -⟩ := hr.every hevery
  exact hread fun name condition hstatement => hclosed confined name condition (hstatement ▸ hr)

end ViewCompiler.Style
