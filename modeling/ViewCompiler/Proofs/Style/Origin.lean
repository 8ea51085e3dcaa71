import ViewCompiler.Proofs.Style.Mark

/-!
# What a style sheet is read from

Every text in the rules of a style sheet (a selector, the name or condition of an at-rule, a
declaration) has a mark only if the style sheet has it (`infix_of_parse`). The readers are followed
one by one: each leaves a suffix of what it was given, and what it reads is taken from the rest.

What a reader comes to where it does not fail is said once for all that is proved of it:
`DeclaresOver` of one character of a block, `EndsAtRule` of an at-rule behind its condition,
`StepsTo` of a whole piece. What holds of the pieces holds of the rules that they are put together
to (`forall_of_assemble`).

Later modules on style sheets go through these cases too, and not through the readers. The
invariants differ from one to the next: here that a text comes from the rest (`Piece.ComesFrom`), in
`Style/Sheet` that a text can be read again, in `Style/Braces` that certain braces were passed.

A text need not stand in the style sheet as it is. Its blanks are reduced and its comments are
blanks. A mark has no blanks and no quotes, so it is in a text after this only if it was there
before (`Style/Mark`), which is why the statement is about marks and not about the texts.

`Occurs` finds a rule at any nesting and says whether scoping confines its selector: not in a group
of key frames, whose selectors are percentages.
-/

namespace ViewCompiler.Text

theorem Quoting.eq_outside_of_isOutside {q : Quoting} (h : q.isOutside = true) : q = .outside := by
  cases q with
  | outside => rfl
  | inside | escaped => cases h

end ViewCompiler.Text

namespace ViewCompiler.Style

open ViewCompiler.Text

/-- The texts of a rule itself. -/
def Rule.texts : Rule → List String
  | .qualified selector declarations => selector :: declarations
  | .statement name condition => [name, condition]
  | .block name condition declarations => name :: condition :: declarations
  | .group name condition _ _ => [name, condition]

/-- The rules that a rule holds. -/
def Rule.rules : Rule → List Rule
  | .qualified .. | .statement .. | .block .. => []
  | .group _ _ _ rules => rules

/-- Whether every text of a rule, and of the rules in it at any nesting, satisfies `P`. -/
inductive Rule.Consists (P : String → Prop) : Rule → Prop
  | intro {r} (htexts : ∀ t ∈ r.texts, P t) (hrules : ∀ r' ∈ r.rules, Consists P r') : Consists P r

/-- A rule in a list of rules, at any nesting, and whether scoping confines selectors there. -/
inductive Occurs (rules : List Rule) : Bool → Rule → Prop
  | top {r} (hr : r ∈ rules) : Occurs rules true r
  | inside {confined name condition keyframes inner r}
      (hgroup : Occurs rules confined (.group name condition keyframes inner)) (hr : r ∈ inner) :
      Occurs rules (confined && !keyframes) r

/-- What all texts of a sheet consist of, the texts of every rule in it do. -/
theorem Occurs.consists {P : String → Prop} {rules : List Rule} (h : ∀ r ∈ rules, r.Consists P)
    {confined : Bool} {r : Rule} (hr : Occurs rules confined r) : r.Consists P := by
  induction hr with
  | top hr => exact h _ hr
  | inside _ hr ih =>
    obtain ⟨-, hinner⟩ := ih
    exact hinner _ hr

/-! ### What is read -/

/-- Whether at-rules of a name hold rules, and then, whether these are key frames. -/
def groupKind? (name : String) : Option Bool :=
  if hasSuffix "keyframes" (lowercase name) then some true
  else if groupRules.contains (lowercase name) then some false
  else none

/-- A declaration that is read is blank, or a name and a value around a colon. -/
theorem cases_of_readDeclaration {start : Nat} {text : List Char} {declarations : List String}
    (h : readDeclaration start text = .ok declarations) : declarations = [] ∨
      ∃ first name value, cut? [':'] (trimBlank text) = some (first :: name, value) ∧
        declarations = [collapse (first :: name) ++ ":" ++ collapse value] := by
  unfold readDeclaration at h
  simp only at h
  split at h
  · exact .inl (Except.ok.inj h).symm
  · split at h
    · rename_i first name value hcut
      exact .inr ⟨first, name, value, hcut, (Except.ok.inj h).symm⟩
    · cases h

/-- How declarations are read over the character `c`, given what has been read of the one that
stands here. -/
inductive DeclaresOver (start here : Nat) (text : List Char) (q : Quoting)
    (depth offset : Nat) (c : Char)
    (cs : List Char) : List String → Cursor → Prop where
  /-- The character belongs to the declaration. -/
  | goes {declarations : List String} {next : Cursor}
    (hends : q = .outside → c ≠ '\x7b' ∧ c ≠ '\x7d' ∧ ¬(depth = 0 ∧ c = ';'))
    (hread : readDeclarations start here (c :: text) (q.next c)
      (if q.isOutside then if c = '(' then depth + 1 else if c = ')' then depth - 1
          else depth else depth)
      (offset + c.utf8Size) cs = .ok (declarations, next)) :
    DeclaresOver start here text q depth offset c cs declarations next
  | separates {first others : List String} {next : Cursor} (hq : q = .outside) (hc : c = ';')
    (hdepth : depth = 0) (hfirst : readDeclaration here text.reverse = .ok first)
    (hothers : readDeclarations start (offset + c.utf8Size) [] .outside 0 (offset + c.utf8Size) cs =
      .ok (others, next)) :
    DeclaresOver start here text q depth offset c cs (first ++ others) next
  | closes {last : List String} (hq : q = .outside) (hc : c = '\x7d')
    (hlast : readDeclaration here text.reverse = .ok last) :
    DeclaresOver start here text q depth offset c cs last ⟨cs, offset + c.utf8Size⟩

/-- Reading declarations goes over one character in one of the ways of `DeclaresOver`. -/
theorem declaresOver_of_readDeclarations {start here : Nat} {text : List Char} {q : Quoting}
    {depth offset : Nat} {c : Char} {cs : List Char} {declarations : List String} {next : Cursor}
    (h : readDeclarations start here text q depth offset (c :: cs) = .ok (declarations, next)) :
    DeclaresOver start here text q depth offset c cs declarations next := by
  rw [readDeclarations] at h
  simp only at h
  split at h
  · rename_i hinside
    rw [Bool.not_eq_true'] at hinside
    refine .goes (fun hq => ?_) (by rwa [hinside, if_neg Bool.false_ne_true])
    rw [hq] at hinside
    cases hinside
  · rename_i hout
    rw [Bool.not_eq_true, Bool.not_eq_false'] at hout
    obtain rfl := Quoting.eq_outside_of_isOutside hout
    split at h
    · cases h
    · rename_i hopen
      split at h
      · rename_i hsemicolon
        obtain ⟨hc, hdepth⟩ : c = ';' ∧ depth = 0 := by simpa using hsemicolon
        obtain ⟨first, hfirst, h⟩ := bind_eq_ok_iff.1 h
        obtain ⟨⟨others, after⟩, hothers, h⟩ := bind_eq_ok_iff.1 h
        obtain ⟨rfl, rfl⟩ := Prod.mk.inj (Except.ok.inj h)
        exact .separates rfl hc hdepth hfirst (hdepth ▸ hothers)
      · rename_i hsemicolon
        have hnext : ¬(depth = 0 ∧ c = ';') := fun hends => hsemicolon (by simp [hends])
        split at h
        · rename_i hclose
          obtain ⟨last, hlast, h⟩ := bind_eq_ok_iff.1 h
          obtain ⟨rfl, rfl⟩ := Prod.mk.inj (Except.ok.inj h)
          exact .closes rfl hclose hlast
        · rename_i hclose
          exact .goes (fun _ => ⟨hopen, hclose, hnext⟩) h

/-- A qualified rule is a selector with a block. -/
theorem exists_of_readQualified {c next : Cursor} {p : Piece}
    (h : readQualified c = .ok (p, next)) :
    ∃ text inner declarations, takePrelude .outside 0 c.rest = (text, '\x7b' :: inner) ∧
      collapse text ≠ "" ∧ p = .rule (.qualified (collapse text) declarations) ∧
        readBlock (c.past (text ++ ['\x7b']) inner) = .ok (declarations, next) := by
  unfold readQualified at h
  rcases htake : takePrelude .outside 0 c.rest with ⟨text, rest⟩
  rw [htake] at h
  simp only at h
  split at h
  · rename_i inner
    split at h
    · cases h
    · rename_i hne
      obtain ⟨⟨declarations, after⟩, hblock, h⟩ := bind_eq_ok_iff.1 h
      obtain ⟨rfl, rfl⟩ := Prod.mk.inj (Except.ok.inj h)
      exact ⟨text, inner, declarations, rfl, hne, rfl, hblock⟩
  · cases h

/-- What an at-rule is read as, by the text behind its name and condition. -/
inductive EndsAtRule (name condition : String) : List Char → Piece → Cursor → Prop where
  | group {inner : List Char} {keyframes : Bool} {offset : Nat}
    (hkind : groupKind? name = some keyframes) :
    EndsAtRule name condition ('\x7b' :: inner) (.opening name condition keyframes) ⟨inner, offset⟩
  | block {inner : List Char} {offset : Nat} {declarations : List String} {next : Cursor}
    (hkind : groupKind? name = none)
    (hblock : readBlock ⟨inner, offset⟩ = .ok (declarations, next)) :
    EndsAtRule name condition ('\x7b' :: inner) (.rule (.block name condition declarations)) next
  | closed {after : List Char} {offset : Nat} :
    EndsAtRule name condition (';' :: after) (.rule (.statement name condition)) ⟨after, offset⟩
  /-- The text ends, or a closing brace of a group follows. -/
  | unclosed {rest : List Char} {offset : Nat} :
    EndsAtRule name condition rest (.rule (.statement name condition)) ⟨rest, offset⟩

/-- An at-rule has a name, and behind its condition it ends in one of the ways of `EndsAtRule`. -/
theorem exists_of_readAtRule {c next : Cursor} {p : Piece} {text : List Char}
    (hrest : c.rest = '@' :: text)
    (h : readAtRule c = .ok (p, next)) :
    text.takeWhile isNameChar ≠ [] ∧ ∃ head rest,
      takePrelude .outside 0 (text.dropWhile isNameChar) = (head, rest) ∧
        EndsAtRule (String.ofList ('@' :: text.takeWhile isNameChar))
        (collapse head) rest p next := by
  unfold readAtRule at h
  simp only [Cursor.past, hrest, List.drop_succ_cons, List.drop_zero] at h
  generalize String.ofList ('@' :: text.takeWhile isNameChar) = name at h ⊢
  split at h
  · cases h
  rename_i hne
  rw [Bool.not_eq_true, List.isEmpty_eq_false_iff] at hne
  refine ⟨hne, _, _, rfl, ?_⟩
  generalize takePrelude .outside 0 (text.dropWhile isNameChar) = taken at h ⊢
  obtain ⟨head, rest⟩ := taken
  simp only at h ⊢
  split at h
  · split at h
    · rename_i hsuffix
      obtain ⟨rfl, rfl⟩ := Prod.mk.inj (Except.ok.inj h)
      exact .group (if_pos hsuffix)
    · rename_i hsuffix
      split at h
      · rename_i hcontains
        obtain ⟨rfl, rfl⟩ := Prod.mk.inj (Except.ok.inj h)
        exact .group ((if_neg hsuffix).trans (if_pos hcontains))
      · rename_i hcontains
        obtain ⟨⟨declarations, after⟩, hblock, h⟩ := bind_eq_ok_iff.1 h
        obtain ⟨rfl, rfl⟩ := Prod.mk.inj (Except.ok.inj h)
        exact .block ((if_neg hsuffix).trans (if_neg hcontains)) hblock
  · obtain ⟨rfl, rfl⟩ := Prod.mk.inj (Except.ok.inj h)
    exact .closed
  · obtain ⟨rfl, rfl⟩ := Prod.mk.inj (Except.ok.inj h)
    exact .unclosed

/-- What a step comes to, by the character in front of it: a closing brace, an at-rule, a stray
semicolon, or a qualified rule. -/
inductive StepsTo (c : Cursor) : Option Piece → Cursor → Prop where
  | closing {rest : List Char} (hrest : c.rest = '\x7d' :: rest) :
    StepsTo c (some (.closing c.offset)) (c.past ['\x7d'] rest)
  | atRule {text : List Char} {p : Piece} {next : Cursor} (hrest : c.rest = '@' :: text)
    (hread : readAtRule c = .ok (p, next)) : StepsTo c (some p) next
  | semicolon {rest : List Char} (hrest : c.rest = ';' :: rest) : StepsTo c none (c.past [';'] rest)
  | qualified {p : Piece} {next : Cursor} (hat : c.rest.head? ≠ some '@')
    (hread : readQualified c = .ok (p, next)) : StepsTo c (some p) next

/-- A step comes to one of the cases of `StepsTo`. -/
theorem stepsTo_of_step {c next : Cursor} {p : Option Piece} (h : step c = .ok (p, next)) :
    StepsTo c p next := by
  unfold step at h
  split at h
  · rename_i rest hrest
    obtain ⟨rfl, rfl⟩ := Prod.mk.inj (Except.ok.inj h)
    exact .closing hrest
  · rename_i text hrest
    obtain ⟨⟨q, after⟩, hread, h⟩ := map_eq_ok_iff.1 h
    obtain ⟨rfl, rfl⟩ := Prod.mk.inj h
    exact .atRule hrest hread
  · rename_i rest hrest
    obtain ⟨rfl, rfl⟩ := Prod.mk.inj (Except.ok.inj h)
    exact .semicolon hrest
  · rename_i hat _
    obtain ⟨⟨q, after⟩, hread, h⟩ := map_eq_ok_iff.1 h
    obtain ⟨rfl, rfl⟩ := Prod.mk.inj h
    refine .qualified (fun hhead => ?_) hread
    obtain ⟨rest, hrest⟩ := List.head?_eq_some_iff.1 hhead
    exact hat rest hrest

/-! ### Putting rules together -/

/-- The fold ends well only with no block left open. -/
theorem of_assemble_nil {error : Option Error} {stop : Nat} {groups : List OpenGroup}
    {before rules : List Rule} (h : assemble error stop [] groups before = .ok rules) :
    error = none ∧ groups = [] ∧ rules = before.reverse := by
  unfold assemble at h
  split at h
  · cases h
  · cases h
  · exact ⟨rfl, rfl, (Except.ok.inj h).symm⟩

/-- What holds of the rules that are read, and of a group if it holds of the rules in it, holds of
all that is put together. -/
theorem forall_of_assemble {Q : Rule → Prop} {error : Option Error} {stop : Nat}
    {pieces : List Piece}
    (hrule : ∀ r, .rule r ∈ pieces → Q r)
    (hgroup : ∀ name condition keyframes, .opening name condition keyframes ∈ pieces →
      ∀ rules, (∀ r ∈ rules, Q r) → Q (.group name condition keyframes rules))
    {groups : List OpenGroup}
    (hgroups : ∀ g ∈ groups,
      (∀ rules, (∀ r ∈ rules, Q r) → Q (.group g.name g.condition g.keyframes rules)) ∧
      ∀ r ∈ g.before, Q r)
    {before : List Rule} (hbefore : ∀ r ∈ before, Q r) {rules : List Rule}
    (h : assemble error stop pieces groups before = .ok rules) : ∀ r ∈ rules, Q r := by
  induction pieces generalizing groups before with
  | nil =>
    obtain ⟨-, -, rfl⟩ := of_assemble_nil h
    exact fun r hr => hbefore r (List.mem_reverse.1 hr)
  | cons piece pieces ih =>
    have ih := @ih (fun r hr => hrule r (List.mem_cons_of_mem _ hr))
      (fun name condition keyframes hopening =>
        hgroup name condition keyframes (List.mem_cons_of_mem _ hopening))
    cases piece with
    | rule r => exact ih hgroups (List.forall_mem_cons.2 ⟨hrule r List.mem_cons_self, hbefore⟩) h
    | opening name condition keyframes =>
      have hopened := hgroup name condition keyframes List.mem_cons_self
      exact ih (List.forall_mem_cons.2 ⟨⟨hopened, hbefore⟩, hgroups⟩) (List.forall_mem_nil _) h
    | closing offset =>
      cases groups with
      | nil => cases h
      | cons g groups =>
        obtain ⟨⟨hclosed, houter⟩, hgroups⟩ := List.forall_mem_cons.1 hgroups
        have hinside := hclosed before.reverse fun r hr => hbefore r (List.mem_reverse.1 hr)
        exact ih hgroups (List.forall_mem_cons.2 ⟨hinside, houter⟩) h

/-- Whether the texts of a piece satisfy `P`. -/
def Piece.Consists (P : String → Prop) : Piece → Prop
  | .rule r => r.Consists P
  | .opening name condition _ => P name ∧ P condition
  | .closing _ => True

/-- What all pieces consist of, the rules do that are put together from them. -/
private theorem consists_of_assemble {P : String → Prop} {error : Option Error} {stop : Nat}
    {pieces : List Piece} (hpieces : ∀ p ∈ pieces, p.Consists P) {rules : List Rule}
    (h : assemble error stop pieces [] [] = .ok rules) : ∀ r ∈ rules, r.Consists P := by
  refine forall_of_assemble (fun r hr => hpieces (.rule r) hr) ?_ (List.forall_mem_nil _)
    (List.forall_mem_nil _) h
  intro name condition keyframes hopening rules hrules
  obtain ⟨hname, hcondition⟩ := hpieces _ hopening
  exact .intro (List.forall_mem_cons.2 ⟨hname, List.forall_mem_singleton.2 hcondition⟩) hrules

/-! ### Reading pieces -/

/-- A text is the prelude at its beginning, and the rest. -/
theorem takePrelude_append (quoting : Quoting) (depth : Nat) (cs : List Char) :
    (takePrelude quoting depth cs).1 ++ (takePrelude quoting depth cs).2 = cs := by
  induction cs generalizing quoting depth with
  | nil => rfl
  | cons c cs ih =>
    rw [takePrelude]
    split
    · rfl
    · exact congrArg (c :: ·) (ih _ _)

section

variable {m : List Char} (hm : IsMark m)
include hm

/-- What stands in a declaration stands in the text that it is read from. -/
theorem infix_of_readDeclaration {start : Nat} {text : List Char} {ds : List String}
    (h : readDeclaration start text = .ok ds) {d : String} (hd : d ∈ ds) (hmark : m <:+: d.toList) :
    m <:+: text := by
  have hspace : ' ' ∉ m := hm.notMem rfl (by decide) (by decide)
  have hcolon : ':' ∉ m := hm.notMem rfl (by decide) (by decide)
  obtain rfl | ⟨first, name, value, hcut, rfl⟩ := cases_of_readDeclaration h
  · cases hd
  · obtain rfl := List.mem_singleton.1 hd
    have hparts := eq_of_cut?_eq_some hcut
    have hsep : ":".toList = [':'] := rfl
    rw [String.toList_append, String.toList_append, hsep, List.append_assoc,
      List.singleton_append] at hmark
    have htrimmed : m <:+: trimBlank text := by
      rw [hparts]
      rcases hm.infix_of_infix_append_cons hcolon hmark with hmark | hmark
      · exact (infix_of_infix_collapse hspace hm.ne_nil hmark).trans
          ((List.prefix_append _ [':']).trans (List.prefix_append _ _)).isInfix
      · exact (infix_of_infix_collapse hspace hm.ne_nil hmark).trans
          (List.suffix_append _ _).isInfix
    exact htrimmed.trans (infix_trimBlank text)

/-- What stands in declarations stands in the text that they are read from. -/
private theorem infix_of_readDeclarations {start here : Nat} {text : List Char} {quoting : Quoting}
    {depth offset : Nat} {cs : List Char} {ds : List String} {next : Cursor}
    (h : readDeclarations start here text quoting depth offset cs = .ok (ds, next)) :
    next.rest <:+ cs ∧ ∀ d ∈ ds, m <:+: d.toList → m <:+: text.reverse ++ cs := by
  induction cs generalizing here text quoting depth offset ds next with
  | nil => cases h
  | cons c cs ih =>
    cases declaresOver_of_readDeclarations h with
    | goes _ hread =>
      obtain ⟨hrest, hds⟩ := ih hread
      refine ⟨hrest.trans (List.suffix_cons c cs), fun d hd hmark => ?_⟩
      have hin := hds d hd hmark
      rwa [List.reverse_cons, List.append_assoc] at hin
    | separates _ _ _ hfirst hothers =>
      obtain ⟨hrest, hds⟩ := ih hothers
      refine ⟨hrest.trans (List.suffix_cons c cs), fun d hd hmark => ?_⟩
      rcases List.mem_append.1 hd with hd | hd
      · exact (infix_of_readDeclaration hm hfirst hd hmark).trans (List.prefix_append _ _).isInfix
      · have hin : m <:+: cs := hds d hd hmark
        exact hin.trans ((List.suffix_cons c cs).trans (List.suffix_append _ _)).isInfix
    | closes _ _ hlast =>
      refine ⟨List.suffix_cons c cs, fun d hd hmark => ?_⟩
      exact (infix_of_readDeclaration hm hlast hd hmark).trans (List.prefix_append _ _).isInfix

/-- What stands in the declarations of a block stands in the block. -/
theorem infix_of_readBlock {c next : Cursor} {ds : List String} (h : readBlock c = .ok (ds, next)) :
    next.rest <:+ c.rest ∧ ∀ d ∈ ds, m <:+: d.toList → m <:+: c.rest :=
  infix_of_readDeclarations hm h

/-- What stands in a prelude stands in the text in front of which it is. -/
theorem infix_of_takePrelude {cs : List Char}
    (h : m <:+: (collapse (takePrelude .outside 0 cs).1).toList) : m <:+: cs := by
  have hspace : ' ' ∉ m := hm.notMem rfl (by decide) (by decide)
  have hprefix : (takePrelude .outside 0 cs).1 <+: cs := ⟨_, takePrelude_append .outside 0 cs⟩
  exact (infix_of_infix_collapse hspace hm.ne_nil h).trans hprefix.isInfix

/-- What a piece is made of has no mark that is not in what it is read from. -/
def Piece.ComesFrom (m cs : List Char) (p : Piece) : Prop :=
  p.Consists fun t => m <:+: t.toList → m <:+: cs

/-- A qualified rule comes from the text that it is read from. -/
private theorem comesFrom_of_readQualified {c next : Cursor} {p : Piece}
    (h : readQualified c = .ok (p, next)) :
    next.rest <:+ c.rest ∧ p.ComesFrom m c.rest := by
  obtain ⟨text, inner, ds, htake, -, rfl, hblock⟩ := exists_of_readQualified h
  have happend := takePrelude_append .outside 0 c.rest
  have hselector : m <:+: (collapse (takePrelude .outside 0 c.rest).1).toList → m <:+: c.rest :=
    infix_of_takePrelude hm
  rw [htake] at happend hselector
  obtain ⟨hrest, hds⟩ := infix_of_readBlock hm hblock
  have hinner : inner <:+ c.rest := by
    rw [← happend]
    exact (List.suffix_cons _ inner).trans (List.suffix_append text _)
  refine ⟨hrest.trans hinner,
    .intro (List.forall_mem_cons.2 ⟨hselector, fun d hd hmark => ?_⟩) nofun⟩
  exact (hds d hd hmark).trans hinner.isInfix

/-- A name has no brackets. -/
private theorem infix_of_infix_atName {cs rest : List Char}
    (h : m <:+: (String.ofList ('@' :: cs.takeWhile isNameChar)).toList) : m <:+: rest := by
  have hopen : '[' ∉ '@' :: cs.takeWhile isNameChar := by
    intro hmem
    rcases List.mem_cons.1 hmem with hmem | hmem
    · exact absurd hmem (by decide)
    · exact absurd (List.all_eq_true.1 List.all_takeWhile _ hmem) (by decide)
  rw [String.toList_ofList, ← List.append_nil ('@' :: _)] at h
  exact absurd (List.infix_nil.1 (hm.infix_of_infix_append hopen h)) hm.ne_nil

/-- An at-rule comes from the text that it is read from. -/
private theorem comesFrom_of_readAtRule {c next : Cursor} {p : Piece} {text : List Char}
    (hstart : c.rest = '@' :: text) (h : readAtRule c = .ok (p, next)) :
    next.rest <:+ c.rest ∧ p.ComesFrom m c.rest := by
  obtain ⟨-, head, rest, htake, hends⟩ := exists_of_readAtRule hstart h
  have hafter : text.dropWhile isNameChar <:+ c.rest := by
    rw [hstart]
    exact (List.dropWhile_suffix _).trans (List.suffix_cons _ text)
  have happend := takePrelude_append .outside 0 (text.dropWhile isNameChar)
  have hcondition :
      m <:+: (collapse (takePrelude .outside 0 (text.dropWhile isNameChar)).1).toList →
      m <:+: c.rest := fun h => (infix_of_takePrelude hm h).trans hafter.isInfix
  rw [htake] at happend hcondition
  have hrest : rest <:+ c.rest := by
    rw [← happend] at hafter
    exact (List.suffix_append head rest).trans hafter
  have hname : m <:+: (String.ofList ('@' :: text.takeWhile isNameChar)).toList → m <:+: c.rest :=
    infix_of_infix_atName hm
  cases hends with
  | group => exact ⟨(List.suffix_cons _ _).trans hrest, hname, hcondition⟩
  | block _ hblock =>
    obtain ⟨hnext, hds⟩ := infix_of_readBlock hm hblock
    have hinner := (List.suffix_cons _ _).trans hrest
    refine ⟨hnext.trans hinner, .intro (List.forall_mem_cons.2 ⟨hname,
      List.forall_mem_cons.2 ⟨hcondition, fun d hd hmark => ?_⟩⟩) nofun⟩
    exact (hds d hd hmark).trans hinner.isInfix
  | closed =>
    exact ⟨(List.suffix_cons _ _).trans hrest,
      .intro (List.forall_mem_cons.2 ⟨hname, List.forall_mem_singleton.2 hcondition⟩) nofun⟩
  | unclosed =>
    exact ⟨hrest,
      .intro (List.forall_mem_cons.2 ⟨hname, List.forall_mem_singleton.2 hcondition⟩) nofun⟩

/-- What a step reads comes from the text in front of it. -/
theorem comesFrom_of_step {c next : Cursor} {p : Option Piece} (h : step c = .ok (p, next)) :
    next.rest <:+ c.rest ∧ ∀ q ∈ p, q.ComesFrom m c.rest := by
  cases stepsTo_of_step h with
  | closing hrest =>
    refine ⟨hrest ▸ List.suffix_cons _ _, fun q hq => ?_⟩
    obtain rfl := Option.some.inj hq
    trivial
  | atRule hrest hread =>
    obtain ⟨hnext, hq⟩ := comesFrom_of_readAtRule hm hrest hread
    exact ⟨hnext, fun _ h => Option.some.inj h ▸ hq⟩
  | semicolon hrest => exact ⟨hrest ▸ List.suffix_cons _ _, nofun⟩
  | qualified _ hread =>
    obtain ⟨hnext, hq⟩ := comesFrom_of_readQualified hm hread
    exact ⟨hnext, fun _ h => Option.some.inj h ▸ hq⟩

omit hm in
theorem Rule.Consists.mono {P Q : String → Prop} (hpq : ∀ t, P t → Q t) {r : Rule}
    (h : r.Consists P) : r.Consists Q := by
  induction h with
  | intro htexts _ ih => exact .intro (fun t ht => hpq t (htexts t ht)) ih

omit hm in
theorem Piece.ComesFrom.trans {cs ds : List Char} {p : Piece} (h : p.ComesFrom m cs)
    (hcs : cs <:+: ds) : p.ComesFrom m ds := by
  have hmono : ∀ t : String, (m <:+: t.toList → m <:+: cs) → m <:+: t.toList → m <:+: ds :=
    fun t ht hmark => (ht hmark).trans hcs
  cases p with
  | rule r => exact Rule.Consists.mono hmono h
  | opening name condition keyframes => exact ⟨hmono _ h.1, hmono _ h.2⟩
  | closing offset => trivial

/-- Every piece comes from what there is to read. -/
private theorem comesFrom_of_scanFrom (c : Cursor) :
    ∀ p ∈ (scanFrom c).pieces, p.ComesFrom m c.rest := by
  induction c using scanFrom.induct with
  | case1 c here hempty =>
    rw [scanFrom, if_pos hempty]
    exact nofun
  | case2 c here hempty e hstep =>
    rw [scanFrom, if_neg hempty, hstep]
    exact nofun
  | case3 c here hempty piece next hstep hshorter ih =>
    have hhere : here.rest <:+: c.rest := (List.dropWhile_suffix isMarkupSpace).isInfix
    obtain ⟨hnext, hpiece⟩ := comesFrom_of_step hm hstep
    rw [scanFrom, if_neg hempty, hstep]
    simp only [hshorter, if_true]
    intro p hp
    rcases List.mem_append.1 hp with hp | hp
    · exact (hpiece p (Option.mem_toList.1 hp)).trans hhere
    · exact (ih p hp).trans (hnext.isInfix.trans hhere)
  | case4 c here hempty piece next hstep hlonger =>
    have hhere : here.rest <:+: c.rest := (List.dropWhile_suffix isMarkupSpace).isInfix
    obtain ⟨-, hpiece⟩ := comesFrom_of_step hm hstep
    rw [scanFrom, if_neg hempty, hstep]
    simp only [hlonger, if_false]
    exact fun p hp => (hpiece p (Option.mem_toList.1 hp)).trans hhere

omit hm in
/-- A piece that stands at a cursor is the first one from there on. -/
theorem scanFrom_of_step {c next : Cursor} {p : Piece}
    (hhead : c.rest.head?.any isMarkupSpace = false) (hstep : step c = .ok (some p, next))
    (hshorter : next.rest.length < c.rest.length) :
    scanFrom c = ⟨p :: (scanFrom next).pieces, (scanFrom next).error, (scanFrom next).stop⟩ := by
  have hne : c.rest.isEmpty = false := by
    cases hrest : c.rest with
    | nil => rw [hrest] at hshorter; exact absurd hshorter (Nat.not_lt_zero _)
    | cons d ds => rfl
  have hhead : ∀ d ∈ c.rest.head?, isMarkupSpace d = false := by
    intro d hd
    rwa [Option.mem_def.1 hd] at hhead
  have hdrop : c.rest.dropWhile isMarkupSpace = c.rest := dropWhile_eq_self_of_head? hhead
  have htake : ([] ++ c.rest).takeWhile isMarkupSpace = [] := takeWhile_append nofun hhead
  rw [List.nil_append] at htake
  have hhere : c.past [] c.rest = c := rfl
  rw [scanFrom]
  simp only [htake, hdrop, hhere, hne, hstep, hshorter, if_true, Option.toList_some,
    List.singleton_append]
  rfl

/-- A mark in a text of a rule is in the style sheet that the rule is read from. -/
theorem infix_of_parse {css : String} {rules : List Rule} (h : parse css = .ok rules)
    {confined : Bool}
    {r : Rule} (hr : Occurs rules confined r) {t : String} (ht : t ∈ r.texts)
    (hmark : m <:+: t.toList) : m <:+: css.toList := by
  have hspace : ' ' ∉ m := hm.notMem rfl (by decide) (by decide)
  obtain ⟨cs, hstrip, hrules⟩ := bind_eq_ok_iff.1 h
  have hconsists : ∀ r ∈ rules, r.Consists fun t => m <:+: t.toList → m <:+: cs :=
    consists_of_assemble (comesFrom_of_scanFrom hm ⟨cs, 0⟩) hrules
  obtain ⟨htexts, -⟩ := hr.consists hconsists
  exact infix_of_infix_stripFrom hspace hm.ne_nil hstrip (htexts t ht hmark)

end

end ViewCompiler.Style
