import Mathlib
import ViewCompiler.Proofs.Template.Continuation
import ViewCompiler.Proofs.Template.Splitting

/-!
# Comments

A comment can stand between two tokens of a template, or within a piece of running text (`Cuts`). It
leaves no token behind, and what follows it is read as it would be without the comment
(`scan_commentText`), so a template stays one that can be read. Between two tokens the comment
leaves no trace at all. Within running text it leaves two pieces where there was one, which makes a
difference in one case (`parse_with_comment`): white space between markup is dropped, but the two
pieces are kept, since each has the other beside it (`not_sameContent_betweenComponents`).

White space is dropped by looking at what a piece of text stands between. Blank text that has
nothing but markup beside it among its siblings is indentation; beside an interpolation or other
text it is content. A comment is gone when this is decided, and the two pieces around it are not
joined. So each of them has text beside it on one side, and is kept.

`Cuts` has to say where a comment can stand without being part of something else: the text in front
of it must be read on its own, up to its end, and so must the text behind it. It must not be cut
within a character reference, which would become two pieces of text that are no reference.

What is compared is the content of the two templates, in which neighbouring texts are joined and
places are left out (`SameContent`).
-/

namespace ViewCompiler.Template

open ViewCompiler.Text

/-! ### Where a template can be cut -/

/-- A comment with this text. -/
def commentText (text : List Char) : List Char := ['<', '!', '-', '-'] ++ text ++ ['-', '-', '>']

/-- The text of a template is cut between two tokens: those of the whole are those of its parts. -/
def CutsBetween (front back : List Char) : Prop :=
  (scan (front ++ back)).tokens =
    (scan front).tokens ++ (scan back).tokens.map (Token.shift (byteLength front))

/-- The text of a template is cut within a piece of running text, but not within a character
reference. The tokens around that piece and its two parts are told. -/
structure CutsText (front back : List Char) (before after : List Token) (start stop : Nat)
    (first second : String) : Prop where
  front_eq : (scan front).tokens = before ++ [.text start (byteLength front) first]
  back_eq : (scan back).tokens = .text 0 stop second :: after
  whole_eq : (scan (front ++ back)).tokens =
    before ++ .text start (byteLength front + stop) (first ++ second) ::
      after.map (Token.shift (byteLength front))
  decode_eq : CharacterReference.decode (first ++ second) =
    CharacterReference.decode first ++ CharacterReference.decode second

/-- The text of a template is cut where markup can stand: both parts can be read on their own, and
no token is cut but for running text. -/
structure Cuts (front back : List Char) : Prop where
  front_reads : (scan front).failure = none
  back_reads : (scan back).failure = none
  tokens : CutsBetween front back ∨
    ∃ before after start stop first second, CutsText front back before after start stop first second

/-- The text of a template is cut within white space that has only markup beside it, but is not the
content of a component. -/
def CutsIndentation (front back : List Char) : Prop :=
  ∃ before after start stop first second, CutsText front back before after start stop first second ∧
    (CharacterReference.decode (first ++ second)).toList.all isBlank = true ∧
      exposed before after = true

/-- A reference does not start in white space, so none is cut behind it. -/
theorem decode_append_of_isBlank {first : String} (h : first.toList.all isBlank = true)
    (second : String) :
    CharacterReference.decode (first ++ second) =
      CharacterReference.decode first ++ CharacterReference.decode second := by
  have hdecode : ∀ before after : List Char, before.all isBlank = true →
      CharacterReference.decodeFrom 0 (before ++ after) = before ++
        CharacterReference.decodeFrom 0 after := by
    intro before after hbefore
    induction before with
    | nil => rfl
    | cons c before ih =>
      obtain ⟨hc, hbefore⟩ := Bool.and_eq_true_iff.1 hbefore
      have hne : c ≠ '&' := by
        rintro rfl
        exact absurd hc (by decide)
      rw [List.cons_append, CharacterReference.decodeFrom, if_neg hne, ih hbefore, List.cons_append]
  have hfirst := hdecode first.toList [] h
  rw [List.append_nil, CharacterReference.decodeFrom, List.append_nil] at hfirst
  simp only [CharacterReference.decode, String.toList_append, hdecode _ _ h, hfirst,
    String.ofList_append]

/-- What can be read on its own is read as that before markup, and so is the markup behind it. -/
theorem scan_append_of_atTag {front back : List Char} (hfront : (scan front).failure = none)
    (hback : atTag back = true) :
    scan (front ++ back) = ((scan back).shift (byteLength front)).after (scan front).tokens := by
  have hbetween :=
    scanFrom_between hfront hback (show Cursor.Ends _ ⟨front ++ back, 0⟩ from Nat.zero_add _)
  have hscan : scanFrom (byteLength (front ++ back)) ⟨back, byteLength front⟩ =
      (scan back).shift (byteLength front) := by
    rw [byteLength_append]
    exact scanFrom_shift (byteLength front) (byteLength back) ⟨back, 0⟩
  rw [scan, hbetween, List.map_id'' Token.shift_zero, Nat.zero_add, hscan]

/-! ### Reading a comment -/

section Comments

variable {front back text : List Char}

private theorem step_commentText (htext : ¬['-', '-', '>'] <:+: text) (size offset : Nat)
    (rest : List Char) :
    step size ⟨commentText text ++ rest, offset⟩ =
      .ok (none, ⟨rest, offset + byteLength (commentText text)⟩) := by
  have hcut : cut? ['-', '-', '>'] (text ++ ['-', '-', '>'] ++ rest) = some (text, rest) :=
    cut?_append_of_not_infix_concat (by decide : '>' ∉ ['-', '-']) htext rest
  have hsteps : StepsTo size ⟨commentText text ++ rest, offset⟩ none _ :=
    .comment (by simp [commentText]) hcut
  rw [hsteps.step_eq, ← past_comment]
  rfl

/-- A comment leaves no token behind, and what follows is read as it is on its own. -/
theorem scan_commentText (htext : ¬['-', '-', '>'] <:+: text) (back : List Char) :
    scan (commentText text ++ back) = (scan back).shift (byteLength (commentText text)) := by
  have hskip :=
    scanFrom_of_skip (step_commentText htext (byteLength (commentText text ++ back)) 0 back)
    (List.cons_ne_nil _ _)
  rw [Nat.zero_add] at hskip
  rw [scan, hskip, byteLength_append]
  exact scanFrom_shift (byteLength (commentText text)) (byteLength back) ⟨back, 0⟩

private theorem moved_self (tokens : List Token) : List.Forall₂ Token.Moved tokens tokens :=
  List.forall₂_same.2 fun t _ => ⟨0, t.shift_zero.symm⟩

private theorem moved_shift (k l : Nat) (tokens : List Token) :
    List.Forall₂ Token.Moved ((tokens.map (Token.shift l)).map (Token.shift k))
      (tokens.map (Token.shift k)) := by
  simp only [List.forall₂_map_left_iff, List.forall₂_map_right_iff, List.forall₂_same]
  exact fun t _ => ⟨l, by rw [Token.shift_shift, Token.shift_shift, Nat.add_comm]⟩

/-- A cut between tokens is no cut of indentation. -/
theorem CutsBetween.not_cutsIndentation (h : CutsBetween front back) :
    ¬CutsIndentation front back := by
  rintro ⟨before, after, start, stop, first, second, hcuts, -⟩
  have hlength := congrArg List.length (hcuts.whole_eq.symm.trans h)
  rw [hcuts.front_eq, hcuts.back_eq] at hlength
  simp at hlength

/-- A cut within text cuts indentation exactly if the text is blank and stands beside markup. -/
theorem CutsText.cutsIndentation_iff {before after : List Token} {start stop : Nat}
    {first second : String}
    (h : CutsText front back before after start stop first second) :
    CutsIndentation front back ↔
      (CharacterReference.decode (first ++ second)).toList.all isBlank = true ∧
        exposed before after = true := by
  refine ⟨?_, fun hblank => ⟨_, _, _, _, _, _, h, hblank⟩⟩
  rintro ⟨before', after', start', stop', first', second', h', hblank⟩
  obtain ⟨rfl, htoken⟩ := List.append_inj' (h.front_eq.symm.trans h'.front_eq) rfl
  obtain ⟨hsecond, rfl⟩ := List.cons.inj (h.back_eq.symm.trans h'.back_eq)
  obtain ⟨rfl, -, rfl⟩ := Token.text.inj (List.singleton_inj.1 htoken)
  obtain ⟨-, -, rfl⟩ := Token.text.inj hsecond
  exact hblank

/-- A comment makes no difference to the content of a template, wherever it is put where a comment
can stand, unless it is put into white space that has only markup beside it. The template is read
all the same, but the white space, which would be dropped without the comment, is kept as two pieces
of text. -/
theorem parse_with_comment (hcuts : Cuts front back) (htext : ¬['-', '-', '>'] <:+: text)
    {component : String}
    {nodes : List Node} (h : parse component (String.ofList (front ++ back)) = .ok nodes) :
    ∃ nodes', parse component (String.ofList (front ++ (commentText text ++ back))) = .ok nodes' ∧
      (SameContent nodes' nodes ↔ ¬CutsIndentation front back) := by
  simp only [parse_eq_ok_iff, String.toList_ofList] at h ⊢
  obtain ⟨-, forest, hassembles, rfl⟩ := h
  obtain ⟨source, hsource⟩ : ∃ source, Source.ofText (front ++ (commentText text ++ back)) =
    source := ⟨_, rfl⟩
  have hscan : scan (front ++ (commentText text ++ back)) = _ :=
    scan_append_of_atTag hcuts.front_reads rfl
  rw [scan_commentText htext] at hscan
  rw [hsource, hscan, Scan.after, Scan.shift, Scan.shift, hcuts.back_reads]
  rcases hcuts.tokens with hbetween | ⟨before, after, start, stop, first, second, hcut⟩
  · -- The tokens are the same, some of them further on.
    rw [hbetween] at hassembles
    obtain ⟨forest', hassembles', hsame⟩ := hassembles.exists_moved
      (List.rel_append (moved_self _) (moved_shift _ (byteLength (commentText text)) _)) source
    refine ⟨_, ⟨rfl, forest', hassembles', rfl⟩, iff_of_true ?_ hbetween.not_cutsIndentation⟩
    rw [SameContent, pruneWhitespace_unplacedAll, hsame, ← pruneWhitespace_unplacedAll]
  · -- One token of text became two.
    obtain ⟨forest', hassembles', hpieces⟩ := (hassembles.around hcut.whole_eq).exists_pieces
      (congrArg run hcut.decode_eq) (moved_self before)
      (moved_shift (byteLength front) (byteLength (commentText text)) after) source start
        (byteLength front)
      (byteLength front + byteLength (commentText text))
        (byteLength front + (byteLength (commentText text) + stop))
    rw [hcut.front_eq, hcut.back_eq]
    refine ⟨_, ⟨rfl, forest', by simpa [Token.shift] using hassembles', rfl⟩, ?_⟩
    rw [SameContent, pruneWhitespace_unplacedAll, pruneWhitespace_unplacedAll,
      hcut.cutsIndentation_iff]
    rw [exposed_map_shift] at hpieces
    rcases hpieces with ⟨hsame, hexposed⟩ | hreplaced
    · rw [hsame, hexposed]
      simp
    · rw [eq_comm, pruneWhitespace, pruneWhitespace, hreplaced.joinedAll_pruneFrom,
        ← hcut.decode_eq]
      rfl

end Comments

namespace BesideInterpolation

/-- A name and a blank behind it. -/
def front : List Char := "\x7b\x7bx\x7d\x7d ".toList

def back : List Char := " <A/>".toList

def note : List Char := " note ".toList

def nodes : List Node :=
  [.interpolation ⟨⟨0, 1, 1⟩, ⟨5, 1, 6⟩⟩ (.access ⟨"x", []⟩),
    .interpolation ⟨⟨5, 1, 6⟩, ⟨7, 1, 8⟩⟩ (.text "  "), .component ⟨⟨7, 1, 8⟩, ⟨11, 1, 12⟩⟩ "A" []]

/-- How the two parts are scanned on their own and together. -/
theorem scans :
    scan front = ⟨[.interpolation 0 5 (.access ⟨"x", []⟩), .text 5 6 " "], none⟩ ∧
    scan back = ⟨[.text 0 1 " ", .leaf ⟨"A", [], 1, 5⟩], none⟩ ∧
    scan (front ++ back) =
      ⟨[.interpolation 0 5 (.access ⟨"x", []⟩), .text 5 7 "  ", .leaf ⟨"A", [], 7, 11⟩], none⟩ := by
  decide +kernel

theorem parse_source : parse "Cmp" (String.ofList (front ++ back)) = .ok nodes := by
  rw [parse, String.toList_ofList, scans.2.2]
  rfl

private theorem cutsText :
    CutsText front back [.interpolation 0 5 (.access ⟨"x", []⟩)] [.leaf ⟨"A", [], 1, 5⟩] 5 1
    " " " " where
  front_eq := congrArg Scan.tokens scans.1
  back_eq := congrArg Scan.tokens scans.2.1
  whole_eq := congrArg Scan.tokens scans.2.2
  decode_eq := decode_append_of_isBlank (by decide) " "

theorem cuts : Cuts front back where
  front_reads := congrArg Scan.failure scans.1
  back_reads := congrArg Scan.failure scans.2.1
  tokens := .inr ⟨_, _, _, _, _, _, cutsText⟩

theorem not_cutsIndentation : ¬CutsIndentation front back := by
  rw [cutsText.cutsIndentation_iff]
  decide

end BesideInterpolation

/-- White space behind an interpolation is kept, in one piece or in two. -/
theorem parse_with_comment_besideInterpolation :
    Cuts BesideInterpolation.front BesideInterpolation.back ∧
      ¬['-', '-', '>'] <:+: BesideInterpolation.note ∧
      parse "Cmp" (String.ofList (BesideInterpolation.front ++ BesideInterpolation.back)) =
        .ok BesideInterpolation.nodes ∧
      ∃ nodes', parse "Cmp" (String.ofList (BesideInterpolation.front ++
          (commentText BesideInterpolation.note ++ BesideInterpolation.back))) = .ok nodes' ∧
        SameContent nodes' BesideInterpolation.nodes := by
  have hnote : ¬['-', '-', '>'] <:+: BesideInterpolation.note := by decide
  obtain ⟨nodes', hparse, hsame⟩ :=
    parse_with_comment BesideInterpolation.cuts hnote BesideInterpolation.parse_source
  exact ⟨BesideInterpolation.cuts, hnote, BesideInterpolation.parse_source, nodes', hparse,
    hsame.2 BesideInterpolation.not_cutsIndentation⟩

namespace BetweenComponents

/-- A component and a blank behind it. -/
def front : List Char := "<A/> ".toList

def back : List Char := " <B/>".toList

def note : List Char := " note ".toList

def component (start : Nat) (name : String) : Node :=
  .component ⟨⟨start, 1, start + 1⟩, ⟨start + 4, 1, start + 5⟩⟩ name []

def blank (start : Nat) : Node :=
  .interpolation ⟨⟨start, 1, start + 1⟩, ⟨start + 1, 1, start + 2⟩⟩ (.text " ")

/-- How the two parts are scanned on their own and together. -/
theorem scans :
    scan front = ⟨[.leaf ⟨"A", [], 0, 4⟩, .text 4 5 " "], none⟩ ∧
    scan back = ⟨[.text 0 1 " ", .leaf ⟨"B", [], 1, 5⟩], none⟩ ∧
    scan (front ++ back) =
      ⟨[.leaf ⟨"A", [], 0, 4⟩, .text 4 6 "  ", .leaf ⟨"B", [], 6, 10⟩], none⟩ := by
  decide +kernel

theorem cuts : Cuts front back where
  front_reads := congrArg Scan.failure scans.1
  back_reads := congrArg Scan.failure scans.2.1
  tokens := .inr ⟨[.leaf ⟨"A", [], 0, 4⟩], [.leaf ⟨"B", [], 1, 5⟩], 4, 1, " ", " ",
    ⟨congrArg Scan.tokens scans.1, congrArg Scan.tokens scans.2.1, congrArg Scan.tokens scans.2.2,
      decode_append_of_isBlank (by decide) " "⟩⟩

theorem parse_source : parse "Cmp" (String.ofList (front ++ back)) =
    .ok [component 0 "A", component 6 "B"] := by
  rw [parse, String.toList_ofList, scans.2.2]
  rfl

/-- With the note between them, the blanks on both sides of it stay. -/
private theorem parse_with_note :
    parse "Cmp" (String.ofList (front ++ (commentText note ++ back))) =
    .ok [component 0 "A", blank 4, blank 18, component 19 "B"] := by
  have hnote : ¬['-', '-', '>'] <:+: note := by decide
  rw [parse, String.toList_ofList, scan_append_of_atTag (congrArg Scan.failure scans.1) rfl,
    scans.1, scan_commentText hnote, scans.2.1]
  rfl

end BetweenComponents

/-- A comment between two components keeps the white space around it. -/
theorem not_sameContent_betweenComponents :
    Cuts BetweenComponents.front BetweenComponents.back ∧
      ¬['-', '-', '>'] <:+: BetweenComponents.note ∧
      ∃ nodes nodes',
        parse "Cmp" (String.ofList (BetweenComponents.front ++ BetweenComponents.back)) =
          .ok nodes ∧
        parse "Cmp" (String.ofList (BetweenComponents.front ++
          (commentText BetweenComponents.note ++ BetweenComponents.back))) = .ok nodes' ∧
        ¬SameContent nodes' nodes := by
  refine ⟨BetweenComponents.cuts, by decide, _, _, BetweenComponents.parse_source,
    BetweenComponents.parse_with_note, fun hsame => ?_⟩
  have hlength : 3 = 2 := congrArg List.length hsame
  cases hlength

end ViewCompiler.Template
