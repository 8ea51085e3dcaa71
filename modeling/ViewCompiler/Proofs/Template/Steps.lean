import ViewCompiler.Proofs.Template.Assembly
import ViewCompiler.Proofs.Template.Extent

/-!
# What a step reads

A step of the reader takes characters off the front of the template: a comment or a declaration,
which leaves no token (`IsRemark`), or what a token is written as (`Token.ReadAt`). This is all that
later proofs have to know of a step (`readAt_of_step`). The tokens of a template that is read
without a failure take it up from its start to its end, with nothing but remarks between them
(`readInTurn_of_scan`).

`Token.ReadAt` says of a token and two cursors what stands between them, in terms of characters: a
text is a run without markup and braces, an interpolation is two pairs of braces around an
expression that is read to its value, a tag starts with its name and its attributes lie within it, a
directive is read from the text between its name and its end, and a closing tag ends with the next
angle bracket. Where a place is part of a token it is the offset of one of these cursors.

`ReadInTurn` puts steps together: from one cursor to another stand tokens that are read one after
the other, and remarks. It has no size and no fuel in it, unlike the scan that it is found from, and
the rest of the theory starts from it. `Template/Tiling` finds in it where the nodes of a template
stand, `Template/Chunks` how the template falls into text and markup, and `Template/WellFormed` what
the nodes are made of.
-/

namespace ViewCompiler.Template

open ViewCompiler.Text

/-! ### Remarks -/

/-- A comment or a declaration, which goes on up to the first place where it can end. -/
inductive IsRemark : List Char → Prop where
  | comment {text : List Char} (h : cut? ['-', '-', '>'] (text ++ ['-', '-', '>']) =
      some (text, [])) :
    IsRemark (['<', '!', '-', '-'] ++ text ++ ['-', '-', '>'])
  | declaration {text : List Char} (hcomment : startsWith ['-', '-'] text = false)
    (h : '>' ∉ text) :
    IsRemark (['<', '!'] ++ text ++ ['>'])

/-- The two braces that close an interpolation. -/
def closeBraces : List Char := ['\x7d', '\x7d']

/-! ### Tokens -/

/-- An attribute and its value start at the offset or behind it. -/
structure Attribute.From (base : Nat) (a : Attribute) : Prop where
  start_le : base ≤ a.start
  value_le : a.value.isSome = true → base ≤ a.valueStart

/-- The tag of an element or a component is written at a cursor, before another one. -/
structure Tag.WrittenAt (c next : Cursor) (t : Tag) : Prop where
  start : t.start = c.offset
  name : ∃ written, c.rest = '<' :: (t.name.toList ++ written) ++ next.rest
  attributes : ∀ a ∈ t.attributes, a.From t.start

/-- The tag of a directive is written at the cursor, and says what its specification does. -/
structure DirectiveTag.WrittenAt (c : Cursor) (t : DirectiveTag) : Prop where
  start : t.start = c.offset
  spec_le : t.start ≤ t.specStart
  read : t.directive.IsReadFrom t.spec

/-- A token is what was read from one cursor to another. -/
def Token.ReadAt (c next : Cursor) : Token → Prop
  | .text start stop raw => start = c.offset ∧ stop = next.offset ∧ c.rest = raw.toList ++ next.rest
  | .interpolation start stop v => start = c.offset ∧ stop = next.offset ∧
    ∃ e, c.rest = openBraces ++ e ++ closeBraces ++ next.rest ∧ readExpression false e = .ok v
  | .opening tag => tag.WrittenAt c next ∧ tag.stop = next.offset ∧ isVoidElement tag.name = false
  | .leaf tag => tag.WrittenAt c next ∧ tag.stop = next.offset
  | .verbatim tag _ _ _ stop =>
    tag.WrittenAt c next ∧ stop = next.offset ∧ isRawTextElement tag.name = true
  | .directive tag _ => tag.WrittenAt c ∧ tag.stop = next.offset
  | .closing name start stop => start = c.offset ∧ stop = next.offset ∧
    ∃ blanks, c.rest = '<' :: '/' :: (name.toList ++ blanks ++ ['>']) ++ next.rest ∧
      ∀ b ∈ blanks, isMarkupSpace b = true

section Readers

variable {size : Nat} {c next : Cursor} {token : Token}

/-! ### Attributes -/

theorem Attribute.From.mono {a : Attribute} {base base' : Nat} (h : a.From base)
    (hle : base' ≤ base) :
    a.From base' :=
  ⟨Nat.le_trans hle h.start_le, fun hvalue => Nat.le_trans hle (h.value_le hvalue)⟩

/-- The value of an attribute starts where the attribute does or later. -/
private theorem from_of_readAttributeValue {tag name : String} {start : Nat} {a : Attribute}
    (hstart : start ≤ c.offset)
    (h : readAttributeValue size tag name start c = .ok (a, next)) : a.From start := by
  unfold readAttributeValue at h
  split at h
  · cases h
  · split at h
    · split at h
      · cases h
      · obtain ⟨rfl, -⟩ := Prod.mk.inj (Except.ok.inj h)
        exact ⟨Nat.le_refl _, fun _ => Nat.le_trans hstart (Nat.le_add_right _ _)⟩
    · split at h
      split at h
      · cases h
      · obtain ⟨rfl, -⟩ := Prod.mk.inj (Except.ok.inj h)
        exact ⟨Nat.le_refl _, fun _ => hstart⟩

private theorem from_of_afterName {tag : String} {name : List Char} {here : Cursor} {a : Attribute}
    (hhere : c.offset ≤ here.offset)
    (h : readAttribute.afterName size tag c name here = .ok (a, next)) : a.From c.offset := by
  have hspace := here.leads_skipSpace
  unfold readAttribute.afterName at h
  simp only at h
  split at h
  · rename_i valued hvalued
    have hvalue := (hspace.trans (Cursor.leads_of_consume? hvalued)).trans valued.leads_skipSpace
    exact from_of_readAttributeValue (Nat.le_trans hhere hvalue.offset_le) h
  · obtain ⟨rfl, -⟩ := Prod.mk.inj (Except.ok.inj h)
    exact ⟨Nat.le_refl _, nofun⟩

/-- An attribute starts at the cursor. -/
private theorem from_of_readAttribute {tag : String} {a : Attribute}
    (h : readAttribute size tag c = .ok (a, next)) : a.From c.offset := by
  unfold readAttribute at h
  split at h
  rename_i name rest _
  have hhere : c.offset ≤ (c.past name rest).offset := Nat.le_add_right _ _
  split at h
  · split at h
    · cases h
    · exact from_of_afterName hhere h
  · exact from_of_afterName hhere h

/-- The attributes of a tag start behind its name. -/
private theorem from_of_readAttributes {start : Nat} {tag : String} (hc : c.Ends size)
    {result : Except Failure (List Attribute × Bool × Cursor)}
    (hresult : readAttributes size start tag c = result) :
    ∀ r, result = .ok r → ∀ a ∈ r.1, a.From c.offset := by
  subst hresult
  have herror : ∀ {base : Nat} {e : Failure} (r : List Attribute × Bool × Cursor),
      (.error e : Except Failure _) = .ok r → ∀ a ∈ r.1, a.From base := by
    intro base e r hr
    cases hr
  have hnil : ∀ {base : Nat} {end_ : Bool × Cursor} (r : List Attribute × Bool × Cursor),
      (.ok ([], end_) : Except Failure _) = .ok r → ∀ a ∈ r.1, a.From base := by
    intro base end_ r hr
    obtain rfl := Except.ok.inj hr
    simp
  fun_induction readAttributes size start tag c with
  | case1 => exact herror
  | case2 => exact hnil
  | case3 => exact hnil
  | case4 => exact herror
  | case5 => exact herror
  | case6 c here hne hopen hself a after hattribute hlt attributes selfClosing last hrest ih =>
    intro r hr
    obtain rfl := Except.ok.inj hr
    obtain ⟨hlead, -, -⟩ := reads_skipSpace_readAttribute hc hne hattribute
    have ha := (from_of_readAttribute hattribute).mono c.leads_skipSpace.offset_le
    exact List.forall_mem_cons.2 ⟨ha, fun a' ha' =>
      (ih (hlead.ends hc) _ hrest a' ha').mono hlead.offset_le⟩
  | case7 c here hne hopen hself a after hattribute hlt =>
    -- The reader always goes on, so it never gives up here.
    obtain ⟨hlead, -, hforward⟩ := reads_skipSpace_readAttribute hc hne hattribute
    exact absurd (hlead.length_lt hforward) hlt

/-! ### Tags -/

/-- A directive is read from the text between its name and its end. -/
private theorem spec_of_readDirective {start : Nat} {name : String} (hstart : start ≤ c.offset)
    (h : readDirective size start name c = .ok (token, next)) :
    ∃ tag selfClosing, token = .directive tag selfClosing ∧ tag.start = start ∧
      tag.stop = next.offset ∧ start ≤ tag.specStart ∧ tag.directive.IsReadFrom tag.spec := by
  have hbody : ∀ read, (∀ spec d, read spec = .ok d → d.IsReadFrom spec) →
      readDirective.body size start name c read = .ok (token, next) →
      ∃ tag selfClosing, token = .directive tag selfClosing ∧ tag.start = start ∧
        tag.stop = next.offset ∧ start ≤ tag.specStart ∧ tag.directive.IsReadFrom tag.spec := by
    intro read hread h
    unfold readDirective.body at h
    split at h
    · cases h
    · simp only at h
      split at h
      · cases h
      · rename_i d hd
        obtain ⟨rfl, rfl⟩ := Prod.mk.inj (Except.ok.inj h)
        exact ⟨_, _, rfl, rfl, rfl, hstart, hread _ _ hd⟩
  unfold readDirective at h
  split at h
  · exact hbody _ (fun _ _ => .inl) h
  · split at h
    · exact hbody _ (fun _ _ => Directive.isReadFrom_of_map) h
    · cases h

/-- The body of a raw text element goes on for as many bytes as stand before its closing tag in the
lower case form of the text. -/
theorem eq_verbatim_of_readRawText {tag : Tag} (h : readRawText size tag c = .ok (token, next)) :
    ∃ before rest body, cut? tag.rawClosing (c.rest.map lowerChar) = some (before, rest) ∧
      token = .verbatim tag c.offset (c.offset + byteLength before) body next.offset := by
  unfold readRawText at h
  simp only at h
  split at h
  · cases h
  · rename_i hcut
    split at h
    · cases h
    · split at h
      · cases h
      · split at h
        · cases h
        · obtain ⟨rfl, rfl⟩ := Prod.mk.inj (Except.ok.inj h)
          exact ⟨_, _, _, hcut, rfl⟩

/-- Raw text leads to what follows its closing tag. -/
private theorem leads_of_readRawText {tag : Tag} (hc : c.Ends size) (htag : tag.Within c.offset)
    (h : readRawText size tag c = .ok (token, next)) : c.Leads next := by
  have hreads := reads_readRawText hc htag
  rw [h] at hreads
  exact hreads.1

/-- Behind its name, a tag goes on up to where the reader does. -/
private theorem exists_written (htag : atTag c.rest = true) (hlead : c.behindTagName.Leads next) :
    ∃ written, c.rest = '<' :: (c.tagName.toList ++ written) ++ next.rest := by
  obtain ⟨d, rest, hrest, -⟩ := exists_of_atTag htag
  obtain ⟨written, hwritten, -⟩ := hlead
  refine ⟨written, ?_⟩
  replace hwritten : (c.rest.drop 1).dropWhile isNameChar = written ++ next.rest := hwritten
  have hname := (List.takeWhile_append_dropWhile (p := isNameChar) (l := c.rest.drop 1)).symm
  rw [hwritten] at hname
  have hcons : c.rest = '<' :: c.rest.drop 1 := by rw [hrest]; rfl
  rw [hcons, hname, Cursor.tagName, String.toList_ofList, hname]
  simp

/-- The token of a tag is one that is read at the cursor. -/
private theorem readAt_of_readTag (hc : c.Ends size) (htag : atTag c.rest = true)
    (h : readTag size c = .ok (token, next)) : token.ReadAt c next := by
  have hhere : c.Leads c.behindTagName := Cursor.leads_behindTagName htag
  unfold readTag at h
  simp only at h
  split at h
  · obtain ⟨tag, selfClosing, rfl, hstart, hstop, hspec, hread⟩ :=
      spec_of_readDirective hhere.offset_le h
    exact ⟨⟨hstart, hstart ▸ hspec, hread⟩, hstop⟩
  · split at h
    · cases h
    · rename_i attributes selfClosing after hread
      obtain ⟨hlead, -, hattributes⟩ :=
        readsAttributes_readAttributes (hhere.ends hc) hhere.offset_le hread
      have hwritten : ∀ next, after.Leads next →
          Tag.WrittenAt c next ⟨c.tagName, attributes, c.offset, after.offset⟩ := by
        refine fun next hnext => ⟨rfl, exists_written htag (hlead.trans hnext), fun a ha => ?_⟩
        exact (from_of_readAttributes (hhere.ends hc) hread _ rfl a ha).mono hhere.offset_le
      split at h
      · obtain ⟨rfl, rfl⟩ := Prod.mk.inj (Except.ok.inj h)
        exact ⟨hwritten _ (.refl _), rfl⟩
      · rename_i hcontent
        split at h
        · rename_i hraw
          have hafter : c.Leads after := hhere.trans hlead
          have hwithin : Tag.Within after.offset ⟨c.tagName, attributes, c.offset, after.offset⟩ :=
            ⟨hafter.offset_le, Nat.le_refl _, hattributes⟩
          have hnext := leads_of_readRawText (hafter.ends hc) hwithin h
          obtain ⟨before, rest, body, -, rfl⟩ := eq_verbatim_of_readRawText h
          exact ⟨hwritten _ hnext, rfl, hraw⟩
        · obtain ⟨rfl, rfl⟩ := Prod.mk.inj (Except.ok.inj h)
          simp only [Bool.or_eq_true, not_or, Bool.not_eq_true] at hcontent
          exact ⟨hwritten _ (.refl _), rfl, hcontent.2⟩

/-! ### Steps -/

/-- The token of a closing tag is one that is read at the cursor. -/
private theorem readAt_of_readClosing {rest : List Char} (hrest : c.rest = ['<', '/'] ++ rest)
    (h : readClosing c = .ok (token, next)) : token.ReadAt c next := by
  unfold readClosing at h
  simp only at h
  split at h
  · cases h
  · rename_i hclose
    obtain ⟨rfl, rfl⟩ := Prod.mk.inj (Except.ok.inj h)
    obtain ⟨behind, hbehind, rfl⟩ := Option.map_eq_some_iff.1 hclose
    obtain ⟨named, hnamed⟩ : ∃ named, named = rest.dropWhile isNameChar := ⟨_, rfl⟩
    have hangle : named.dropWhile isMarkupSpace = ['>'] ++ behind := by
      have hangle := dropPrefix?_eq_some_iff.1 hbehind
      rw [hrest] at hangle
      exact hnamed ▸ hangle
    have hwritten : rest =
        rest.takeWhile isNameChar ++ (named.takeWhile isMarkupSpace ++ (['>'] ++ behind)) := by
      rw [← hangle, List.takeWhile_append_dropWhile, hnamed, List.takeWhile_append_dropWhile]
    refine ⟨rfl, rfl, named.takeWhile isMarkupSpace, ?_, List.all_eq_true.1 List.all_takeWhile⟩
    have hname : (c.past ['<', '/'] (c.rest.drop 2)).rest = rest := by rw [hrest]; rfl
    rw [String.toList_ofList, hname, hrest]
    calc ['<', '/'] ++ rest
        = ['<', '/'] ++
            (rest.takeWhile isNameChar ++
              (named.takeWhile isMarkupSpace ++ (['>'] ++ behind))) := by
          rw [← hwritten]
      _ = _ := by simp [Cursor.past]

/-- The token of an interpolation is one that is read at the cursor. -/
private theorem readAt_of_readInterpolation {rest : List Char} (hrest : c.rest = openBraces ++ rest)
    (h : readInterpolation size c = .ok (token, next)) : token.ReadAt c next := by
  unfold readInterpolation at h
  split at h
  · cases h
  · rename_i e after hcut
    simp only at h
    split at h
    · cases h
    · rename_i v hv
      obtain ⟨rfl, rfl⟩ := Prod.mk.inj (Except.ok.inj h)
      rw [hrest] at hcut
      have heq : rest = e ++ closeBraces ++ after := eq_of_cutInterpolation hcut
      refine ⟨rfl, rfl, e, ?_, hv⟩
      rw [hrest, heq]
      simp [Cursor.past]

/-- A step reads a token, or a remark that leaves none. -/
theorem readAt_of_step {found : Option Token} (hc : c.Ends size)
    (h : step size c = .ok (found, next)) :
    (found = none ∧ ∃ piece, IsRemark piece ∧ c.rest = piece ++ next.rest) ∨
      ∃ token, found = some token ∧ token.ReadAt c next := by
  cases step_eq_ok_iff.1 h with
  | comment hrest hcut =>
    obtain rfl := eq_of_cut?_eq_some hcut
    have hend := cut?_append_needle hcut []
    rw [List.append_nil] at hend
    exact .inl ⟨rfl, _, .comment hend, by rw [hrest]; simp⟩
  | declaration hcomment hrest hcut =>
    rw [hrest] at hcut
    obtain ⟨more, rfl, hmore⟩ := exists_of_cut?_cons (by decide) hcut
    obtain ⟨text, rfl, htext⟩ := exists_of_cut?_cons (by decide) hmore
    obtain rfl := eq_of_cut?_eq_some htext
    refine .inl ⟨rfl, _, .declaration ?_ (notMem_of_cut? htext), by rw [hrest]; simp [Cursor.past]⟩
    refine Bool.eq_false_iff.2 fun hdashes => hcomment ?_
    obtain ⟨more, hmore⟩ := exists_of_startsWith hdashes
    rw [hrest, hmore]
    rfl
  | closing hrest hread => exact .inr ⟨_, rfl, readAt_of_readClosing hrest hread⟩
  | tag hrest hd hread =>
    exact .inr ⟨_, rfl, readAt_of_readTag hc (atTag_of_isNameStart hrest hd) hread⟩
  | interpolation hrest hread => exact .inr ⟨_, rfl, readAt_of_readInterpolation hrest hread⟩
  | text =>
    refine .inr ⟨_, rfl, rfl, rfl, ?_⟩
    rw [String.toList_ofList]
    exact (takeText_append_eq c.rest).symm

end Readers

/-! ### Sequences of tokens -/

/-- Nothing but remarks stands between two cursors. -/
inductive Remarks : Cursor → Cursor → Prop where
  | stay (c : Cursor) : Remarks c c
  | remark {c next last : Cursor} {piece : List Char} (hpiece : IsRemark piece)
    (hrest : c.rest = piece ++ next.rest) (hlead : c.Leads next) (h : Remarks next last) :
    Remarks c last

/-- Tokens are read one after the other, with remarks between and around them. -/
inductive ReadInTurn : Cursor → List Token → Cursor → Prop where
  | done {c last : Cursor} (h : Remarks c last) : ReadInTurn c [] last
  | token {c here next last : Cursor} {token : Token} {tokens : List Token}
    (hbefore : Remarks c here)
    (hread : token.ReadAt here next) (hlead : here.Leads next)
    (hbetween : token.Between here.offset next.offset) (h : ReadInTurn next tokens last) :
    ReadInTurn c (token :: tokens) last

section ReadInTurn

variable {c last : Cursor} {tokens : List Token}

theorem Remarks.leads (h : Remarks c last) : c.Leads last := by
  induction h with
  | stay c => exact .refl c
  | remark _ _ hlead _ ih => exact hlead.trans ih

theorem ReadInTurn.leads (h : ReadInTurn c tokens last) : c.Leads last := by
  induction h with
  | done h => exact h.leads
  | token hbefore _ hlead _ _ ih => exact hbefore.leads.trans (hlead.trans ih)

theorem Tag.WrittenAt.of_leads {next : Cursor} {t : Tag} (h : t.WrittenAt c next)
    (hlead : next.Leads last) : t.WrittenAt c last := by
  obtain ⟨written, hname⟩ := h.name
  obtain ⟨taken, htaken, -⟩ := hlead
  refine ⟨h.start, ⟨written ++ taken, ?_⟩, h.attributes⟩
  rw [hname, htaken]
  simp

/-- A comment or a declaration may stand in front of tokens that are read in turn. -/
theorem ReadInTurn.remark {next : Cursor} {piece : List Char} (hpiece : IsRemark piece)
    (hrest : c.rest = piece ++ next.rest) (hlead : c.Leads next)
    (h : ReadInTurn next tokens last) : ReadInTurn c tokens last := by
  cases h with
  | done h => exact .done (.remark hpiece hrest hlead h)
  | token hbefore hread hlead' hbetween h =>
    exact .token (.remark hpiece hrest hlead hbefore) hread hlead' hbetween h

/-- What is scanned is read in turn. -/
private theorem ReadInTurn.of_scans {size : Nat} (h : Scans size c tokens last) (hc : c.Ends size) :
    ReadInTurn c tokens last := by
  induction h with
  | stay c => exact .done (.stay c)
  | @step c next last found tokens hne hstep _ ih =>
    obtain ⟨hlead, hbetween, -⟩ := of_step_eq_ok hc hstep
    have hmore := ih (hlead.ends hc)
    rcases readAt_of_step hc hstep with ⟨rfl, piece, hpiece, hrest⟩ | ⟨token, rfl, hread⟩
    · exact hmore.remark hpiece hrest hlead
    · exact .token (.stay c) hread hlead (hbetween token rfl) hmore

/-- Of two runs of tokens, the second one is read where the first one ends. -/
theorem ReadInTurn.exists_of_append {before after : List Token}
    (h : ReadInTurn c (before ++ after) last) :
    ∃ middle, ReadInTurn c before middle ∧ ReadInTurn middle after last := by
  induction before generalizing c with
  | nil => exact ⟨c, .done (.stay c), h⟩
  | cons token before ih =>
    cases h with
    | token hbefore hread hlead hbetween h =>
      obtain ⟨middle, hmiddle, hafter⟩ := ih h
      exact ⟨middle, .token hbefore hread hlead hbetween hmiddle, hafter⟩

/-- Every token that is read in turn is read at some cursor. -/
theorem ReadInTurn.exists_readAt (h : ReadInTurn c tokens last) :
    ∀ t ∈ tokens, ∃ here next, t.ReadAt here next := by
  induction h with
  | done => simp
  | token _ hread _ _ _ ih => exact List.forall_mem_cons.2 ⟨⟨_, _, hread⟩, ih⟩

end ReadInTurn

/-- Where nothing fails the tokens are read up to the end. -/
theorem exists_scans_end {size : Nat} {c : Cursor} (hc : c.Ends size)
    (h : (scanFrom size c).failure = none) :
    ∃ last, Scans size c (scanFrom size c).tokens last ∧ last.rest = [] := by
  fun_induction scanFrom size c with
  | case1 c hnil => exact ⟨c, .stay c, by simpa using hnil⟩
  | case2 => cases h
  | case3 c hne token next hstep hlt scan ih =>
    obtain ⟨hlead, -, -⟩ := of_step_eq_ok hc hstep
    obtain ⟨last, hscans, hnil⟩ := ih (hlead.ends hc) h
    exact ⟨last, .step (by simpa using hne) hstep hscans, hnil⟩
  | case4 c hne token next hstep hlt =>
    exact absurd (shortens_step size c hc (by simpa using hne) token next hstep) hlt

/-- The tokens of a template take it up from its start to its end. -/
theorem readInTurn_of_scan {source : List Char} (h : (scan source).failure = none) :
    ∃ last, ReadInTurn ⟨source, 0⟩ (scan source).tokens last ∧ last.rest = [] := by
  have hstart : Cursor.Ends (byteLength source) ⟨source, 0⟩ := Nat.zero_add _
  obtain ⟨last, hscans, hnil⟩ := exists_scans_end hstart h
  exact ⟨last, .of_scans hscans hstart, hnil⟩

end ViewCompiler.Template
