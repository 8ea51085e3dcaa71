import ViewCompiler.Proofs.Template.Shift
import ViewCompiler.Proofs.Template.Steps
import ViewCompiler.Proofs.Text.Pieces

/-!
# Templates before other text

A reader looks no further than it has to: what it reads from a piece of text is what it reads there
when more text follows, as long as it stops before the end of the piece or what follows cannot be
taken for more of the same. Before markup this is so for every step (`step_followedBy`). So a
template that can be read on its own is read to the same tokens in front of a closing tag or a
comment, wherever it stands (`scanFrom_between`).

A reader that stops at a character stops there whatever comes later. What needs a proof is that it
would not have stopped at all without the end of the text: such a reader leaves nothing behind, and
the lemmas exclude that by asking that something is left. For what looks at more than one character
there is `IsLocal`: whether a text stops the reader is told from as many of its characters as the
text has in any case.

The size of the template is an argument of the readers, because a fault may be placed at its end,
and raw text is refused when its end is told to lie behind it. What is read without a fault does not
depend on it, and where more text follows raw text does not overrun if it did not before; so the
size may be any that is not smaller.

Together with `Template/Shift` this gives what later proofs use: a piece that can be read on its own
is read in the same way in the middle of a template.
-/

namespace ViewCompiler.Template

open ViewCompiler.Text

/-! ### Characters -/

/-- A text that is as long as a prefix and does not start with it never does. -/
private theorem dropPrefix?_append_eq_none {pre cs : List Char} (h : dropPrefix? pre cs = none)
    (hlength : pre.length ≤ cs.length) (more : List Char) :
    dropPrefix? pre (cs ++ more) = none := by
  refine Option.eq_none_iff_forall_ne_some.2 fun rest hrest => ?_
  have hprefix : pre <+: cs ++ more := ⟨rest, (dropPrefix?_eq_some_iff.1 hrest).symm⟩
  obtain ⟨after, hafter⟩ := List.prefix_of_prefix_length_le hprefix (List.prefix_append _ _) hlength
  rw [dropPrefix?_eq_some_iff.2 hafter.symm] at h
  cases h

/-- A place where something stops can be told from its character, the next one, and from whether
there is one. -/
structure IsLocal (stops : List Char → Bool) : Prop where
  next : ∀ c d cs more, stops (c :: d :: (cs ++ more)) = stops (c :: d :: cs)
  last : ∀ c more, stops [c] = true → stops (c :: more) = true

/-- Where something stops a text, more text behind it changes nothing. -/
theorem takeUntil_followed {stops : List Char → Bool} (hstops : IsLocal stops) {cs : List Char}
    (h : (takeUntil stops cs).2 ≠ []) (more : List Char) :
    takeUntil stops (cs ++ more) = ((takeUntil stops cs).1, (takeUntil stops cs).2 ++ more) := by
  induction cs with
  | nil => exact absurd rfl h
  | cons c cs ih =>
    rw [List.cons_append, takeUntil, takeUntil]
    rw [takeUntil] at h
    by_cases hhere : stops (c :: cs) = true
    · rw [if_pos hhere, if_pos]
      · rfl
      · cases cs with
        | nil => exact hstops.last c more hhere
        | cons d cs => exact (hstops.next c d cs more).trans hhere
    · rw [if_neg hhere] at h ⊢
      cases cs with
      | nil => exact absurd rfl h
      | cons d cs => rw [List.cons_append, hstops.next, if_neg hhere, ← List.cons_append, ih h]

/-- What ends a value without quotes is told from its first characters. -/
private theorem isLocal_endsUnquoted : IsLocal endsUnquoted where
  next _ _ _ _ := rfl
  last c more h := by
    simp only [endsUnquoted, Bool.or_eq_true, Bool.and_eq_true] at h ⊢
    rcases h with h | ⟨-, h⟩
    · exact .inl h
    · cases h

/-- What ends the name of an attribute is told from its first characters. -/
private theorem isLocal_endsAttributeName :
    IsLocal fun cs => endsAttributeName cs || cs.head?.any isForbiddenInName where
  next _ _ _ _ := rfl
  last c more h := by
    simp only [endsAttributeName, Bool.or_eq_true, Bool.and_eq_true, List.head?_cons] at h ⊢
    rcases h with (h | ⟨-, h⟩) | h
    · exact .inl (.inl h)
    · cases h
    · exact .inr h

/-- Where an interpolation is closed, more text behind it changes nothing. -/
private theorem cutInterpolation_followed {state : Quoting} {cs before after : List Char}
    (h : cutInterpolation state cs = some (before, after)) (more : List Char) :
    cutInterpolation state (cs ++ more) = some (before, after ++ more) := by
  induction cs generalizing state before with
  | nil => cases h
  | cons c cs ih =>
    rw [cutInterpolation] at h
    rw [List.cons_append, cutInterpolation]
    split at h
    · rename_i hhere
      obtain ⟨rfl, rfl⟩ := Prod.mk.inj (Option.some.inj h)
      cases cs with
      | nil => simp at hhere
      | cons d cs =>
        rw [if_pos (by simpa using hhere)]
        rfl
    · rename_i hhere
      obtain ⟨⟨b, a⟩, hcut, heq⟩ := Option.map_eq_some_iff.1 h
      obtain ⟨rfl, rfl⟩ := Prod.mk.inj heq
      cases cs with
      | nil => cases hcut
      | cons d cs =>
        rw [if_neg (by simpa using hhere), ih hcut]
        rfl

/-- Of a text that has so many bytes, what is cut off does not depend on what follows. -/
theorem cutBytes_followed {n : Nat} {cs : List Char} (h : n ≤ byteLength cs) (more : List Char) :
    cutBytes n (cs ++ more) = ((cutBytes n cs).1, (cutBytes n cs).2.map (· ++ more)) := by
  fun_induction cutBytes n cs with
  | case1 cs =>
    rw [cutBytes]
    rfl
  | case2 n => exact absurd h (Nat.not_succ_le_zero n)
  | case3 n c cs hfits taken rest hcut ih =>
    rw [byteLength] at h
    rw [List.cons_append, cutBytes, if_pos hfits, ih (by omega), hcut]
  | case4 n c cs hfits =>
    rw [List.cons_append, cutBytes, if_neg hfits]
    rfl

/-! ### Cursors -/

/-- The same place, when more text follows. -/
def Cursor.followedBy (more : List Char) (c : Cursor) : Cursor := { c with rest := c.rest ++ more }

section Readers

variable {size : Nat} {c next : Cursor} (more : List Char)

@[simp]
theorem Cursor.rest_followedBy : (c.followedBy more).rest = c.rest ++ more := rfl

@[simp]
theorem Cursor.offset_followedBy : (c.followedBy more).offset = c.offset := rfl

/-- Skipping that stops before the end stops there whatever follows. -/
theorem Cursor.skipWhile_followedBy {p : Char → Bool} (h : (c.skipWhile p).rest ≠ []) :
    (c.rest ++ more).takeWhile p = c.rest.takeWhile p ∧
      (c.followedBy more).skipWhile p = (c.skipWhile p).followedBy more := by
  have hdrop : c.rest.dropWhile p ≠ [] := h
  have htake : (c.rest ++ more).takeWhile p = c.rest.takeWhile p := by
    rw [List.takeWhile_append, if_neg]
    intro hlength
    refine hdrop (List.dropWhile_eq_nil_iff.2 (List.takeWhile_eq_self_iff.1 ?_))
    exact (List.takeWhile_prefix p).eq_of_length hlength
  refine ⟨htake, ?_⟩
  rw [Cursor.skipWhile, Cursor.rest_followedBy, htake, List.dropWhile_append,
    if_neg (by simpa using hdrop)]
  rfl

private theorem Cursor.skipSpace_followedBy (h : c.skipSpace.rest ≠ []) :
    (c.followedBy more).skipSpace = c.skipSpace.followedBy more :=
  (c.skipWhile_followedBy more h).2

/-- What a cursor starts with it starts with whatever follows. -/
theorem Cursor.consume?_followedBy {s : List Char} (h : c.consume? s = some next) :
    (c.followedBy more).consume? s = some (next.followedBy more) := by
  obtain ⟨rest, hrest, rfl⟩ := Option.map_eq_some_iff.1 h
  have hmore : dropPrefix? s (c.rest ++ more) = some (rest ++ more) := by
    rw [dropPrefix?_eq_some_iff.1 hrest, List.append_assoc]
    exact dropPrefix?_eq_some_iff.2 rfl
  rw [Cursor.consume?, Cursor.rest_followedBy, hmore]
  rfl

/-- What a long enough cursor does not start with it never does. -/
theorem Cursor.consume?_followedBy_eq_none {s : List Char} (h : c.consume? s = none)
    (hlength : s.length ≤ c.rest.length) : (c.followedBy more).consume? s = none := by
  rw [Cursor.consume?, Option.map_eq_none_iff] at h ⊢
  exact dropPrefix?_append_eq_none h hlength more

private theorem Cursor.rest_ne_nil_of_consume? {d : Char} {s : List Char}
    (h : c.consume? (d :: s) = some next) : c.rest ≠ [] := by
  intro hnil
  rw [Cursor.consume?, hnil] at h
  cases h

private theorem Cursor.rest_ne_nil_of_skipWhile {p : Char → Bool} (h : (c.skipWhile p).rest ≠ []) :
    c.rest ≠ [] := by
  intro hnil
  refine h ?_
  rw [Cursor.skipWhile, hnil]
  rfl

/-! ### Attributes -/

/-- The value of an attribute is read alike whatever follows, if something followed it anyway. -/
private theorem readAttributeValue_followedBy {tag name : String} {start : Nat} {a : Attribute}
    (h : readAttributeValue size tag name start c = .ok (a, next)) (hnext : next.rest ≠ [])
    (size' : Nat) (tag' : String) :
    readAttributeValue size' tag' name start (c.followedBy more) =
      .ok (a, next.followedBy more) := by
  unfold readAttributeValue at h
  split at h
  · cases h
  · rename_i q rest hrest
    unfold readAttributeValue
    simp only [Cursor.rest_followedBy, hrest, List.cons_append]
    split at h
    · rename_i hquote
      split at h
      · cases h
      · rename_i value after hcut
        obtain ⟨rfl, rfl⟩ := Prod.mk.inj (Except.ok.inj h)
        rw [if_pos hquote, cut?_append_text hcut more]
        rfl
    · rename_i hquote
      simp only at h
      split at h
      · cases h
      · rename_i hvalue
        obtain ⟨rfl, rfl⟩ := Prod.mk.inj (Except.ok.inj h)
        have hafter : (takeUntil endsUnquoted c.rest).2 ≠ [] := hnext
        have htake := takeUntil_followed isLocal_endsUnquoted hafter more
        rw [hrest] at htake hvalue
        rw [if_neg hquote, ← List.cons_append, htake, if_neg hvalue, hrest]
        rfl

/-- What follows the name of an attribute is read alike whatever follows it. -/
private theorem afterName_followedBy {tag : String} {name : List Char} {here : Cursor}
    {a : Attribute}
    (h : readAttribute.afterName size tag c name here = .ok (a, next)) (hnext : next.rest ≠ [])
    (size' : Nat) (tag' : String) :
    readAttribute.afterName size' tag' (c.followedBy more) name (here.followedBy more) =
      .ok (a, next.followedBy more) := by
  -- Whether a value follows or not, the reader has seen a character behind the name.
  have hspace : here.skipSpace.rest ≠ [] := by
    intro hnil
    unfold readAttribute.afterName at h
    simp only at h
    split at h
    · rename_i valued hvalued
      exact Cursor.rest_ne_nil_of_consume? hvalued hnil
    · obtain ⟨-, rfl⟩ := Prod.mk.inj (Except.ok.inj h)
      exact hnext hnil
  unfold readAttribute.afterName at h ⊢
  simp only [here.skipSpace_followedBy more hspace] at h ⊢
  split at h
  · rename_i valued hvalued
    have hvalue : valued.skipSpace.rest ≠ [] := by
      intro hnil
      unfold readAttributeValue at h
      rw [hnil] at h
      cases h
    rw [Cursor.consume?_followedBy more hvalued]
    simp only [valued.skipSpace_followedBy more hvalue]
    exact readAttributeValue_followedBy more h hnext size' tag'
  · rename_i hnone
    obtain ⟨rfl, rfl⟩ := Prod.mk.inj (Except.ok.inj h)
    have hlength : ['='].length ≤ here.skipSpace.rest.length := List.length_pos_iff.2 hspace
    rw [Cursor.consume?_followedBy_eq_none more hnone hlength]
    rfl

/-- An attribute that does not end with the text is the same when more follows. -/
private theorem readAttribute_followedBy {tag : String} {a : Attribute}
    (h : readAttribute size tag c = .ok (a, next)) (hnext : next.rest ≠ []) (size' : Nat)
    (tag' : String) :
    readAttribute size' tag' (c.followedBy more) = .ok (a, next.followedBy more) := by
  obtain ⟨name, hname⟩ : ∃ name, (takeUntil (fun cs => endsAttributeName cs ||
      cs.head?.any isForbiddenInName) c.rest).1 = name := ⟨_, rfl⟩
  have hrest : (takeUntil (fun cs => endsAttributeName cs ||
      cs.head?.any isForbiddenInName) c.rest).2 ≠ [] := by
    intro hnil
    unfold readAttribute at h
    simp only [hnil] at h
    unfold readAttribute.afterName at h
    obtain ⟨-, rfl⟩ := Prod.mk.inj (Except.ok.inj h)
    exact hnext rfl
  have htake := takeUntil_followed isLocal_endsAttributeName hrest more
  obtain ⟨d, rest, hcons⟩ := List.exists_cons_of_ne_nil hrest
  unfold readAttribute at h ⊢
  simp only [Cursor.rest_followedBy, htake, hcons, List.cons_append] at h ⊢
  split at h
  · cases h
  · rename_i hexpected
    rw [if_neg hexpected]
    exact afterName_followedBy more h hnext size' tag'

/-- A slash and an angle bracket end the attributes of a tag that closes itself. -/
private theorem readAttributes_of_selfClosing {start : Nat} {tag : String} {after : Cursor}
    (h : c.skipSpace.consume? ['/', '>'] = some after) :
    readAttributes size start tag c = .ok ([], true, after) := by
  have hne := Cursor.rest_ne_nil_of_consume? h
  rw [readAttributes]
  simp only [List.isEmpty_iff, hne, if_false, h]

/-- An angle bracket ends the attributes of a tag. -/
private theorem readAttributes_of_close {start : Nat} {tag : String} {after : Cursor}
    (hself : c.skipSpace.consume? ['/', '>'] = none) (h : c.skipSpace.consume? ['>'] = some after) :
    readAttributes size start tag c = .ok ([], false, after) := by
  have hne := Cursor.rest_ne_nil_of_consume? h
  rw [readAttributes]
  simp only [List.isEmpty_iff, hne, if_false, hself, h]

/-- Where a tag does not end, its next attribute is read and then the others. -/
private theorem readAttributes_of_readAttribute {start : Nat} {tag : String} {a : Attribute}
    (hne : c.skipSpace.rest ≠ []) (hself : c.skipSpace.consume? ['/', '>'] = none)
    (hclose : c.skipSpace.consume? ['>'] = none)
    (h : readAttribute size tag c.skipSpace = .ok (a, next))
    (hlt : next.rest.length < c.rest.length) :
    readAttributes size start tag c =
      (readAttributes size start tag next).map fun r => (a :: r.1, r.2) := by
  rw [readAttributes]
  simp only [List.isEmpty_iff, hne, if_false, hself, hclose, h, hlt, if_true]
  cases readAttributes size start tag next with
  | error e => rfl
  | ok r => rfl

/-- The attributes of a tag are never at the end of a template. -/
theorem rest_ne_nil_of_readAttributes {start : Nat} {tag : String}
    {r : List Attribute × Bool × Cursor} (h : readAttributes size start tag c = .ok r) :
    c.rest ≠ [] := by
  have hspace : c.skipSpace.rest ≠ [] := by
    intro hnil
    rw [readAttributes] at h
    simp only [hnil, List.isEmpty_nil, if_true] at h
    cases h
  exact Cursor.rest_ne_nil_of_skipWhile hspace

/-- The attributes of a tag do not depend on what follows it. -/
theorem readAttributes_followedBy {start : Nat} {tag : String} (hc : c.Ends size)
    {result : Except Failure (List Attribute × Bool × Cursor)}
    (hresult : readAttributes size start tag c = result) (size' start' : Nat) (tag' : String) :
    ∀ attributes selfClosing last, result = .ok (attributes, selfClosing, last) →
      readAttributes size' start' tag' (c.followedBy more) =
        .ok (attributes, selfClosing, last.followedBy more) := by
  subst hresult
  fun_induction readAttributes size start tag c with
  | case1 => rintro _ _ _ ⟨⟩
  | case2 c here hne after hself =>
    rintro _ _ _ ⟨⟩
    have hspace := c.skipSpace_followedBy more (by simpa using hne)
    exact readAttributes_of_selfClosing (hspace ▸ Cursor.consume?_followedBy more hself)
  | case3 c here hne after hclose hself =>
    rintro _ _ _ ⟨⟩
    have hspace := c.skipSpace_followedBy more (by simpa using hne)
    refine readAttributes_of_close ?_ (hspace ▸ Cursor.consume?_followedBy more hclose)
    obtain ⟨rest, hrest, -⟩ := Option.map_eq_some_iff.1 hclose
    have hangle : c.skipSpace.rest = '>' :: rest := dropPrefix?_eq_some_iff.1 hrest
    rw [hspace, Cursor.consume?, Cursor.rest_followedBy, hangle]
    rfl
  | case4 => rintro _ _ _ ⟨⟩
  | case5 => rintro _ _ _ ⟨⟩
  | case6 c here hne hclose hself a after hattribute hlt attributes selfClosing last hrest ih =>
    rintro _ _ _ ⟨⟩
    obtain ⟨hlead, -, -⟩ := reads_skipSpace_readAttribute hc hne hattribute
    have hmore := ih (hlead.ends hc) _ _ _ hrest
    have hafter := rest_ne_nil_of_readAttributes hrest
    have hne : c.skipSpace.rest ≠ [] := by simpa using hne
    have hspace := c.skipSpace_followedBy more hne
    -- An attribute that leaves something stands before two characters at least.
    have hshort :=
      shortens_readAttribute size tag here (c.leads_skipSpace.ends hc) hne a after hattribute
    have hlength : 2 ≤ here.rest.length :=
      Nat.le_trans (Nat.succ_le_succ (List.length_pos_iff.2 hafter)) hshort
    rw [readAttributes_of_readAttribute, hmore]
    · rfl
    · rw [hspace]
      simp [hne]
    · rw [hspace]
      exact Cursor.consume?_followedBy_eq_none more hself hlength
    · rw [hspace]
      exact Cursor.consume?_followedBy_eq_none more hclose (Nat.le_of_succ_le hlength)
    · rw [hspace]
      exact readAttribute_followedBy more hattribute hafter size' tag'
    · simpa using hlt
  | case7 c here hne hopen hself a after hattribute hlt =>
    -- The reader always goes on, so it never gives up here.
    obtain ⟨hlead, -, hforward⟩ := reads_skipSpace_readAttribute hc hne hattribute
    exact absurd (hlead.length_lt hforward) hlt

/-! ### Raw text -/

/-- What the body of a raw text element is read from: the place of the closing tag in the lower case
form, and what follows as many bytes of the text as there are up to its end. -/
theorem readRawText_eq_ok_iff {tag : Tag} {token : Token} :
    readRawText size tag c = .ok (token, next) ↔ ∃ before rest after,
      cut? tag.rawClosing (c.rest.map lowerChar) = some (before, rest) ∧
      c.offset + byteLength before + byteLength tag.rawClosing ≤ size ∧
      (cutBytes (byteLength before + byteLength tag.rawClosing) c.rest).2 = some after ∧
      (Cursor.skipSpace ⟨after, c.offset + byteLength before + byteLength tag.rawClosing⟩).consume?
        ['>'] =
        some next ∧
      token = .verbatim tag c.offset (c.offset + byteLength before)
        (String.ofList (cutBytes (byteLength before) c.rest).1) next.offset := by
  unfold readRawText Tag.rawClosing
  simp only
  split
  · rename_i hcut
    simp [hcut]
  · rename_i before rest hcut
    -- The three other ways out fail, and each contradicts one of the facts on the right.
    simp only [hcut, Option.some.injEq, Prod.mk.injEq]
    split
    · rename_i hover
      refine iff_of_false nofun ?_
      rintro ⟨_, _, _, ⟨rfl, rfl⟩, hfits, -⟩
      exact absurd hover (Nat.not_lt.2 hfits)
    · rename_i hfits
      split
      · rename_i hnone
        refine iff_of_false nofun ?_
        rintro ⟨_, _, _, ⟨rfl, rfl⟩, -, hsome, -⟩
        simp [hnone] at hsome
      · rename_i after hsome
        split
        · rename_i hnone
          refine iff_of_false nofun ?_
          rintro ⟨_, _, _, ⟨rfl, rfl⟩, -, hafter, hclose, -⟩
          rw [hsome] at hafter
          obtain rfl := Option.some.inj hafter
          rw [hnone] at hclose
          cases hclose
        · rename_i last hclose
          constructor
          · rintro ⟨⟩
            exact ⟨_, _, after, ⟨rfl, rfl⟩, Nat.not_lt.1 hfits, by rw [hsome], hclose, rfl⟩
          · rintro ⟨_, _, _, ⟨rfl, rfl⟩, -, hafter, hclose', rfl⟩
            rw [hsome] at hafter
            obtain rfl := Option.some.inj hafter
            obtain rfl := Option.some.inj (hclose.symm.trans hclose')
            rfl

/-- A raw text element that ends within the text is the same when more follows. -/
private theorem readRawText_followedBy {tag : Tag} {token : Token} (hc : c.Ends size)
    (h : readRawText size tag c = .ok (token, next)) {size' : Nat} (hsize : size ≤ size') :
    readRawText size' tag (c.followedBy more) = .ok (token, next.followedBy more) := by
  obtain ⟨before, rest, after, hcut, hfits, hafter, hclose, rfl⟩ := readRawText_eq_ok_iff.1 h
  have hfound := cut?_append_text hcut (more.map lowerChar)
  rw [← List.map_append] at hfound
  rw [Cursor.Ends] at hc
  have hspace := Cursor.rest_ne_nil_of_consume? hclose
  have hbody := cutBytes_followed (show byteLength before ≤ byteLength c.rest by omega) more
  have hclosing := cutBytes_followed
    (show byteLength before + byteLength tag.rawClosing ≤ byteLength c.rest by omega) more
  refine readRawText_eq_ok_iff.2 ⟨before, _, after ++ more, hfound, Nat.le_trans hfits hsize, ?_,
    ?_, ?_⟩
  · rw [Cursor.rest_followedBy, hclosing, hafter]
    rfl
  · have hmore := Cursor.skipSpace_followedBy more hspace
    exact hmore ▸ Cursor.consume?_followedBy more hclose
  · rw [Cursor.rest_followedBy, hbody]
    rfl

/-! ### Tags -/

/-- A directive that is read is read alike whatever follows. -/
private theorem readDirective_followedBy {start : Nat} {name : String} {token : Token}
    (h : readDirective size start name c = .ok (token, next)) (size' : Nat) :
    readDirective size' start name (c.followedBy more) = .ok (token, next.followedBy more) := by
  have hbody : ∀ read, readDirective.body size start name c read = .ok (token, next) →
      readDirective.body size' start name (c.followedBy more) read =
        .ok (token, next.followedBy more) := by
    intro read h
    unfold readDirective.body at h ⊢
    split at h
    · cases h
    · rename_i raw rest hcut
      rw [Cursor.rest_followedBy, cut?_append_text hcut more]
      simp only at h ⊢
      split at h
      · cases h
      · obtain ⟨rfl, rfl⟩ := Prod.mk.inj (Except.ok.inj h)
        rfl
  unfold readDirective at h ⊢
  split at h
  · rename_i hname
    rw [if_pos hname]
    exact hbody _ h
  · rename_i hif
    rw [if_neg hif]
    split at h
    · rename_i hname
      rw [if_pos hname]
      exact hbody _ h
    · cases h

/-- A tag is a directive by its name, or its attributes are read and then its end. -/
theorem readTag_eq : readTag size c =
    if hasPrefix "w:" c.tagName then readDirective size c.offset c.tagName c.behindTagName
    else match readAttributes size c.offset c.tagName c.behindTagName with
      | .error e => .error e
      | .ok (attributes, selfClosing, after) =>
        let tag : Tag := ⟨c.tagName, attributes, c.offset, after.offset⟩
        if selfClosing || isVoidElement c.tagName then .ok (.leaf tag, after)
        else if isRawTextElement c.tagName then readRawText size tag after
        else .ok (.opening tag, after) := rfl

private theorem rest_ne_nil_of_readDirective {start : Nat} {name : String} {token : Token}
    (h : readDirective size start name c = .ok (token, next)) : c.rest ≠ [] := by
  intro hnil
  have hbody : ∀ read, readDirective.body size start name c read ≠ .ok (token, next) := by
    intro read hread
    rw [readDirective.body, hnil] at hread
    cases hread
  unfold readDirective at h
  split at h
  · exact hbody _ h
  · split at h
    · exact hbody _ h
    · cases h

/-- The tag of an element or a directive is the same when more follows. -/
private theorem readTag_followedBy {token : Token} (hc : c.Ends size) (htag : atTag c.rest = true)
    (h : readTag size c = .ok (token, next)) {size' : Nat} (hsize : size ≤ size') :
    readTag size' (c.followedBy more) = .ok (token, next.followedBy more) := by
  have hends : c.behindTagName.Ends size := (Cursor.leads_behindTagName htag).ends hc
  obtain ⟨d, rest, hcons, -⟩ := exists_of_atTag htag
  have hdrop : (c.rest ++ more).drop 1 = c.rest.drop 1 ++ more := by
    rw [hcons]
    rfl
  -- The name has ended before the text has, or nothing would be read behind it.
  have hbehind : c.behindTagName.rest ≠ [] := by
    rw [readTag_eq] at h
    split at h
    · exact rest_ne_nil_of_readDirective h
    · split at h
      · cases h
      · rename_i hread
        exact rest_ne_nil_of_readAttributes hread
  obtain ⟨hname, hhere⟩ := Cursor.skipWhile_followedBy more hbehind
  have hname : (c.followedBy more).tagName = c.tagName := by
    rw [Cursor.tagName, Cursor.rest_followedBy, hdrop]
    exact congrArg String.ofList hname
  have hhere : (c.followedBy more).behindTagName = c.behindTagName.followedBy more := by
    rw [Cursor.behindTagName, Cursor.rest_followedBy, hdrop]
    exact hhere
  rw [readTag_eq] at h ⊢
  rw [hname, hhere, Cursor.offset_followedBy]
  split at h
  · rename_i hdirective
    rw [if_pos hdirective]
    exact readDirective_followedBy more h size'
  · rename_i hdirective
    rw [if_neg hdirective]
    split at h
    · cases h
    · rename_i attributes selfClosing after hread
      have hmore := readAttributes_followedBy more hends hread size' c.offset c.tagName _ _ _ rfl
      have hlead := (readsAttributes_readAttributes hends
        (Cursor.leads_behindTagName htag).offset_le hread).1
      simp only [hmore, Cursor.offset_followedBy] at h ⊢
      split at h
      · rename_i hleaf
        obtain ⟨rfl, rfl⟩ := Prod.mk.inj (Except.ok.inj h)
        rw [if_pos hleaf]
      · rename_i hleaf
        rw [if_neg hleaf]
        split at h
        · rename_i hraw
          rw [if_pos hraw]
          exact readRawText_followedBy more (hlead.ends hends) h hsize
        · rename_i hraw
          obtain ⟨rfl, rfl⟩ := Prod.mk.inj (Except.ok.inj h)
          rw [if_neg hraw]

/-- A closing tag that is read is read alike whatever follows. -/
private theorem readClosing_followedBy {token : Token} {rest : List Char}
    (hrest : c.rest = '<' :: '/' :: rest)
    (h : readClosing c = .ok (token, next)) :
    readClosing (c.followedBy more) = .ok (token, next.followedBy more) := by
  have hdrop : (c.rest ++ more).drop 2 = c.rest.drop 2 ++ more := by
    rw [hrest]
    rfl
  unfold readClosing at h ⊢
  simp only at h
  split at h
  · cases h
  · rename_i after hclose
    obtain ⟨rfl, rfl⟩ := Prod.mk.inj (Except.ok.inj h)
    have hspace := Cursor.rest_ne_nil_of_consume? hclose
    obtain ⟨hname, hhere⟩ :=
      Cursor.skipWhile_followedBy more (Cursor.rest_ne_nil_of_skipWhile hspace)
    have hmore := Cursor.consume?_followedBy more hclose
    rw [← Cursor.skipSpace_followedBy more hspace, ← hhere] at hmore
    have hinner : (c.followedBy more).past ['<', '/'] ((c.rest ++ more).drop 2) =
        (c.past ['<', '/'] (c.rest.drop 2)).followedBy more := by
      rw [hdrop]
      rfl
    simp only [Cursor.rest_followedBy, hinner, hmore]
    rw [hname]
    rfl

/-- An interpolation that is read is read alike whatever follows. -/
private theorem readInterpolation_followedBy {token : Token} {rest : List Char}
    (hrest : c.rest = openBraces ++ rest) (h : readInterpolation size c = .ok (token, next))
    (size' : Nat) :
    readInterpolation size' (c.followedBy more) = .ok (token, next.followedBy more) := by
  have hdrop : (c.rest ++ more).drop 2 = c.rest.drop 2 ++ more := by
    rw [hrest]
    rfl
  unfold readInterpolation at h ⊢
  split at h
  · cases h
  · rename_i e after hcut
    rw [Cursor.rest_followedBy, hdrop, cutInterpolation_followed hcut more]
    simp only at h ⊢
    split at h
    · cases h
    · obtain ⟨rfl, rfl⟩ := Prod.mk.inj (Except.ok.inj h)
      rfl

end Readers

/-! ### Steps -/

/-- Markup that is not there does not come to be there when other markup follows. -/
theorem not_atTag_append {cs : List Char} (hne : cs ≠ [])
    (h : (atTag cs || startsWith openBraces cs) = false) {more : List Char}
    (hmore : atTag more = true) :
    (atTag (cs ++ more) || startsWith openBraces (cs ++ more)) = false := by
  obtain ⟨d, rest, rfl, -⟩ := exists_of_atTag hmore
  match cs, hne with
  | [c], _ =>
    by_cases hc : '<' = c
    · subst hc
      rfl
    · rw [List.singleton_append, not_atTag_cons hc]
      simp [startsWith, openBraces, dropPrefix?]
  | c :: d :: cs, _ =>
    by_cases hc : '<' = c
    · subst hc
      exact h
    · rw [not_atTag_cons hc] at h
      rw [List.cons_append, not_atTag_cons hc]
      simpa [startsWith, openBraces, dropPrefix?, apply_ite] using h

private theorem startsWith_append {pre cs : List Char} (h : startsWith pre cs = true)
    (more : List Char) :
    startsWith pre (cs ++ more) = true := by
  obtain ⟨rest, rfl⟩ := exists_of_startsWith h
  rw [List.append_assoc, startsWith, dropPrefix?_eq_some_iff.2 rfl]
  rfl

/-- Text is taken alike whatever markup follows it. -/
private theorem takeText_followed (cs : List Char) {more : List Char} (hmore : atTag more = true) :
    takeText (cs ++ more) = ((takeText cs).1, (takeText cs).2 ++ more) := by
  induction cs with
  | nil => exact Starts.of_atTag hmore
  | cons c cs ih =>
    rw [List.cons_append, takeText, takeText]
    cases hhere : atTag (c :: cs) || startsWith openBraces (c :: cs) with
    | false =>
      have hnone := not_atTag_append (List.cons_ne_nil c cs) hhere hmore
      rw [List.cons_append] at hnone
      rw [hnone, ih]
      rfl
    | true =>
      have hsome : (atTag (c :: cs ++ more) || startsWith openBraces (c :: cs ++ more)) = true := by
        rcases Bool.or_eq_true_iff.1 hhere with htag | hbraces
        · obtain ⟨d, rest, hcons, -⟩ := exists_of_atTag htag
          rw [hcons] at htag ⊢
          rw [show atTag ('<' :: d :: rest ++ more) = true from htag]
          rfl
        · rw [startsWith_append hbraces, Bool.or_true]
      rw [List.cons_append] at hsome
      rw [hsome]
      rfl

/-- A declaration that ends within a text is no comment when more follows. -/
private theorem not_startsWith_comment {cs declaration rest : List Char}
    (hcut : cut? ['>'] cs = some (declaration, rest))
    (h : ¬startsWith ['<', '!', '-', '-'] cs = true)
    (more : List Char) : ¬startsWith ['<', '!', '-', '-'] (cs ++ more) = true := by
  intro hcomment
  obtain ⟨after, hafter⟩ := exists_of_startsWith hcomment
  have hprefix : ['<', '!', '-', '-'] <+: cs ++ more := ⟨after, hafter.symm⟩
  rcases Nat.le_total 4 cs.length with hlong | hshort
  · obtain ⟨inner, rfl⟩ := List.prefix_of_prefix_length_le hprefix (List.prefix_append _ _) hlong
    exact h (startsWith_append rfl inner)
  · -- Such a short text has no angle bracket.
    have hwithin := List.prefix_of_prefix_length_le (List.prefix_append _ _) hprefix hshort
    have hangle : '>' ∈ cs := by
      rw [eq_of_cut?_eq_some hcut]
      simp
    exact absurd (hwithin.subset hangle) (by decide)

/-- Every step of a reader is the same when markup follows the text. -/
theorem step_followedBy {size : Nat} {c next : Cursor} {found : Option Token} (hc : c.Ends size)
    (hne : c.rest ≠ []) (h : step size c = .ok (found, next)) {more : List Char}
    (hmore : atTag more = true) {size' : Nat} (hsize : size ≤ size') :
    step size' (c.followedBy more) = .ok (found, next.followedBy more) := by
  have happend : ∀ {pre rest}, c.rest = pre ++ rest → c.rest ++ more = pre ++ (rest ++ more) := by
    intro pre rest hrest
    rw [hrest, List.append_assoc]
  rw [step_eq_ok_iff] at h ⊢
  cases h with
  | comment hrest hcut => exact .comment (happend hrest) (cut?_append_text hcut _)
  | declaration hcomment hrest hcut =>
    exact .declaration (not_startsWith_comment hcut hcomment _) (happend hrest)
      (cut?_append_text hcut _)
  | closing hrest hread => exact .closing (happend hrest) (readClosing_followedBy _ hrest hread)
  | @tag d rest token next hrest hd hread =>
    have htag := atTag_of_isNameStart hrest hd
    exact .tag (happend (show c.rest = ['<', d] ++ rest from hrest)) hd
      (readTag_followedBy _ hc htag hread hsize)
  | interpolation hrest hread =>
    exact .interpolation (happend hrest) (readInterpolation_followedBy _ hrest hread size')
  | text hmarkup =>
    -- Text is what could go on, but not over markup.
    have hstep : StepsTo size' (c.followedBy more) _ _ := .text (not_atTag_append hne hmarkup hmore)
    rw [Cursor.rest_followedBy, takeText_followed _ hmore] at hstep
    exact hstep

/-! ### Templates -/

/-- What is scanned is scanned alike whatever markup follows it. -/
theorem Scans.followedBy {size : Nat} {c last : Cursor} {tokens : List Token}
    (h : Scans size c tokens last) (hc : c.Ends size) {more : List Char} (hmore : atTag more = true)
    {size' : Nat} (hsize : size ≤ size') :
    Scans size' (c.followedBy more) tokens (last.followedBy more) := by
  induction h with
  | stay c => exact .stay _
  | step hne hstep _ ih =>
    obtain ⟨hlead, -, -⟩ := of_step_eq_ok hc hstep
    exact .step (by simp [hne]) (step_followedBy hc hne hstep hmore hsize) (ih (hlead.ends hc))

/-- Shifting a scan shifts the tokens in front of it. -/
private theorem Scan.shift_after (k : Nat) (tokens : List Token) (s : Scan) :
    (s.after tokens).shift k = (s.shift k).after (tokens.map (Token.shift k)) := by
  simp [Scan.after, Scan.shift]

/-- A template that can be read on its own is read to the same tokens between other text and
markup. -/
theorem scanFrom_between {source : List Char} (h : (scan source).failure = none) {size offset : Nat}
    {more : List Char} (hmore : atTag more = true)
    (hsize : Cursor.Ends size ⟨source ++ more, offset⟩) :
    scanFrom size ⟨source ++ more, offset⟩ =
      (scanFrom size ⟨more, offset + byteLength source⟩).after
        ((scan source).tokens.map (Token.shift offset)) := by
  have hstart : Cursor.Ends (byteLength source) ⟨source, 0⟩ := Nat.zero_add _
  obtain ⟨⟨rest, stop⟩, hscans, rfl⟩ := exists_scans_end hstart h
  obtain rfl : stop = byteLength source := (hscans.leads hstart).ends hstart
  obtain ⟨whole, hwhole⟩ : ∃ whole, byteLength (source ++ more) = whole := ⟨_, rfl⟩
  have hfollowed := hscans.followedBy hstart hmore
    (show byteLength source ≤ whole by rw [← hwhole, byteLength_append]; exact Nat.le_add_right _ _)
  have hends : Cursor.Ends whole ⟨source ++ more, 0⟩ := by
    rw [Cursor.Ends, hwhole, Nat.zero_add]
  obtain rfl : offset + whole = size := by rw [← hwhole, hsize]
  have hscan := congrArg (Scan.shift offset) (hfollowed.scanFrom_eq hends)
  rw [Scan.shift_after, ← scanFrom_shift, ← scanFrom_shift] at hscan
  exact hscan

end ViewCompiler.Template
