import ViewCompiler.Proofs.Template.Steps

/-!
# The pieces of text of a template

Where the text of a template stands is said here without its reader. A template is a sequence of
markup and of pieces of text (`CutsInto`). Markup starts at an angle bracket with a letter, a slash
or an exclamation mark behind it, and at two opening braces (`startsMarkup`), and each kind of it
has an end of its own (`behindMarkup?`): that of a comment are two hyphens and an angle bracket,
that of a tag the first angle bracket outside of the quotes of its attributes (`cutTag`). Whatever
stands between two pieces of markup is text, and a piece of text goes on as far as it can. So a
template is cut in one way only (`CutsInto.unique`).

The body of a raw text element belongs to the markup. It is not said here where such a body should
end but only where it does, at the place that `readRawText` finds in the lower case form of the
template; what is text behind it depends on that.

A template that is read without a failure is cut all the way to its end, and each of the pieces has
its token, with the offset at which it stands (`exists_cutsInto_of_scans`). A reader that lost text,
or took it for markup, would not pass.
-/

namespace ViewCompiler.Template

open ViewCompiler.Text

/-! ### Tags -/

/-- Where a character of a tag stands, behind the name of that tag. -/
inductive TagPlace where
  /-- Between attributes, or in the name of one. -/
  | name
  /-- Behind an equals sign, with nothing of the value yet. -/
  | equals
  /-- In a value without quotes. -/
  | unquoted
  /-- In a value between quotes of this kind. -/
  | quoted (quote : Char)
  deriving DecidableEq, Repr

/-- Where the character after this one stands. -/
def TagPlace.next (place : TagPlace) (c : Char) : TagPlace :=
  match place with
  | .name => if c = '=' then .equals else .name
  | .equals =>
    if isMarkupSpace c then .equals else if c = '"' ∨ c = '\'' then .quoted c else .unquoted
  | .unquoted => if isMarkupSpace c then .name else .unquoted
  | .quoted quote => if c = quote then .name else .quoted quote

/-- Whether an angle bracket at this place belongs to a value. -/
def TagPlace.isQuoted : TagPlace → Bool
  | .quoted _ => true
  | .name | .equals | .unquoted => false

/-- Whether a tag closes itself, and what stands behind it: it ends at the first angle bracket
outside of quotes. -/
def cutTag (place : TagPlace) : List Char → Option (Bool × List Char)
  | [] => none
  | c :: cs =>
    if !place.isQuoted && c == '>' then some (false, cs)
    else if !place.isQuoted && c == '/' && cs.head? == some '>' then some (true, cs.drop 1)
    else cutTag (place.next c) cs

/-! ### Markup -/

/-- Whether a tag, a comment, a declaration or an interpolation starts here. -/
def startsMarkup (text : List Char) : Bool := atTag text || startsWith openBraces text

/-- What stands behind blanks and an angle bracket. -/
def behindAngle? (text : List Char) : Option (List Char) :=
  dropPrefix? ['>'] (text.dropWhile isMarkupSpace)

/-- What stands behind the body of a raw text element and its closing tag. -/
def behindRawText? (name text : List Char) : Option (List Char) :=
  let closing := '<' :: '/' :: name.map lowerChar
  (cut? closing (text.map lowerChar)).bind fun (before, _) =>
    (cutBytes (byteLength before + byteLength closing) text).2.bind behindAngle?

/-- What stands behind a tag, of which this is the text after its name. The tag of a directive has
no values in quotes, and a raw text element comes with all of its body. -/
def behindTag? (name text : List Char) : Option (List Char) :=
  if hasPrefix "w:" (String.ofList name) then (cut? ['>'] text).map Prod.snd
  else (cutTag .name text).bind fun (selfClosing, rest) =>
    if isRawTextElement (String.ofList name) && !selfClosing then behindRawText? name rest
    else some rest

/-- What stands behind the markup at the start of a text. -/
def behindMarkup? (text : List Char) : Option (List Char) :=
  if startsWith ['<', '!', '-', '-'] text then (cut? ['-', '-', '>'] (text.drop 4)).map Prod.snd
  else if startsWith ['<', '!'] text then (cut? ['>'] text).map Prod.snd
  else if startsWith ['<', '/'] text then behindAngle? ((text.drop 2).dropWhile isNameChar)
  else if atTag text then
    behindTag? ((text.drop 1).takeWhile isNameChar) ((text.drop 1).dropWhile isNameChar)
  else if startsWith openBraces text then
    (cutInterpolation .outside (text.drop 2)).map Prod.snd
  else none

/-! ### Pieces of text -/

/-- Nothing stops within a stretch of text, and behind it something does or the text ends. -/
structure UpTo (stops : List Char → Bool) (taken rest : List Char) : Prop where
  within : ∀ before c after, taken = before ++ c :: after → stops (c :: (after ++ rest)) = false
  behind : rest = [] ∨ stops rest = true

/-- A text from an offset on is cut into markup and these pieces of text, each with its offset. -/
inductive CutsInto : Nat → List Char → List (Nat × List Char) → Prop where
  | done (start : Nat) : CutsInto start [] []
  | markup {start : Nat} {text piece rest : List Char} {chunks : List (Nat × List Char)}
    (htext : text = piece ++ rest) (hbehind : behindMarkup? text = some rest)
    (h : CutsInto (start + byteLength piece) rest chunks) : CutsInto start text chunks
  | text {start : Nat} {text raw rest : List Char} {chunks : List (Nat × List Char)}
    (htext : text = raw ++ rest) (hne : raw ≠ []) (hraw : UpTo startsMarkup raw rest)
    (h : CutsInto (start + byteLength raw) rest chunks) : CutsInto start text
        ((start, raw) :: chunks)

/-! ### Stretches -/

section Stretches

variable {stops : List Char → Bool} {taken rest : List Char}

/-- What is left of a stretch behind its first character is one, too. -/
theorem UpTo.tail {c : Char} (h : UpTo stops (c :: taken) rest) : UpTo stops taken rest :=
  ⟨fun before d after heq => h.within (c :: before) d after (by rw [heq]; rfl), h.behind⟩

private theorem upTo_nil (h : rest = [] ∨ stops rest = true) : UpTo stops [] rest :=
  ⟨by simp, h⟩

theorem UpTo.head {c : Char} (h : UpTo stops (c :: taken) rest) :
    stops (c :: (taken ++ rest)) = false :=
  h.within [] c taken rfl

/-- A stretch is what is taken of a text. -/
theorem UpTo.takeUntil_eq (h : UpTo stops taken rest) :
    takeUntil stops (taken ++ rest) = (taken, rest) := by
  induction taken with
  | nil =>
    cases rest with
    | nil => rfl
    | cons c rest =>
      have hstops : stops (c :: rest) = true := h.behind.resolve_left (List.cons_ne_nil c rest)
      rw [List.nil_append, takeUntil, if_pos hstops]
  | cons c taken ih =>
    rw [List.cons_append, takeUntil, if_neg (Bool.eq_false_iff.1 h.head), ih h.tail]

/-- What is taken of a text is a stretch. -/
theorem upTo_takeUntil (stops : List Char → Bool) (cs : List Char) :
    UpTo stops (takeUntil stops cs).1 (takeUntil stops cs).2 := by
  induction cs with
  | nil => exact upTo_nil (.inl rfl)
  | cons c cs ih =>
    rw [takeUntil]
    split
    · rename_i hstops
      exact upTo_nil (.inr hstops)
    · rename_i hstops
      refine ⟨fun before d after h => ?_, ih.behind⟩
      cases before with
      | nil =>
        obtain ⟨rfl, rfl⟩ := List.cons.inj h
        rw [takeUntil_append_eq]
        exact Bool.eq_false_iff.2 hstops
      | cons e before => exact ih.within before d after (List.cons.inj h).2

private theorem takeText_eq_takeUntil (cs : List Char) :
    takeText cs = takeUntil startsMarkup cs := by
  induction cs with
  | nil => rfl
  | cons c cs ih =>
    rw [takeText, takeUntil, ih]
    rfl

end Stretches

/-! ### One way to cut -/

section Cuts

variable {start : Nat} {text raw rest : List Char} {chunks chunks' : List (Nat × List Char)}

private theorem startsMarkup_of_behindMarkup? (h : behindMarkup? text = some rest) :
    startsMarkup text = true := by
  rw [startsMarkup, Bool.or_eq_true_iff]
  unfold behindMarkup? at h
  split at h
  · rename_i hstarts
    exact .inl (atTag_of_startsWith (.inr rfl) hstarts)
  split at h
  · rename_i hstarts
    exact .inl (atTag_of_startsWith (.inr rfl) hstarts)
  split at h
  · rename_i hstarts
    exact .inl (atTag_of_startsWith (.inl rfl) hstarts)
  split at h
  · rename_i htag
    exact .inl htag
  split at h
  · rename_i hbraces
    exact .inr hbraces
  · cases h

/-- Where a stretch of text stands, there is no markup. -/
theorem behindMarkup?_ne_of_upTo {behind : List Char} (hne : raw ≠ [])
    (hraw : UpTo startsMarkup raw rest) : behindMarkup? (raw ++ rest) ≠ some behind := by
  obtain ⟨c, raw, rfl⟩ := List.exists_cons_of_ne_nil hne
  intro hbehind
  have hmarkup := startsMarkup_of_behindMarkup? hbehind
  rw [List.cons_append, hraw.head] at hmarkup
  cases hmarkup

/-- A text is cut in one way only. -/
theorem CutsInto.unique (h : CutsInto start text chunks) (h' : CutsInto start text chunks') :
    chunks = chunks' := by
  induction h generalizing chunks' with
  | done start =>
    cases h' with
    | done => rfl
    | markup _ hbehind _ => cases startsMarkup_of_behindMarkup? hbehind
    | text htext hne _ _ => exact absurd (List.append_eq_nil_iff.1 htext.symm).1 hne
  | markup htext hbehind _ ih =>
    cases h' with
    | done => cases startsMarkup_of_behindMarkup? hbehind
    | markup htext' hbehind' h' =>
      obtain rfl := Option.some.inj (hbehind.symm.trans hbehind')
      obtain rfl := List.append_cancel_right (htext.symm.trans htext')
      exact ih h'
    | text htext' hne hraw => exact (behindMarkup?_ne_of_upTo hne hraw (htext' ▸ hbehind)).elim
  | text htext hne hraw h ih =>
    cases h' with
    | done => exact absurd (List.append_eq_nil_iff.1 htext.symm).1 hne
    | markup _ hbehind _ => exact (behindMarkup?_ne_of_upTo hne hraw (htext ▸ hbehind)).elim
    | text htext' _ hraw' h' =>
      have htaken := hraw.takeUntil_eq
      rw [← htext, htext', hraw'.takeUntil_eq] at htaken
      obtain ⟨rfl, rfl⟩ := Prod.mk.inj htaken
      rw [ih h']

end Cuts

/-! ### Tags that are read -/

section Tags

variable {size : Nat} {place : TagPlace} {taken rest : List Char} {c next : Cursor}

/-- A tag does not end within characters that stay at one place. -/
theorem cutTag_append
    (htaken : ∀ before d after, taken = before ++ d :: after →
      place.next d = place ∧ (place.isQuoted = true ∨
        d ≠ '>' ∧ (d = '/' → (after ++ rest).head? ≠ some '>'))) :
    cutTag place (taken ++ rest) = cutTag place rest := by
  induction taken with
  | nil => rfl
  | cons d taken ih =>
    have hmore := ih fun before e after heq => htaken (d :: before) e after (by rw [heq]; rfl)
    obtain ⟨hnext, hopen⟩ := htaken [] d taken rfl
    rw [List.cons_append, cutTag, hnext, hmore]
    rcases hopen with hquoted | ⟨hangle, hslash⟩
    · simp [hquoted]
    · rw [if_neg (by simp [hangle]), if_neg]
      simp only [Bool.and_eq_true, beq_iff_eq, not_and]
      exact fun h => hslash h.2

/-- Blanks do not matter before an attribute or before a value. -/
theorem cutTag_skipSpace (hplace : place = .name ∨ place = .equals) (c : Cursor) :
    cutTag place c.skipSpace.rest = cutTag place c.rest := by
  have hsplit : c.rest = c.rest.takeWhile isMarkupSpace ++ c.skipSpace.rest :=
    List.takeWhile_append_dropWhile.symm
  rw [hsplit]
  refine (cutTag_append fun before d after heq => ?_).symm
  have hd : isMarkupSpace d = true :=
    List.all_eq_true.1 List.all_takeWhile d (heq ▸ List.mem_append_right _ List.mem_cons_self)
  have hne : ∀ e, isMarkupSpace e = false → d ≠ e := fun e => ne_of_class hd
  have hequals := hne '=' (by decide)
  have hangle := hne '>' (by decide)
  have hslash := hne '/' (by decide)
  refine ⟨?_, .inr ⟨hangle, fun h => absurd h hslash⟩⟩
  rcases hplace with rfl | rfl
  · simp [TagPlace.next, hequals]
  · simp [TagPlace.next, hd]

/-- What ends a value without quotes ends it for the tag, too. -/
private theorem cutTag_unquoted (h : rest = [] ∨ endsUnquoted rest = true) :
    cutTag .unquoted rest = cutTag .name rest := by
  cases rest with
  | nil => rfl
  | cons d cs =>
    have hends := h.resolve_left nofun
    simp only [endsUnquoted, Bool.or_eq_true, Bool.and_eq_true, beq_iff_eq] at hends
    rcases hends with (hspace | rfl) | ⟨rfl, hangle⟩
    · have hequals : d ≠ '=' := ne_of_class hspace (by decide)
      rw [cutTag, cutTag]
      simp [TagPlace.next, TagPlace.isQuoted, hspace, hequals]
    · rfl
    · simp [cutTag, TagPlace.isQuoted, hangle]

/-- A tag does not end within a value between quotes. -/
private theorem cutTag_equals_quoted {q : Char} (hquote : q = '"' ∨ q = '\'') {value : List Char}
    (hvalue : q ∉ value) (after : List Char) :
    cutTag .equals (q :: (value ++ q :: after)) = cutTag .name after := by
  have hbrackets : q ≠ '>' ∧ q ≠ '/' := by rcases hquote with rfl | rfl <;> decide
  have hspace : isMarkupSpace q = false := by rcases hquote with rfl | rfl <;> decide
  calc cutTag .equals (q :: (value ++ q :: after))
      = cutTag (.quoted q) (value ++ (q :: after)) := by
        rw [cutTag]
        simp [TagPlace.next, hbrackets, hspace, hquote]
    _ = cutTag (.quoted q) (q :: after) := by
        refine cutTag_append fun before d cs heq => ⟨?_, .inl rfl⟩
        have hd : d ≠ q := by
          rintro rfl
          exact hvalue (heq ▸ List.mem_append_right _ List.mem_cons_self)
        simp [TagPlace.next, hd]
    _ = cutTag .name after := by
        rw [cutTag]
        simp [TagPlace.next, TagPlace.isQuoted]

/-- A tag does not end within a value without quotes. -/
private theorem cutTag_equals_unquoted {d : Char} (hquote : ¬(d = '"' ∨ d = '\''))
    {value after : List Char} (hupTo : UpTo endsUnquoted (d :: value) after) :
    cutTag .equals (d :: (value ++ after)) = cutTag .name after := by
  have hstays : ∀ before e cs, d :: value = before ++ e :: cs →
      isMarkupSpace e = false ∧ e ≠ '>' ∧ (e = '/' → (cs ++ after).head? ≠ some '>') := by
    intro before e cs heq
    simpa [endsUnquoted, and_assoc] using hupTo.within before e cs heq
  obtain ⟨hspace, hangle, hslash⟩ := hstays [] d value rfl
  calc cutTag .equals (d :: (value ++ after))
      = cutTag .unquoted (value ++ after) := by
        rw [cutTag, if_neg (by simp [hangle]), if_neg]
        · simp [TagPlace.next, hspace, hquote]
        · simp only [Bool.and_eq_true, beq_iff_eq, not_and]
          exact fun h => hslash h.2
    _ = cutTag .unquoted after := by
        refine cutTag_append fun before e cs heq => ?_
        obtain ⟨hspace, hopen⟩ := hstays (d :: before) e cs (by rw [heq]; rfl)
        exact ⟨by simp [TagPlace.next, hspace], .inr hopen⟩
    _ = cutTag .name after := cutTag_unquoted hupTo.behind

private theorem cutTag_of_readAttributeValue {tag name : String} {start : Nat} {a : Attribute}
    (h : readAttributeValue size tag name start c = .ok (a, next)) :
    cutTag .equals c.rest = cutTag .name next.rest := by
  unfold readAttributeValue at h
  split at h
  · cases h
  · rename_i q rest hrest
    split at h
    · rename_i hquote
      split at h
      · cases h
      · rename_i value after hcut
        obtain ⟨-, rfl⟩ := Prod.mk.inj (Except.ok.inj h)
        have hvalue : q ∉ value := notMem_of_cut? hcut
        obtain rfl := eq_of_cut?_eq_some hcut
        rw [hrest, List.append_assoc]
        exact cutTag_equals_quoted (by simpa using hquote) hvalue after
    · rename_i hquote
      split at h
      rename_i value after hvalue
      split at h
      · cases h
      · rename_i hne
        obtain ⟨-, rfl⟩ := Prod.mk.inj (Except.ok.inj h)
        have hupTo := upTo_takeUntil endsUnquoted c.rest
        have hsplit := takeUntil_append_eq endsUnquoted c.rest
        rw [hvalue] at hupTo hsplit
        obtain ⟨d, value, rfl⟩ := List.exists_cons_of_ne_nil (by simpa using hne)
        obtain ⟨rfl, -⟩ := List.cons.inj (hsplit.trans hrest)
        rw [← hsplit]
        exact cutTag_equals_unquoted (by simpa using hquote) hupTo

private theorem cutTag_of_afterName {tag : String} {name : List Char} {here : Cursor}
    {a : Attribute} (h : readAttribute.afterName size tag c name here = .ok (a, next)) :
    cutTag .name here.rest = cutTag .name next.rest := by
  unfold readAttribute.afterName at h
  simp only at h
  rw [← cutTag_skipSpace (.inl rfl) here]
  split at h
  · rename_i valued hvalued
    obtain ⟨behind, hbehind, rfl⟩ := Option.map_eq_some_iff.1 hvalued
    rw [dropPrefix?_eq_some_iff.1 hbehind, ← cutTag_of_readAttributeValue h,
      cutTag_skipSpace (.inr rfl)]
    rfl
  · obtain ⟨-, rfl⟩ := Prod.mk.inj (Except.ok.inj h)
    rfl

/-- A tag does not end within an attribute. -/
private theorem cutTag_of_readAttribute {tag : String} {a : Attribute}
    (h : readAttribute size tag c = .ok (a, next)) :
    cutTag .name c.rest = cutTag .name next.rest := by
  unfold readAttribute at h
  split at h
  rename_i name rest hname
  obtain ⟨stops, hstops⟩ : ∃ stops, stops = fun cs : List Char =>
    endsAttributeName cs || cs.head?.any isForbiddenInName := ⟨_, rfl⟩
  rw [← hstops] at hname
  have hupTo : UpTo stops name rest := by
    have hupTo := upTo_takeUntil stops c.rest
    rwa [hname] at hupTo
  have hsplit : name ++ rest = c.rest := by
    have hsplit := takeUntil_append_eq stops c.rest
    rwa [hname] at hsplit
  have hafter : readAttribute.afterName size tag c name (c.past name rest) = .ok (a, next) := by
    split at h
    · split at h
      · cases h
      · exact h
    · exact h
  calc cutTag .name c.rest
      = cutTag .name rest := by
        rw [← hsplit]
        refine cutTag_append fun before d cs heq => ?_
        have hstays := hupTo.within before d cs heq
        simp only [hstops, endsAttributeName, Bool.or_eq_false_iff, beq_eq_false_iff_ne,
          Bool.and_eq_false_iff] at hstays
        obtain ⟨⟨⟨⟨-, hequals⟩, hangle⟩, hslash⟩, -⟩ := hstays
        refine ⟨by simp [TagPlace.next, hequals], .inr ⟨hangle, fun hd => ?_⟩⟩
        exact hslash.resolve_left (absurd hd)
    _ = cutTag .name next.rest := cutTag_of_afterName hafter

/-- The tag ends where its attributes do. -/
private theorem cutTag_of_readAttributes {start : Nat} {tag : String} (hc : c.Ends size)
    {attributes : List Attribute} {selfClosing : Bool}
    (h : readAttributes size start tag c = .ok (attributes, selfClosing, next)) :
    cutTag .name c.rest = some (selfClosing, next.rest) := by
  fun_induction readAttributes size start tag c generalizing attributes with
  | case1 => cases h
  | case2 c here _ after hclose =>
    obtain ⟨-, hend⟩ := Prod.mk.inj (Except.ok.inj h)
    obtain ⟨rfl, rfl⟩ := Prod.mk.inj hend
    obtain ⟨behind, hbehind, rfl⟩ := Option.map_eq_some_iff.1 hclose
    rw [← cutTag_skipSpace (.inl rfl), dropPrefix?_eq_some_iff.1 hbehind]
    rfl
  | case3 c here _ after hclose _ =>
    obtain ⟨-, hend⟩ := Prod.mk.inj (Except.ok.inj h)
    obtain ⟨rfl, rfl⟩ := Prod.mk.inj hend
    obtain ⟨behind, hbehind, rfl⟩ := Option.map_eq_some_iff.1 hclose
    rw [← cutTag_skipSpace (.inl rfl), dropPrefix?_eq_some_iff.1 hbehind]
    rfl
  | case4 => cases h
  | case5 => cases h
  | case6 c here hne _ _ a after hattribute _ others closes last hmore ih =>
    obtain ⟨-, hend⟩ := Prod.mk.inj (Except.ok.inj h)
    obtain ⟨rfl, rfl⟩ := Prod.mk.inj hend
    obtain ⟨hlead, -, -⟩ := reads_skipSpace_readAttribute hc hne hattribute
    rw [← cutTag_skipSpace (.inl rfl), cutTag_of_readAttribute hattribute]
    exact ih (hlead.ends hc) hmore
  | case7 c here hne _ _ a after hattribute hlt =>
    -- The reader always goes on, so it never gives up here.
    obtain ⟨hlead, -, hforward⟩ := reads_skipSpace_readAttribute hc hne hattribute
    exact absurd (hlead.length_lt hforward) hlt

private theorem behindRawText?_of_readRawText {tag : Tag} {token : Token}
    (h : readRawText size tag c = .ok (token, next)) :
    behindRawText? tag.name.toList c.rest = some next.rest := by
  unfold readRawText at h
  simp only at h
  split at h
  · cases h
  · rename_i hcut
    split at h
    · cases h
    · split at h
      · cases h
      · rename_i rest hrest
        split at h
        · cases h
        · rename_i hangle
          obtain ⟨-, rfl⟩ := Prod.mk.inj (Except.ok.inj h)
          obtain ⟨behind, hbehind, rfl⟩ := Option.map_eq_some_iff.1 hangle
          simp only [behindRawText?, hcut, Option.bind_some, hrest]
          exact hbehind

private theorem not_isRawTextElement_of_isVoidElement {name : String}
    (h : isVoidElement name = true) :
    isRawTextElement name = false := by
  have hdisjoint : ∀ n ∈ voidElements, n ∉ rawTextElements := by decide
  simp only [isVoidElement, Bool.and_eq_true, List.contains_iff_mem] at h
  simp [isRawTextElement, hdisjoint _ h.2]

private theorem behindTag?_of_readDirective {start : Nat} {name : List Char} {token : Token}
    (hname : hasPrefix "w:" (String.ofList name) = true)
    (h : readDirective size start (String.ofList name) c = .ok (token, next)) :
    behindTag? name c.rest = some next.rest := by
  have hbody : ∀ read, readDirective.body size start (String.ofList name) c read =
      .ok (token, next) → (cut? ['>'] c.rest).map Prod.snd = some next.rest := by
    intro read h
    unfold readDirective.body at h
    split at h
    · cases h
    · rename_i hcut
      simp only at h
      split at h
      · cases h
      · obtain ⟨-, rfl⟩ := Prod.mk.inj (Except.ok.inj h)
        rw [hcut]
        rfl
  rw [behindTag?, if_pos hname]
  unfold readDirective at h
  split at h
  · exact hbody _ h
  · split at h
    · exact hbody _ h
    · cases h

/-- A tag ends where the reader goes on, with the body of a raw text element. -/
private theorem behindTag?_of_readTag {token : Token} (hc : c.Ends size)
    (htag : atTag c.rest = true) (h : readTag size c = .ok (token, next)) :
    behindTag? ((c.rest.drop 1).takeWhile isNameChar) ((c.rest.drop 1).dropWhile isNameChar) =
      some next.rest := by
  have hhere : c.Leads c.behindTagName := Cursor.leads_behindTagName htag
  unfold readTag at h
  simp only at h
  split at h
  · rename_i hdirective
    exact behindTag?_of_readDirective (c := c.behindTagName) hdirective h
  · rename_i hdirective
    replace hdirective :
        ¬hasPrefix "w:" (String.ofList ((c.rest.drop 1).takeWhile isNameChar)) = true := hdirective
    split at h
    · cases h
    · rename_i attributes selfClosing after hread
      have hcut := cutTag_of_readAttributes (hhere.ends hc) hread
      replace hcut : cutTag .name ((c.rest.drop 1).dropWhile isNameChar) =
        some (selfClosing, after.rest) := hcut
      simp only [behindTag?, hdirective, hcut, Option.bind_some, Bool.false_eq_true, if_false]
      split at h
      · rename_i hleaf
        obtain ⟨-, rfl⟩ := Prod.mk.inj (Except.ok.inj h)
        rw [if_neg]
        intro hraw
        obtain ⟨hraw, hopen⟩ := Bool.and_eq_true_iff.1 hraw
        rcases Bool.or_eq_true_iff.1 hleaf with hclosed | hvoid
        · rw [hclosed] at hopen
          cases hopen
        · exact Bool.eq_false_iff.1 (not_isRawTextElement_of_isVoidElement hvoid) hraw
      · rename_i hcontent
        have hopen : selfClosing = false :=
          Bool.eq_false_iff.2 fun hclosed => hcontent (Bool.or_eq_true_iff.2 (.inl hclosed))
        split at h
        · rename_i hraw
          rw [if_pos (by rw [hopen, Bool.and_eq_true_iff]; exact ⟨hraw, rfl⟩)]
          have hbehind := behindRawText?_of_readRawText h
          rwa [String.toList_ofList] at hbehind
        · rename_i hraw
          obtain ⟨-, rfl⟩ := Prod.mk.inj (Except.ok.inj h)
          exact if_neg fun hboth => hraw (Bool.and_eq_true_iff.1 hboth).1

end Tags

/-! ### Templates that are read -/

section Scans

variable {size : Nat} {c next last : Cursor} {tokens : List Token}

/-- A closing tag ends where the reader goes on. -/
private theorem behindAngle?_of_readClosing {token : Token}
    (h : readClosing c = .ok (token, next)) :
    behindAngle? ((c.rest.drop 2).dropWhile isNameChar) = some next.rest := by
  unfold readClosing at h
  simp only at h
  split at h
  · cases h
  · rename_i hangle
    obtain ⟨-, rfl⟩ := Prod.mk.inj (Except.ok.inj h)
    obtain ⟨behind, hbehind, rfl⟩ := Option.map_eq_some_iff.1 hangle
    exact hbehind

/-- An interpolation ends where the reader goes on. -/
private theorem cutInterpolation_of_readInterpolation {token : Token}
    (h : readInterpolation size c = .ok (token, next)) :
    (cutInterpolation .outside (c.rest.drop 2)).map Prod.snd = some next.rest := by
  unfold readInterpolation at h
  split at h
  · cases h
  · rename_i hcut
    simp only at h
    split at h
    · cases h
    · obtain ⟨-, rfl⟩ := Prod.mk.inj (Except.ok.inj h)
      rw [hcut]
      rfl

/-- Where there is markup, the reader goes on behind it. -/
private theorem behindMarkup?_of_step {found : Option Token} (hc : c.Ends size)
    (hmarkup : startsMarkup c.rest = true) (h : step size c = .ok (found, next)) :
    behindMarkup? c.rest = some next.rest := by
  cases step_eq_ok_iff.1 h with
  | @comment rest _ _ hrest hcut =>
    have hbehind : behindMarkup? c.rest = (cut? ['-', '-', '>'] rest).map Prod.snd := by
      rw [hrest]
      rfl
    rw [hbehind, hcut]
    rfl
  | declaration hcomment hrest hcut =>
    have hstarts : startsWith ['<', '!'] c.rest = true := by
      rw [hrest]
      rfl
    rw [behindMarkup?, if_neg hcomment, if_pos hstarts, hcut]
    rfl
  | closing hrest hread =>
    have hbehind : behindMarkup? c.rest =
        behindAngle? ((c.rest.drop 2).dropWhile isNameChar) := by
      rw [hrest]
      rfl
    exact hbehind.trans (behindAngle?_of_readClosing hread)
  | tag hrest hd hread =>
    have htag := atTag_of_isNameStart hrest hd
    have hne : ∀ e, isNameStart e = false → _ ≠ e := fun e => ne_of_class hd
    have hmark := (hne '!' (by decide)).symm
    have hslash := (hne '/' (by decide)).symm
    rw [behindMarkup?, if_neg, if_neg, if_neg, if_pos htag, behindTag?_of_readTag hc htag hread]
    · simp [hrest, startsWith, dropPrefix?, hslash]
    · simp [hrest, startsWith, dropPrefix?, hmark]
    · simp [hrest, startsWith, dropPrefix?, hmark]
  | interpolation hrest hread =>
    have hbehind : behindMarkup? c.rest =
        (cutInterpolation .outside (c.rest.drop 2)).map Prod.snd := by
      rw [hrest]
      rfl
    exact hbehind.trans (cutInterpolation_of_readInterpolation hread)
  | text hnone =>
    rw [startsMarkup, hnone] at hmarkup
    cases hmarkup

/-- A text that is read to its end is cut, and each of its pieces has its token. -/
theorem exists_cutsInto_of_scans (h : Scans size c tokens last) (hc : c.Ends size)
    (hlast : last.rest = []) :
    ∃ chunks, CutsInto c.offset c.rest chunks ∧ ∀ start raw, (start, raw) ∈ chunks →
      .text start (start + byteLength raw) (String.ofList raw) ∈ tokens := by
  induction h with
  | stay c => exact ⟨[], hlast ▸ .done _, by simp⟩
  | @step c next last found tokens hne hstep _ ih =>
    obtain ⟨hlead, -, -⟩ := of_step_eq_ok hc hstep
    obtain ⟨chunks, hcuts, hchunks⟩ := ih (hlead.ends hc) hlast
    have hmore : ∀ start raw, (start, raw) ∈ chunks →
        .text start (start + byteLength raw) (String.ofList raw) ∈ found.toList ++ tokens :=
      fun start raw hmem => List.mem_append_right _ (hchunks start raw hmem)
    cases hmarkup : startsMarkup c.rest with
    | true =>
      have hbehind := behindMarkup?_of_step hc hmarkup hstep
      obtain ⟨piece, hpiece, hoffset⟩ := hlead
      exact ⟨chunks, .markup hpiece hbehind (hoffset ▸ hcuts), hmore⟩
    | false =>
      rw [step_eq_text hmarkup] at hstep
      obtain ⟨rfl, rfl⟩ := Prod.mk.inj (Except.ok.inj hstep)
      have hupTo := upTo_takeUntil startsMarkup c.rest
      rw [← takeText_eq_takeUntil] at hupTo
      have htaken : (takeText c.rest).1 ≠ [] := by
        intro hnil
        have hstops := hupTo.behind
        have hall := takeText_append_eq c.rest
        rw [hnil, List.nil_append] at hall
        rw [hall, hmarkup] at hstops
        exact hstops.elim hne Bool.false_ne_true
      refine ⟨(c.offset, (takeText c.rest).1) :: chunks,
        .text (takeText_append_eq c.rest).symm htaken hupTo hcuts, fun start raw hmem => ?_⟩
      rcases List.mem_cons.1 hmem with heq | hmem
      · obtain ⟨rfl, rfl⟩ := Prod.mk.inj heq
        exact List.mem_cons_self
      · exact hmore start raw hmem

/-- The pieces of text of a template that is read without a failure have their tokens. -/
theorem exists_cutsInto_of_scan {source : List Char} (h : (scan source).failure = none) :
    ∃ chunks, CutsInto 0 source chunks ∧ ∀ start raw, (start, raw) ∈ chunks →
      .text start (start + byteLength raw) (String.ofList raw) ∈ (scan source).tokens := by
  have hstart : Cursor.Ends (byteLength source) ⟨source, 0⟩ := Nat.zero_add _
  obtain ⟨last, hscans, hnil⟩ := exists_scans_end hstart h
  exact exists_cutsInto_of_scans hscans hstart hnil

end Scans

end ViewCompiler.Template
