import ViewCompiler.Proofs.Template.Expression
import ViewCompiler.Proofs.Template.Markup

/-!
# Reading written text piece by piece

Each piece of canonical text is read as what was written, whatever follows it: a reference as its
character, the attributes of a tag up to its end, a closing tag, an interpolation up to its braces.
Only a text needs to know what follows: it goes on up to the next tag or interpolation (`Starts`).
The other way round, what stands in front of a step is of one of six kinds (`Ahead`), and each says
what the step comes to if it does not fail (`StepsTo`, `step_eq_ok_iff`).

Written text is put together by `++`, and so the lemmas here have the form "reading `written ++
rest` leaves `rest`". The readers skip and take characters by their class; what is written has been
chosen so that its characters are of the right class and what delimits it is not
(`isWrittenNameChar`, `StaysInName`). Offsets are not computed: a token is read with some places,
and a lemma says of it only what was written.

The kinds of `Ahead` are told apart by the first one or two characters. A proof about every step
goes through them by `cases`, and never opens the definition of `step` again: where the step
succeeds, `StepsTo` has the token and the cursor behind it, and where nothing fails a scan is a list
of such steps.
-/

namespace ViewCompiler.Template

open ViewCompiler.Text CharacterReference

/-! ### References -/

private theorem reference?_brace (rest : List Char) :
    reference? (['#', '1', '2', '3', ';'] ++ rest) = some (['\x7b'], 5) := by
  have hlong : ¬byteLength ('1' :: '2' :: '3' :: ';' :: rest) < 2 := by
    change ¬1 + (1 + (1 + (1 + byteLength rest))) < 2
    omega
  simp only [List.cons_append, List.nil_append, reference?, if_neg hlong]
  rfl

/-- Characters that belong to a reference that was read already are passed over. -/
private theorem decodeFrom_length (taken rest : List Char) :
    decodeFrom taken.length (taken ++ rest) = decodeFrom 0 rest := by
  induction taken with
  | nil => rfl
  | cons c taken ih => rw [List.length_cons, List.cons_append, decodeFrom, ih]

/-- A reference is decoded to the character that it stands for. -/
theorem decodeFrom_reference {c : Char} {body rest : List Char}
    (h : reference? (body ++ rest) = some ([c], body.length)) :
    decodeFrom 0 ('&' :: (body ++ rest)) = c :: decodeFrom 0 rest := by
  rw [decodeFrom, if_pos rfl, h]
  simp only [List.singleton_append, decodeFrom_length]

/-- The written form of a character is decoded to the character. -/
private theorem decodeFrom_encodeChar (c : Char) (rest : List Char) :
    decodeFrom 0 (encodeChar c ++ rest) = c :: decodeFrom 0 rest := by
  have hamp : reference? (['a', 'm', 'p', ';'] ++ rest) = some (['&'], 4) := rfl
  have hlt : reference? (['l', 't', ';'] ++ rest) = some (['<'], 3) := rfl
  have hquot : reference? (['q', 'u', 'o', 't', ';'] ++ rest) = some (['"'], 5) := rfl
  unfold encodeChar
  split
  · exact decodeFrom_reference hamp
  · exact decodeFrom_reference hlt
  · exact decodeFrom_reference hquot
  · exact decodeFrom_reference (reference?_brace rest)
  · rename_i hne _ _ _
    rw [List.singleton_append, decodeFrom, if_neg hne]

/-- Encoded text is decoded as it was. -/
theorem decode_encode (content : String) : decode (String.ofList (encode content)) = content := by
  have hdecode : ∀ cs : List Char, decodeFrom 0 (cs.flatMap encodeChar) = cs := by
    intro cs
    induction cs with
    | nil => rfl
    | cons c cs ih => rw [List.flatMap_cons, decodeFrom_encodeChar, ih]
  rw [decode, String.toList_ofList, encode, hdecode, String.ofList_toList]

/-- The special characters do not stand in encoded text. -/
theorem notMem_encode {content : String} {c : Char} (hc : c = '<' ∨ c = '"' ∨ c = '\x7b') :
    c ∉ encode content := by
  intro hmem
  obtain ⟨d, -, hmem⟩ := List.mem_flatMap.1 hmem
  unfold encodeChar at hmem
  split at hmem
  · rcases hc with rfl | rfl | rfl <;> revert hmem <;> decide
  · rcases hc with rfl | rfl | rfl <;> revert hmem <;> decide
  · rcases hc with rfl | rfl | rfl <;> revert hmem <;> decide
  · rcases hc with rfl | rfl | rfl <;> revert hmem <;> decide
  · simp_all

theorem encode_ne_nil {content : String} (h : content ≠ "") : encode content ≠ [] := by
  intro hnil
  apply h
  rw [← decode_encode content, hnil]
  rfl

/-! ### Attributes -/

/-- The name and the value of an attribute, as they are written. -/
def MarkupAttribute.written (a : MarkupAttribute) : String × Option String :=
  (String.ofList a.writtenName, some (String.ofList a.writtenValue))

/-- The name and the value of an attribute that was read. -/
def Attribute.written (a : Attribute) : String × Option String := (a.name, a.value)

/-- A text is taken up to where the rest stops it, if nothing stops it before. -/
private theorem takeUntil_append {stops : List Char → Bool} {taken rest : List Char}
    (htaken : ∀ c ∈ taken, ∀ cs, stops (c :: cs) = false)
    (hrest : ∀ c cs, rest = c :: cs → stops rest = true) :
    takeUntil stops (taken ++ rest) = (taken, rest) := by
  induction taken with
  | nil =>
    cases rest with
    | nil => rfl
    | cons c cs => rw [List.nil_append, takeUntil, if_pos (hrest c cs rfl)]
  | cons c taken ih =>
    obtain ⟨hc, htaken⟩ := List.forall_mem_cons.1 htaken
    rw [List.cons_append, takeUntil, hc, ih htaken]
    rfl

/-- The characters of attribute names, brackets included. -/
def isWrittenNameChar (c : Char) : Bool :=
  c.isAlphanum || ['-', '_', '.', '[', ']', '(', ')'].contains c

private theorem isWrittenNameChar_of_isAttributeName {name : String}
    (h : isAttributeName name = true) :
    ∀ c ∈ name.toList, isWrittenNameChar c = true := by
  intro c hc
  simp only [isAttributeName, Bool.and_eq_true, List.all_eq_true] at h
  have := h.2 c hc
  simp only [isAttributeNameChar, isWrittenNameChar, Bool.or_eq_true, beq_iff_eq] at this ⊢
  rcases this with (halnum | rfl) | rfl
  · exact .inl halnum
  · exact .inr rfl
  · exact .inr rfl

/-- The written name of a canonical attribute has only characters of written names. -/
theorem isWrittenNameChar_of_mem {a : MarkupAttribute} (h : a.Canonical) :
    ∀ c ∈ a.writtenName, isWrittenNameChar c = true := by
  cases a with
  | literal name content => exact isWrittenNameChar_of_isAttributeName h
  | bound name value =>
    have hname := isWrittenNameChar_of_isAttributeName h.1
    exact List.forall_mem_cons.2 ⟨rfl, List.forall_mem_append.2
      ⟨hname, List.forall_mem_singleton.2 rfl⟩⟩
  | attr name value =>
    have hname := isWrittenNameChar_of_isAttributeName h.1
    have hattr : ∀ c ∈ "attr.".toList, isWrittenNameChar c = true :=
      List.all_eq_true.1 rfl
    exact List.forall_mem_cons.2 ⟨rfl, List.forall_mem_append.2
      ⟨List.forall_mem_append.2 ⟨hattr, hname⟩, List.forall_mem_singleton.2 rfl⟩⟩
  | handler name method arguments =>
    have hname := isWrittenNameChar_of_isAttributeName h.1
    exact List.forall_mem_cons.2 ⟨rfl, List.forall_mem_append.2
      ⟨hname, List.forall_mem_singleton.2 rfl⟩⟩

/-- Whatever follows it, a character neither ends the name of an attribute nor is forbidden in
one. -/
def StaysInName (c : Char) : Prop :=
  ∀ cs, (endsAttributeName (c :: cs) || (c :: cs).head?.any isForbiddenInName) = false

/-- The characters that end the name of an attribute or are forbidden in one. -/
def nameDelimiters : List Char :=
  [' ', '\t', '\n', '\r', '\x0c', '=', '>', '/', '"', '\'', '<']

/-- No character of a class without delimiters ends a name. -/
theorem staysInName_of_class {p : Char → Bool} (hp : nameDelimiters.any p = false) {c : Char}
    (hc : p c = true) : StaysInName c := by
  have hne : ∀ d ∈ nameDelimiters, c ≠ d := by
    rintro d hd rfl
    exact List.any_eq_false.1 hp c hd hc
  simp only [nameDelimiters, List.forall_mem_cons] at hne
  intro cs
  simp [endsAttributeName, isForbiddenInName, isMarkupSpace, hne]

private theorem writtenName_ne_nil {a : MarkupAttribute} (h : a.Canonical) :
    a.writtenName ≠ [] := by
  cases a with
  | literal name content =>
    intro hnil
    change name.toList = [] at hnil
    change isAttributeName name = true at h
    rw [isAttributeName, hnil] at h
    cases h
  | bound name value => exact List.cons_ne_nil _ _
  | attr name value => exact List.cons_ne_nil _ _
  | handler name method arguments => exact List.cons_ne_nil _ _

/-- No quotation mark stands in a written value. -/
private theorem notMem_writtenValue {a : MarkupAttribute} (h : a.Canonical) :
    '"' ∉ a.writtenValue := by
  cases a with
  | literal name content => exact notMem_encode (.inr (.inl rfl))
  | bound name value => exact h.2.unquoted
  | attr name value => exact h.2.unquoted
  | handler name method arguments => exact h.2.unquoted

/-- A value in double quotes is read up to the second one. -/
private theorem readAttributeValue_quoted {value : List Char} (h : '"' ∉ value) (size : Nat)
    (tag name : String) (start offset : Nat) (rest : List Char) :
    ∃ found next, readAttributeValue size tag name start ⟨'"' :: (value ++ '"' :: rest), offset⟩ =
        .ok (found, ⟨rest, next⟩) ∧ found.written = (name, some (String.ofList value)) := by
  simp only [readAttributeValue, cut?_append h]
  exact ⟨_, _, rfl, rfl⟩

/-- An attribute with a value in double quotes is read up to the second one. -/
private theorem readAttribute_quoted {name value : List Char} (hne : name ≠ [])
    (hname : ∀ c ∈ name, StaysInName c) (hvalue : '"' ∉ value) (size : Nat) (tag : String)
    (offset : Nat) (rest : List Char) :
    ∃ found next, readAttribute size tag
      ⟨name ++ '=' :: '"' :: (value ++ '"' :: rest), offset⟩ =
        .ok (found, ⟨rest, next⟩) ∧
          found.written = (String.ofList name, some (String.ofList value)) := by
  have htake : takeUntil (fun cs => endsAttributeName cs || cs.head?.any isForbiddenInName)
      (name ++ '=' :: '"' :: (value ++ '"' :: rest)) =
        (name, '=' :: '"' :: (value ++ '"' :: rest)) :=
    takeUntil_append hname fun _ _ _ => rfl
  have hempty : name.isEmpty = false := by simpa using hne
  obtain ⟨found, next, hfound, hwritten⟩ := readAttributeValue_quoted hvalue size
    tag (String.ofList name) offset (offset + byteLength name + byteLength ['=']) rest
  refine ⟨found, next, ?_, hwritten⟩
  simp only [readAttribute, htake, hempty]
  exact hfound

/-- The end of a tag. -/
def tagEnd (selfClosing : Bool) : List Char := if selfClosing then ['/', '>'] else ['>']

/-- Characters are skipped up to the first that is none of them. -/
theorem Cursor.skipWhile_append {p : Char → Bool} {taken rest : List Char}
    (htaken : ∀ c ∈ taken, p c = true) (hrest : ∀ c ∈ rest.head?, p c = false) (offset : Nat) :
    Cursor.skipWhile ⟨taken ++ rest, offset⟩ p = ⟨rest, offset + byteLength taken⟩ := by
  rw [Cursor.skipWhile, takeWhile_append htaken hrest, dropWhile_append htaken hrest, Cursor.past]

theorem StaysInName.ne {c d : Char} (h : StaysInName c)
    (hd : ∃ cs, (endsAttributeName (d :: cs) || (d :: cs).head?.any isForbiddenInName) = true) :
    d ≠ c := by
  rintro rfl
  obtain ⟨cs, hcs⟩ := hd
  rw [h cs] at hcs
  cases hcs

private theorem StaysInName.not_isMarkupSpace {c : Char} (h : StaysInName c) :
    isMarkupSpace c = false := by
  have hends := h []
  simp only [endsAttributeName, Bool.or_eq_false_iff] at hends
  exact hends.1.1.1.1

/-- An attribute of a tag with a value in double quotes is read, and the others after it. -/
theorem readAttributes_quoted {name value : List Char} (hne : name ≠ [])
    (hname : ∀ c ∈ name, StaysInName c) (hvalue : '"' ∉ value) (size start : Nat) (tag : String)
    (offset : Nat) (more : List Char) :
    ∃ found next, found.written = (String.ofList name, some (String.ofList value)) ∧
      readAttributes size start tag ⟨' ' :: (name ++ '=' :: '"' :: (value ++ '"' :: more)),
        offset⟩ =
        (readAttributes size start tag ⟨more, next⟩).map fun r => (found :: r.1, r.2) := by
  obtain ⟨found, next, hread, hwritten⟩ := readAttribute_quoted hne hname hvalue size tag
    (offset + byteLength [' ']) more
  refine ⟨found, next, hwritten, ?_⟩
  -- The text from the name on is kept closed: of it, only the first character matters below.
  obtain ⟨text, htext⟩ : ∃ text, name ++ '=' :: '"' :: (value ++ '"' :: more) = text := ⟨_, rfl⟩
  rw [htext] at hread ⊢
  obtain ⟨d, cs, rfl⟩ := List.exists_cons_of_ne_nil hne
  have hd : StaysInName d := hname d List.mem_cons_self
  obtain ⟨tail, rfl⟩ : ∃ tail, text = d :: tail := ⟨_, by rw [← htext, List.cons_append]⟩
  have hskip : Cursor.skipSpace ⟨' ' :: d :: tail, offset⟩ =
      ⟨d :: tail, offset + byteLength [' ']⟩ :=
    Cursor.skipWhile_append (List.forall_mem_singleton.2 rfl)
      (by simpa using hd.not_isMarkupSpace) offset
  have hslash : ∀ n, Cursor.consume? ⟨d :: tail, n⟩ ['/', '>'] = none := by
    simp [Cursor.consume?, dropPrefix?, hd.ne (d := '/') ⟨['>'], rfl⟩]
  have hangle : ∀ n, Cursor.consume? ⟨d :: tail, n⟩ ['>'] = none := by
    simp [Cursor.consume?, dropPrefix?, hd.ne (d := '>') ⟨[], rfl⟩]
  -- The reader goes on with the next attribute only after it has moved.
  have hlength : more.length < (' ' :: d :: tail).length := by
    rw [← htext]
    simp only [List.length_append, List.length_cons]
    omega
  rw [readAttributes]
  simp only [hskip, hslash, hangle, hread, List.isEmpty_cons, hlength, if_true]
  cases readAttributes size start tag ⟨more, next⟩ with
  | error e => rfl
  | ok r => rfl

/-- An attribute of a tag is read, and the others after it. -/
private theorem readAttributes_append {a : MarkupAttribute} (h : a.Canonical) (size start : Nat)
    (tag : String) (offset : Nat) (more : List Char) :
    ∃ found next, found.written = a.written ∧
      readAttributes size start tag ⟨a.write ++ more, offset⟩ =
        (readAttributes size start tag ⟨more, next⟩).map fun r => (found :: r.1, r.2) := by
  have hwrite :
      a.write ++
      more = ' ' :: (a.writtenName ++ '=' :: '"' :: (a.writtenValue ++ '"' :: more)) := by
    simp [MarkupAttribute.write]
  rw [hwrite]
  exact readAttributes_quoted (writtenName_ne_nil h)
    (fun c hc => staysInName_of_class (by decide) (isWrittenNameChar_of_mem h c hc))
    (notMem_writtenValue h) size start tag offset more

/-- The attributes of a tag are read up to its end. -/
theorem readAttributes_write {attributes : List MarkupAttribute}
    (h : ∀ a ∈ attributes, a.Canonical) (size start : Nat) (tag : String) (offset : Nat)
    (selfClosing : Bool) (rest : List Char) :
    ∃ found next, found.map Attribute.written = attributes.map MarkupAttribute.written ∧
      readAttributes size start tag
        ⟨attributes.flatMap MarkupAttribute.write ++ (tagEnd selfClosing ++ rest), offset⟩ =
          .ok (found, selfClosing, ⟨rest, next⟩) := by
  induction attributes generalizing offset with
  | nil =>
    rw [readAttributes]
    cases selfClosing with
    | false => exact ⟨[], _, rfl, rfl⟩
    | true => exact ⟨[], _, rfl, rfl⟩
  | cons a attributes ih =>
    obtain ⟨ha, hattributes⟩ := List.forall_mem_cons.1 h
    obtain ⟨found, next, hwritten, hread⟩ := readAttributes_append ha size start tag offset
      (attributes.flatMap MarkupAttribute.write ++ (tagEnd selfClosing ++ rest))
    obtain ⟨others, after, hmap, hothers⟩ := ih hattributes next
    refine ⟨found :: others, after, by rw [List.map_cons, hwritten, hmap, List.map_cons], ?_⟩
    rw [List.flatMap_cons, List.append_assoc, hread, hothers]
    rfl

/-! ### Steps -/

/-- Where a name follows an angle bracket, a step reads a tag. -/
theorem step_tag {size : Nat} {c : Cursor} {d : Char} {rest : List Char}
    (hrest : c.rest = '<' :: d :: rest)
    (hd : isNameStart d = true) : step size c = step.some' (readTag size c) := by
  have hne : ∀ e, isNameStart e = false → d ≠ e := fun e => ne_of_class hd
  have hmark := (hne '!' (by decide)).symm
  have hslash := (hne '/' (by decide)).symm
  simp [step, hrest, startsWith, dropPrefix?, atTag, hmark, hslash, hd]

/-- Where a slash follows an angle bracket, a step reads a closing tag. -/
theorem step_closing {size : Nat} {c : Cursor} {rest : List Char}
    (hrest : c.rest = ['<', '/'] ++ rest) :
    step size c = step.some' (readClosing c) := by
  simp [step, hrest, startsWith, dropPrefix?]

/-- Where two braces open, a step reads an interpolation. -/
theorem step_interpolation {size : Nat} {c : Cursor} {rest : List Char}
    (hrest : c.rest = openBraces ++ rest) :
    step size c = step.some' (readInterpolation size c) := by
  simp [step, hrest, startsWith, dropPrefix?, openBraces, atTag]

/-- Markup starts with an angle bracket and a slash, an exclamation mark or a name. -/
theorem exists_of_atTag {cs : List Char} (h : atTag cs = true) :
    ∃ d rest, cs = '<' :: d :: rest ∧ (d = '/' ∨ d = '!' ∨ isNameStart d = true) := by
  unfold atTag at h
  split at h
  · rename_i d rest
    refine ⟨d, rest, rfl, ?_⟩
    simpa [or_assoc] using h
  · cases h

theorem atTag_of_isNameStart {d : Char} {cs rest : List Char} (hrest : cs = '<' :: d :: rest)
    (hd : isNameStart d = true) : atTag cs = true := by
  subst hrest
  simp [atTag, hd]

theorem atTag_of_startsWith {d : Char} {pre cs : List Char} (hd : d = '/' ∨ d = '!')
    (h : startsWith ('<' :: d :: pre) cs = true) : atTag cs = true := by
  obtain ⟨rest, rfl⟩ := exists_of_startsWith h
  rcases hd with rfl | rfl
  · rfl
  · rfl

/-- Where neither a tag nor an interpolation starts, text is read. -/
theorem step_eq_text {size : Nat} {c : Cursor}
    (h : (atTag c.rest || startsWith openBraces c.rest) = false) :
    step size c = .ok (some (.text c.offset (c.past (takeText c.rest).1 (takeText c.rest).2).offset
        (String.ofList (takeText c.rest).1)), c.past (takeText c.rest).1 (takeText c.rest).2) := by
  obtain ⟨htag, hbraces⟩ := Bool.or_eq_false_iff.1 h
  have hnone : ∀ {d pre}, d = '/' ∨ d = '!' → ¬startsWith ('<' :: d :: pre) c.rest = true :=
    fun hd hstarts => Bool.eq_false_iff.1 htag (atTag_of_startsWith hd hstarts)
  rw [step, if_neg (hnone (.inr rfl)), if_neg (hnone (.inr rfl)), if_neg (hnone (.inl rfl)),
    if_neg (by rw [htag]; exact Bool.false_ne_true),
    if_neg (by rw [hbraces]; exact Bool.false_ne_true)]

/-- Behind a comment the reader goes on past both its marks. -/
theorem past_comment (c : Cursor) (text after : List Char) :
    c.past (['<', '!', '-', '-'] ++ text ++ ['-', '-', '>']) after =
      ⟨after, c.offset + 4 + byteLength text + 3⟩ := by
  have hlength :
      byteLength (['<', '!', '-', '-'] ++ text ++ ['-', '-', '>']) = 4 + byteLength text + 3 := by
    rw [byteLength_append, byteLength_append]
    rfl
  rw [Cursor.past, hlength, ← Nat.add_assoc, ← Nat.add_assoc]

/-- A comment is passed over up to its end, and refused without one. -/
theorem step_comment {size : Nat} {c : Cursor} {rest : List Char}
    (hrest : c.rest = ['<', '!', '-', '-'] ++ rest) :
    step size c = match cut? ['-', '-', '>'] rest with
      | none => .error (.fault c.offset size .unterminatedComment)
      | some (text, after) => .ok (none, ⟨after, c.offset + 4 + byteLength text + 3⟩) := by
  have hstarts : startsWith ['<', '!', '-', '-'] c.rest = true := by
    rw [hrest]
    rfl
  rw [step, if_pos hstarts, hrest]
  rfl

/-- A declaration is passed over up to the next angle bracket, and refused without one. -/
theorem step_declaration {size : Nat} {c : Cursor} {rest : List Char}
    (hcomment : ¬startsWith ['<', '!', '-', '-'] c.rest = true)
    (hrest : c.rest = ['<', '!'] ++ rest) :
    step size c = match cut? ['>'] c.rest with
      | none => .error (.fault c.offset size .unterminatedDeclaration)
      | some (text, after) => .ok (none, c.past (text ++ ['>']) after) := by
  have hstarts : startsWith ['<', '!'] c.rest = true := by
    rw [hrest]
    rfl
  unfold step
  exact (if_neg hcomment).trans (if_pos hstarts)

/-- What can stand in front of a step, in the order the reader looks for it. -/
inductive Ahead (c : Cursor) : Prop where
  | comment {rest : List Char} (hrest : c.rest = ['<', '!', '-', '-'] ++ rest)
  | declaration {rest : List Char} (hcomment : ¬startsWith ['<', '!', '-', '-'] c.rest = true)
    (hrest : c.rest = ['<', '!'] ++ rest)
  | closing {rest : List Char} (hrest : c.rest = ['<', '/'] ++ rest)
  | tag {d : Char} {rest : List Char} (hrest : c.rest = '<' :: d :: rest)
      (hd : isNameStart d = true)
  | interpolation {rest : List Char} (hrest : c.rest = openBraces ++ rest)
  | text (hmarkup : (atTag c.rest || startsWith openBraces c.rest) = false)

/-- One of the kinds of `Ahead` stands before every cursor. -/
theorem ahead (c : Cursor) : Ahead c := by
  cases hmarkup : atTag c.rest || startsWith openBraces c.rest with
  | false => exact .text hmarkup
  | true =>
    rcases Bool.or_eq_true_iff.1 hmarkup with htag | hbraces
    · obtain ⟨d, rest, hrest, rfl | rfl | hd⟩ := exists_of_atTag htag
      · exact .closing hrest
      · by_cases hcomment : startsWith ['<', '!', '-', '-'] c.rest = true
        · obtain ⟨after, hafter⟩ := exists_of_startsWith hcomment
          exact .comment hafter
        · exact .declaration hcomment hrest
      · exact .tag hrest hd
    · obtain ⟨rest, hrest⟩ := exists_of_startsWith hbraces
      exact .interpolation hrest

/-- What a step comes to where it does not fail, by what stands in front of it: it leaves a remark
out, or it reads a token. -/
inductive StepsTo (size : Nat) (c : Cursor) : Option Token → Cursor → Prop where
  | comment {rest text after : List Char} (hrest : c.rest = ['<', '!', '-', '-'] ++ rest)
    (hcut : cut? ['-', '-', '>'] rest = some (text, after)) :
    StepsTo size c none ⟨after, c.offset + 4 + byteLength text + 3⟩
  | declaration {rest text after : List Char}
    (hcomment : ¬startsWith ['<', '!', '-', '-'] c.rest = true)
    (hrest : c.rest = ['<', '!'] ++ rest) (hcut : cut? ['>'] c.rest = some (text, after)) :
    StepsTo size c none (c.past (text ++ ['>']) after)
  | closing {rest : List Char} {token : Token} {next : Cursor} (hrest : c.rest = ['<', '/'] ++ rest)
    (hread : readClosing c = .ok (token, next)) : StepsTo size c (some token) next
  | tag {d : Char} {rest : List Char} {token : Token} {next : Cursor}
    (hrest : c.rest = '<' :: d :: rest)
    (hd : isNameStart d = true) (hread : readTag size c = .ok (token, next)) :
    StepsTo size c (some token) next
  | interpolation {rest : List Char} {token : Token} {next : Cursor}
    (hrest : c.rest = openBraces ++ rest)
    (hread : readInterpolation size c = .ok (token, next)) : StepsTo size c (some token) next
  | text (hmarkup : (atTag c.rest || startsWith openBraces c.rest) = false) :
    StepsTo size c (some (.text c.offset (c.past (takeText c.rest).1 (takeText c.rest).2).offset
      (String.ofList (takeText c.rest).1))) (c.past (takeText c.rest).1 (takeText c.rest).2)

private theorem some'_eq_ok_iff {r : Except Failure (Token × Cursor)} {found : Option Token}
    {next : Cursor} :
    step.some' r = .ok (found, next) ↔ ∃ token, found = some token ∧ r = .ok (token, next) := by
  constructor
  · intro h
    obtain ⟨⟨token, _⟩, hr, heq⟩ := map_eq_ok_iff.1 h
    obtain ⟨rfl, rfl⟩ := Prod.mk.inj heq
    exact ⟨token, rfl, hr⟩
  · rintro ⟨token, rfl, rfl⟩
    rfl

/-- What a step does is one of the cases of `StepsTo`. -/
theorem stepsTo_of_step {size : Nat} {c next : Cursor} {found : Option Token}
    (h : step size c = .ok (found, next)) : StepsTo size c found next := by
  cases ahead c with
  | comment hrest =>
    rw [step_comment hrest] at h
    split at h
    · cases h
    · rename_i text after hcut
      obtain ⟨rfl, rfl⟩ := Prod.mk.inj (Except.ok.inj h)
      exact .comment hrest hcut
  | declaration hcomment hrest =>
    rw [step_declaration hcomment hrest] at h
    split at h
    · cases h
    · rename_i text after hcut
      obtain ⟨rfl, rfl⟩ := Prod.mk.inj (Except.ok.inj h)
      exact .declaration hcomment hrest hcut
  | closing hrest =>
    rw [step_closing hrest] at h
    obtain ⟨token, rfl, hread⟩ := some'_eq_ok_iff.1 h
    exact .closing hrest hread
  | tag hrest hd =>
    rw [step_tag hrest hd] at h
    obtain ⟨token, rfl, hread⟩ := some'_eq_ok_iff.1 h
    exact .tag hrest hd hread
  | interpolation hrest =>
    rw [step_interpolation hrest] at h
    obtain ⟨token, rfl, hread⟩ := some'_eq_ok_iff.1 h
    exact .interpolation hrest hread
  | text hmarkup =>
    rw [step_eq_text hmarkup] at h
    obtain ⟨rfl, rfl⟩ := Prod.mk.inj (Except.ok.inj h)
    exact .text hmarkup

/-- In each of the cases of `StepsTo` a step does what the case says. -/
theorem StepsTo.step_eq {size : Nat} {c next : Cursor} {found : Option Token}
    (h : StepsTo size c found next) : step size c = .ok (found, next) := by
  cases h with
  | comment hrest hcut => rw [step_comment hrest, hcut]
  | declaration hcomment hrest hcut => rw [step_declaration hcomment hrest, hcut]
  | closing hrest hread =>
    rw [step_closing hrest, hread]
    rfl
  | tag hrest hd hread =>
    rw [step_tag hrest hd, hread]
    rfl
  | interpolation hrest hread =>
    rw [step_interpolation hrest, hread]
    rfl
  | text hmarkup => exact step_eq_text hmarkup

/-- The steps that do not fail, one case for each kind of text in front of them. -/
theorem step_eq_ok_iff {size : Nat} {c next : Cursor} {found : Option Token} :
    step size c = .ok (found, next) ↔ StepsTo size c found next :=
  ⟨stepsTo_of_step, StepsTo.step_eq⟩

/-! ### Tags -/

private theorem not_isNameChar_of_attributes (attributes : List MarkupAttribute)
    (selfClosing : Bool) (rest : List Char) :
    ∀ c ∈ (attributes.flatMap MarkupAttribute.write ++ (tagEnd selfClosing ++ rest)).head?,
      isNameChar c = false := by
  intro c hc
  cases attributes with
  | nil =>
    cases selfClosing with
    | false =>
      obtain rfl := Option.some.inj hc
      rfl
    | true =>
      obtain rfl := Option.some.inj hc
      rfl
  | cons a attributes =>
    obtain rfl := Option.some.inj hc
    rfl

/-- The tag of an element or component is read up to its end. -/
theorem readTag_writeTag {name : String} (hname : isTagName name = true)
    (hraw : isRawTextElement name = false) {attributes : List MarkupAttribute}
    (hattributes : ∀ a ∈ attributes, a.Canonical) (size offset : Nat) (selfClosing : Bool)
    (rest : List Char) :
    ∃ found stop, found.map Attribute.written = attributes.map MarkupAttribute.written ∧
      readTag size ⟨writeTag name attributes ++ (tagEnd selfClosing ++ rest), offset⟩ =
        .ok ((if selfClosing || isVoidElement name then Token.leaf else Token.opening)
          ⟨name, found, offset, stop⟩, ⟨rest, stop⟩) := by
  simp only [isTagName, Bool.and_eq_true, List.all_eq_true, Bool.not_eq_true'] at hname
  obtain ⟨⟨-, hchars⟩, hdirective⟩ := hname
  have hend := not_isNameChar_of_attributes attributes selfClosing rest
  obtain ⟨found, stop, hwritten, hread⟩ := readAttributes_write hattributes size offset name
    (offset + byteLength ['<'] + byteLength name.toList) selfClosing rest
  refine ⟨found, stop, hwritten, ?_⟩
  rw [writeTag, List.cons_append, List.append_assoc]
  simp only [readTag, Cursor.past, List.drop_succ_cons, List.drop_zero,
    Cursor.skipWhile_append hchars hend, takeWhile_append hchars hend, String.ofList_toList,
    hdirective, hread, hraw]
  cases selfClosing || isVoidElement name with
  | false => rfl
  | true => rfl

theorem isNameChar_of_mem_directive {d : Directive} : ∀ c ∈ d.name.toList, isNameChar c = true := by
  cases d with
  | conditional negated p => exact List.all_eq_true.1 (rfl : "w:if".toList.all isNameChar = true)
  | repeating l => exact List.all_eq_true.1 (rfl : "w:for".toList.all isNameChar = true)

theorem hasPrefix_directive (d : Directive) : hasPrefix "w:" d.name = true := by
  cases d with
  | conditional negated p => exact (by decide : hasPrefix "w:" "w:if" = true)
  | repeating l => exact (by decide : hasPrefix "w:" "w:for" = true)

/-- The body of a directive is read back from its written form. -/
theorem readDirective_body {d : Directive} {spec : String} (h : d.IsReadFrom spec)
    (read : String → Except DirectiveError Directive) (hread : read (trim spec) = .ok d)
    (size start : Nat) (name : String) (offset : Nat) (rest : List Char) :
    ∃ tag : DirectiveTag, tag.directive = d ∧ tag.spec = trim spec ∧
      readDirective.body size start name ⟨' ' :: (spec.toList ++ '>' :: rest), offset⟩ read =
        .ok (.directive tag false, ⟨rest, tag.stop⟩) := by
  have hangle : '>' ∉ ' ' :: spec.toList := by simpa using h.notMem (.inl rfl)
  have hcut : cut? ['>'] (' ' :: (spec.toList ++ '>' :: rest)) = some (' ' :: spec.toList, rest) :=
    cut?_append hangle rest
  -- A slash at the end would close the directive at once.
  have hslash : (' ' :: spec.toList).getLast? ≠ some '/' := by
    intro hlast
    have hmem := List.mem_of_getLast? hlast
    simp only [List.mem_cons, Char.reduceEq, false_or] at hmem
    exact h.notMem (.inr (.inl rfl)) hmem
  have htrim : String.ofList (trimBlank (' ' :: spec.toList)) = trim spec := by
    rw [trimBlank_cons_of_isBlank rfl, trim]
  simp only [readDirective.body, hcut, hslash, decide_false, if_false, htrim, hread]
  exact ⟨_, rfl, rfl, rfl⟩

/-- A directive is read back from its written form, with the trimmed text of it. -/
private theorem readDirective_spec {d : Directive} {spec : String} (h : d.IsReadFrom spec)
    (size start offset : Nat) (rest : List Char) :
    ∃ tag : DirectiveTag, tag.directive = d ∧ tag.spec = trim spec ∧
      readDirective size start d.name ⟨' ' :: (spec.toList ++ '>' :: rest), offset⟩ =
        .ok (.directive tag false, ⟨rest, tag.stop⟩) := by
  cases d with
  | conditional negated p =>
    rw [Directive.name, readDirective, if_pos rfl]
    exact readDirective_body h _ (Directive.isReadFrom_conditional_iff.1 h.trim) size start
      _ offset rest
  | repeating l =>
    rw [Directive.name, readDirective, if_neg (by decide), if_pos rfl]
    refine readDirective_body h _ ?_ size start _ offset rest
    rw [Directive.isReadFrom_repeating_iff.1 h.trim]
    rfl

/-- The tag of a directive is read up to its end. -/
theorem readTag_directive {d : Directive} {spec : String} (h : d.IsReadFrom spec)
    (size offset : Nat) (rest : List Char) :
    ∃ tag : DirectiveTag, tag.directive = d ∧ tag.spec = trim spec ∧
      readTag size ⟨'<' :: (d.name.toList ++ ' ' :: (spec.toList ++ '>' :: rest)), offset⟩ =
        .ok (.directive tag false, ⟨rest, tag.stop⟩) := by
  have hspace : ∀ c ∈ (' ' :: (spec.toList ++ '>' :: rest)).head?, isNameChar c = false := by
    intro c hc
    obtain rfl := Option.some.inj hc
    rfl
  simp only [readTag, Cursor.past, List.drop_succ_cons, List.drop_zero,
    Cursor.skipWhile_append isNameChar_of_mem_directive hspace,
    takeWhile_append isNameChar_of_mem_directive hspace, String.ofList_toList,
    hasPrefix_directive, if_true]
  exact readDirective_spec h size offset _ rest

/-- A closing tag is read back from its written form. -/
theorem readClosing_append {name : List Char} (hname : ∀ c ∈ name, isNameChar c = true)
    (offset : Nat) (rest : List Char) :
    ∃ stop, readClosing ⟨'<' :: '/' :: (name ++ '>' :: rest), offset⟩ =
      .ok (.closing (String.ofList name) offset stop, ⟨rest, stop⟩) := by
  have hangle : ∀ c ∈ ('>' :: rest).head?, isNameChar c = false := by
    intro c hc
    obtain rfl := Option.some.inj hc
    rfl
  simp only [readClosing, Cursor.past, List.drop_succ_cons, List.drop_zero,
    Cursor.skipWhile_append hname hangle, takeWhile_append hname hangle]
  exact ⟨_, rfl⟩

/-! ### Interpolations and text -/

/-- An interpolation ends at the first braces outside string literals. -/
private theorem cutInterpolation_append {state : Quoting} {cs : List Char}
    (hclosed : cs.foldl Quoting.next state = .outside)
    (hunbraced : ∀ before after, cs = before ++ '\x7d' :: '\x7d' :: after →
      before.foldl Quoting.next state ≠ .outside) (rest : List Char) :
    cutInterpolation state (cs ++ ' ' :: '\x7d' :: '\x7d' :: rest) = some (cs ++ [' '], rest) := by
  induction cs generalizing state with
  | nil =>
    obtain rfl : state = .outside := hclosed
    rfl
  | cons c cs ih =>
    have hhere : (decide (state = .outside) && decide (c = '\x7d') &&
        decide ((cs ++ ' ' :: '\x7d' :: '\x7d' :: rest).head? = some '\x7d')) = false := by
      refine Bool.eq_false_iff.2 fun hall => ?_
      simp only [Bool.and_eq_true, decide_eq_true_eq] at hall
      obtain ⟨⟨hstate, rfl⟩, hhead⟩ := hall
      -- After the last character comes a blank, so both braces would stand in the value.
      cases cs with
      | nil => cases hhead
      | cons d cs =>
        obtain rfl := Option.some.inj hhead
        exact hunbraced [] cs rfl hstate
    have hrest : ∀ before after, cs = before ++ '\x7d' :: '\x7d' :: after →
        before.foldl Quoting.next (state.next c) ≠ .outside := by
      intro before after heq
      exact hunbraced (c :: before) after (by rw [heq, List.cons_append])
    rw [List.cons_append, cutInterpolation, hhere, ih hclosed hrest]
    rfl

/-- An interpolation is read back from its written form. -/
theorem readInterpolation_append {v : Value} (h : v.Writable false) (size offset : Nat)
    (rest : List Char) :
    ∃ stop, readInterpolation size
        ⟨openBraces ++ ' ' :: (v.render.toList ++ ' ' :: '\x7d' :: '\x7d' :: rest), offset⟩ =
      .ok (.interpolation offset stop v, ⟨rest, stop⟩) := by
  have hcut : cutInterpolation .outside
      (' ' :: (v.render.toList ++ ' ' :: '\x7d' :: '\x7d' :: rest)) =
        some (' ' :: (v.render.toList ++ [' ']), rest) := by
    rw [cutInterpolation, if_neg (by simp)]
    change (cutInterpolation .outside _).map _ = _
    rw [cutInterpolation_append h.closed h.unbraced]
    rfl
  have hread : readExpression false (' ' :: (v.render.toList ++ [' '])) = .ok v := by
    obtain ⟨source, hsource⟩ := h.read
    rw [← readExpression_render hsource]
    refine readExpression_congr ?_
    rw [trimBlank_cons_of_isBlank rfl, trimBlank_concat_of_isBlank rfl]
  have hdrop : (openBraces ++ ' ' :: (v.render.toList ++ ' ' :: '\x7d' :: '\x7d' :: rest)).drop 2 =
      ' ' :: (v.render.toList ++ ' ' :: '\x7d' :: '\x7d' :: rest) := rfl
  simp only [readInterpolation, hdrop, hcut, hread]
  exact ⟨_, rfl⟩

/-- A tag, an interpolation or the end of the template stands here. -/
def Starts (cs : List Char) : Prop := takeText cs = ([], cs)

theorem Starts.of_atTag {cs : List Char} (h : atTag cs = true) : Starts cs := by
  cases cs with
  | nil => rfl
  | cons c cs => rw [Starts, takeText, h, Bool.true_or, if_pos rfl]

theorem Starts.of_openBraces (cs : List Char) : Starts (openBraces ++ cs) := by
  rfl

theorem not_atTag_cons {c : Char} (h : '<' ≠ c) (cs : List Char) : atTag (c :: cs) = false := by
  unfold atTag
  split
  · rename_i heq
    exact absurd (List.cons.inj heq).1.symm h
  · rfl

private theorem not_startsWith_cons {c d : Char} (h : c ≠ d) (cs ds : List Char) :
    startsWith (c :: cs) (d :: ds) = false := by
  simp [startsWith, dropPrefix?, h]

/-- Text without angle brackets and braces is taken up to where something else starts. -/
private theorem takeText_append {text : List Char} (hangle : '<' ∉ text) (hbrace : '\x7b' ∉ text)
    {rest : List Char} (hrest : Starts rest) : takeText (text ++ rest) = (text, rest) := by
  induction text with
  | nil => exact hrest
  | cons c text ih =>
    obtain ⟨hc, hangle⟩ := List.ne_and_not_mem_of_not_mem_cons hangle
    obtain ⟨hc', hbrace⟩ := List.ne_and_not_mem_of_not_mem_cons hbrace
    rw [List.cons_append, takeText, not_atTag_cons hc, openBraces, not_startsWith_cons hc',
      ih hangle hbrace]
    rfl

/-- A text is read up to the next tag or interpolation. -/
theorem step_text {content : String} (h : content ≠ "") {rest : List Char} (hrest : Starts rest)
    (size offset : Nat) :
    ∃ stop, step size ⟨encode content ++ rest, offset⟩ =
      .ok (some (.text offset stop (String.ofList (encode content))), ⟨rest, stop⟩) := by
  have hangle : '<' ∉ encode content := notMem_encode (.inl rfl)
  have hbrace : '\x7b' ∉ encode content := notMem_encode (.inr (.inr rfl))
  have htake := takeText_append hangle hbrace hrest
  obtain ⟨c, cs, hcs⟩ := List.exists_cons_of_ne_nil (encode_ne_nil h)
  have hc : '<' ≠ c := by
    rintro rfl
    exact hangle (hcs ▸ List.mem_cons_self)
  have hc' : '\x7b' ≠ c := by
    rintro rfl
    exact hbrace (hcs ▸ List.mem_cons_self)
  have hmarkup :
      (atTag (encode content ++ rest) || startsWith openBraces (encode content ++ rest)) =
      false := by
    rw [hcs, List.cons_append, openBraces, not_startsWith_cons hc', not_atTag_cons hc]
    rfl
  have hstep : step size ⟨encode content ++ rest, offset⟩ = _ := step_eq_text hmarkup
  rw [htake] at hstep
  exact ⟨_, hstep⟩

/-! ### Sequences of tokens -/

/-- What is read after some tokens. -/
def Scan.after (tokens : List Token) (s : Scan) : Scan := ⟨tokens ++ s.tokens, s.failure⟩

theorem Scan.after_after (tokens tokens' : List Token) (s : Scan) :
    (s.after tokens').after tokens = s.after (tokens ++ tokens') := by
  rw [Scan.after, Scan.after, Scan.after, List.append_assoc]

/-- A scan goes on behind a token that is read. -/
theorem scanFrom_of_step {size offset next : Nat} {cs rest : List Char} {token : Token}
    (h : step size ⟨cs ++ rest, offset⟩ = .ok (some token, ⟨rest, next⟩)) (hcs : cs ≠ []) :
    scanFrom size ⟨cs ++ rest, offset⟩ = (scanFrom size ⟨rest, next⟩).after [token] := by
  rw [scanFrom]
  simp [h, hcs, Scan.after, List.length_pos_iff]

/-- A scan goes on behind a comment or a declaration. -/
theorem scanFrom_of_skip {size offset next : Nat} {cs rest : List Char}
    (h : step size ⟨cs ++ rest, offset⟩ = .ok (none, ⟨rest, next⟩)) (hcs : cs ≠ []) :
    scanFrom size ⟨cs ++ rest, offset⟩ = scanFrom size ⟨rest, next⟩ := by
  rw [scanFrom]
  simp [h, hcs, List.length_pos_iff]

/-! ### A single tag -/

/-- A closed tag without attributes is read as it stands. -/
private theorem readTag_leaf {name : String} (hname : isTagName name = true) (size offset : Nat) :
    readTag size ⟨'<' :: (name.toList ++ ['/', '>']), offset⟩ =
      .ok (.leaf ⟨name, [], offset, offset + byteLength name.toList + 3⟩,
        ⟨[], offset + byteLength name.toList + 3⟩) := by
  simp only [isTagName, Bool.and_eq_true, List.all_eq_true, Bool.not_eq_true'] at hname
  obtain ⟨⟨-, hchars⟩, hdirective⟩ := hname
  have hend : ∀ c ∈ ['/', '>'].head?, isNameChar c = false := fun _ hc => Option.some.inj hc ▸ rfl
  have hread : readAttributes size offset name
      ⟨['/', '>'], offset + byteLength ['<'] + byteLength name.toList⟩ =
        .ok ([], true, ⟨[], offset + byteLength name.toList + 3⟩) := by
    have hopen : byteLength ['<'] = 1 := rfl
    have hclose : byteLength ['/', '>'] = 2 := rfl
    have hstop : offset + byteLength name.toList + 3 =
        offset + byteLength ['<'] + byteLength name.toList + byteLength ['/', '>'] := by omega
    rw [readAttributes, hstop]
    rfl
  simp only [readTag, Cursor.past, List.drop_succ_cons, List.drop_zero,
    Cursor.skipWhile_append hchars hend, takeWhile_append hchars hend, String.ofList_toList,
    hdirective, hread]
  rfl

/-- A template that is one closed tag without attributes is one token. -/
theorem scan_leaf {name : String} (hname : isTagName name = true) :
    scan ('<' :: (name.toList ++ ['/', '>'])) =
      ⟨[.leaf ⟨name, [], 0, byteLength name.toList + 3⟩], none⟩ := by
  obtain ⟨size, hsize⟩ :
      ∃ size, byteLength ('<' :: (name.toList ++ ['/', '>'])) = size := ⟨_, rfl⟩
  obtain ⟨c, cs, hcons, hc⟩ : ∃ c cs, name.toList = c :: cs ∧ isNameStart c = true := by
    cases hlist : name.toList with
    | nil => simp [isTagName, hlist] at hname
    | cons c cs =>
      simp only [isTagName, hlist, Bool.and_eq_true] at hname
      exact ⟨c, cs, rfl, hname.1.1⟩
  have hstep : step size ⟨'<' :: (name.toList ++ ['/', '>']) ++ [], 0⟩ =
      .ok (some (.leaf ⟨name, [], 0, byteLength name.toList + 3⟩),
        ⟨[], byteLength name.toList + 3⟩) := by
    have hread := readTag_leaf hname size 0
    rw [Nat.zero_add, hcons] at hread
    rw [List.append_nil, hcons, List.cons_append, step_tag (c := ⟨_, 0⟩) rfl hc,
      ← List.cons_append, hread]
    rfl
  have hscan := scanFrom_of_step hstep (List.cons_ne_nil _ _)
  rw [List.append_nil] at hscan
  rw [scan, hsize, hscan, scanFrom]
  rfl

end ViewCompiler.Template
