import ViewCompiler.Proofs.Template.Shift
import ViewCompiler.Proofs.Template.Steps
import ViewCompiler.Proofs.Template.Totality
import ViewCompiler.Proofs.Text.Pieces

/-!
# Raw text

The body of a `script` or `style` element is taken as it stands, up to the closing tag. The reader
looks for that tag in the lower case form of the template, and takes its place there for its place
in the template. So a body is taken as it stands exactly if the two are the same
(`takenVerbatim_iff`), and a body with a character that takes more bytes in lower case may be
misread (`exists_not_takenVerbatim`).

What is asked of a body is stated without the reader: nothing in it may be taken for the closing
tag, in any mixture of cases (`ContainsClosing`), and its lower case form has as many bytes as
itself up to the closing tag (`ClosesAtEnd`). The first is what ends raw text in every reader of
markup. The second is about lower case forms: almost every character has one of its own length, and
the few others are the reason for all that is said here.

Where the lengths differ the body is cut too late or too early, and then what follows it is not the
closing tag. So the equivalence holds in both directions: either the element is read with its body,
or it is refused, or its body is another one.

The sample body is `Ⱥ`, two bytes long and three in lower case.
-/

namespace ViewCompiler.Template

open ViewCompiler.Text

/-! ### Raw text elements -/

/-- A raw text element as it is written. -/
def writeRawText (name body : String) : String := "<" ++ name ++ ">" ++ body ++ "</" ++ name ++ ">"

/-- Where the body of a raw text element starts. -/
def bodyStart (name : String) : Nat := ("<" ++ name ++ ">").utf8ByteSize

/-- The node of a raw text element at the start of a template: its one child is the body, at the
place of the body, unless that is empty. -/
def rawTextNode (source : Source) (name body : String) : Node :=
  .element (source.span 0 (writeRawText name body).utf8ByteSize) name []
    (if body = "" then []
    else [.text (source.span (bodyStart name) (bodyStart name + body.utf8ByteSize)) body])

/-- Whatever follows it, a raw text element is read exactly if that is read, and then as the element
with its body as it stands and the nodes of what follows, with their positions behind the
element. -/
def TakenVerbatim (component name body : String) : Prop :=
  ∀ suffix nodes, parse component (writeRawText name body ++ suffix) = .ok nodes ↔
    ∃ after, parse component suffix = .ok after ∧
      nodes = rawTextNode (.ofText (writeRawText name body ++ suffix).toList) name body ::
        relocateAll (Span.behind (writeRawText name body).toList) after

/-- The closing tag of an element, without its angle bracket. -/
def closing (name : String) : List Char := '<' :: '/' :: name.toList

/-- The closing tag of an element occurs in a body, in whatever case its ASCII letters are. -/
def ContainsClosing (name body : String) : Prop := closing name <:+: body.toList.map Char.toLower

instance (name body : String) : Decidable (ContainsClosing name body) :=
  inferInstanceAs (Decidable (_ <:+: _))

/-- What follows the opening tag of a raw text element. -/
def bodyAndClosing (name body : String) : List Char := body.toList ++ closing name ++ ['>']

/-- In the lower case form of a body and the closing tag behind it, the tag is found as many bytes
behind the start as the body has. -/
def ClosesAtEnd (name body : String) : Prop :=
  ∃ before after, cut? (closing name) ((bodyAndClosing name body).map lowerChar) =
    some (before, after) ∧
    byteLength before = body.utf8ByteSize

private theorem toList_writeRawText (name body : String) :
    (writeRawText name body).toList = '<' :: (name.toList ++ '>' :: bodyAndClosing name body) := by
  simp [writeRawText, bodyAndClosing, closing]

private theorem byteLength_writeRawText (name body : String) :
    byteLength (writeRawText name body).toList =
    bodyStart name + byteLength (bodyAndClosing name body) := by
  have happend : (writeRawText name body).toList =
      ("<" ++ name ++ ">").toList ++ bodyAndClosing name body := by
    simp [writeRawText, bodyAndClosing, closing]
  rw [happend, byteLength_append, bodyStart, utf8ByteSize_eq]

/-! ### Cutting -/

/-- Cutting off as many bytes as a text has cuts off the text. -/
theorem cutBytes_append (taken rest : List Char) :
    cutBytes (byteLength taken) (taken ++ rest) = (taken, some rest) := by
  induction taken with
  | nil =>
    rw [byteLength, cutBytes]
    rfl
  | cons c taken ih =>
    obtain ⟨n, hn⟩ : ∃ n, byteLength (c :: taken) = n + 1 :=
      Nat.exists_eq_add_one.2 (byteLength_pos (List.cons_ne_nil c taken))
    have hsize := hn
    rw [byteLength] at hsize
    have hrest : n + 1 - c.utf8Size = byteLength taken := by omega
    rw [hn, List.cons_append, cutBytes, if_pos (by omega), hrest, ih]

/-- Mapping characters keeps the length in bytes if it keeps that of every character. -/
theorem byteLength_map_eq {cs : List Char} {f : Char → Char}
    (h : ∀ c ∈ cs, (f c).utf8Size = c.utf8Size) : byteLength (cs.map f) = byteLength cs := by
  induction cs with
  | nil => rfl
  | cons c cs ih =>
    obtain ⟨hc, hcs⟩ := List.forall_mem_cons.1 h
    rw [List.map_cons, byteLength, byteLength, hc, ih hcs]

/-! ### Reading -/

private theorem eq_of_mem_rawTextElements {name : String} (h : name ∈ rawTextElements) :
    name = "script" ∨ name = "style" := by
  simpa [rawTextElements] using h

/-- What closes an element with raw text is sought in lower case. -/
theorem map_lowerChar_closing_eq_rawClosing (tag : Tag) :
    (closing tag.name).map lowerChar = tag.rawClosing := by
  rw [closing, Tag.rawClosing, List.map_cons, List.map_cons]
  rfl

private theorem utf8Size_of_isNameChar {c : Char} (h : isNameChar c = true) : c.utf8Size = 1 := by
  have halphanum : c.isAlphanum = (decide (65 ≤ c.val ∧ c.val ≤ 90) ||
    (decide (97 ≤ c.val) && decide (c.val ≤ 122)) ||
      (decide (48 ≤ c.val) && decide (c.val ≤ 57))) := rfl
  simp only [isNameChar, halphanum, Bool.or_eq_true, Bool.and_eq_true,
    decide_eq_true_eq, beq_iff_eq,
    UInt32.le_iff_toNat_le] at h
  rcases h with (((halnum | rfl) | rfl) | rfl) | rfl
  · rw [Char.utf8Size_eq_one_iff, UInt32.le_iff_toNat_le]
    simp only [UInt32.reduceToNat] at halnum ⊢
    omega
  all_goals rfl

section Reading

variable {name : String} (hname : name ∈ rawTextElements)
include hname

private theorem map_lowerChar_closing : (closing name).map lowerChar = closing name := by
  rcases eq_of_mem_rawTextElements hname with rfl | rfl <;> decide +kernel

private theorem rawClosing_eq {tag : Tag} (htag : tag.name = name) :
    tag.rawClosing = closing name := by
  rw [← map_lowerChar_closing hname, Tag.rawClosing, htag]
  rfl

private theorem utf8Size_of_mem_closing : ∀ c ∈ closing name, c.utf8Size = 1 := by
  have hall : ((closing name).all (·.utf8Size == 1)) = true := by
    rcases eq_of_mem_rawTextElements hname with rfl | rfl <;> rfl
  exact fun c hc => by simpa using List.all_eq_true.1 hall c hc

/-- The closing tag of an element takes as many bytes in whatever case the letters of the element
are. -/
private theorem byteLength_closing {tag : Tag} (htag : tag.rawClosing = closing name)
    (hchars : ∀ c ∈ tag.name.toList, isNameChar c = true) :
    byteLength (closing tag.name) = byteLength (closing name) := by
  rw [← htag, ← map_lowerChar_closing_eq_rawClosing]
  refine (byteLength_map_eq fun c hc => ?_).symm
  have hlower : (lowerChar c).utf8Size = 1 := by
    refine utf8Size_of_mem_closing hname _ ?_
    rw [← htag, ← map_lowerChar_closing_eq_rawClosing]
    exact List.mem_map_of_mem hc
  rw [hlower]
  rcases List.mem_cons.1 hc with rfl | hc
  · rfl
  · rcases List.mem_cons.1 hc with rfl | hc
    · rfl
    · exact (utf8Size_of_isNameChar (hchars c hc)).symm

private theorem isComponentName_of_mem : isComponentName name = false := by
  rcases eq_of_mem_rawTextElements hname with rfl | rfl <;> decide

private theorem isNameChar_of_mem : ∀ c ∈ name.toList, isNameChar c = true := by
  rcases eq_of_mem_rawTextElements hname with rfl | rfl <;> exact List.all_eq_true.1 rfl

/-- The opening tag of a raw text element is read up to its end. -/
private theorem opensRawText (size : Nat) (rest : List Char) :
    OpensRawText size ⟨'<' :: (name.toList ++ '>' :: rest), 0⟩ ⟨name, [], 0, bodyStart name⟩
      ⟨rest, bodyStart name⟩ := by
  rcases eq_of_mem_rawTextElements hname with rfl | rfl
  · exact ⟨rfl, rfl, by decide +kernel, by rw [readAttributes]; rfl, rfl, rfl⟩
  · exact ⟨rfl, rfl, by decide +kernel, by rw [readAttributes]; rfl, rfl, rfl⟩

/-- A step reads the whole of a written element with raw text. -/
theorem step_rawText (size : Nat) (rest : List Char) :
    step size ⟨'<' :: (name.toList ++ '>' :: rest), 0⟩ =
      step.some' (readRawText size ⟨name, [], 0, bodyStart name⟩ ⟨rest, bodyStart name⟩) := by
  have hopens := opensRawText hname size rest
  obtain ⟨d, more, hrest, hd⟩ := hopens.exists_isNameStart
  rw [← hopens.readTag_eq]
  change '<' :: (name.toList ++ '>' :: rest) = _ at hrest
  rw [hrest]
  exact step_tag rfl hd

/-- A raw text element whose closing tag is found at the end of its body is read up to its end. -/
theorem readRawText_of_closesAtEnd {body : String} (h : ClosesAtEnd name body) {tag : Tag}
    (htag : tag.rawClosing = closing name) (hchars : ∀ c ∈ tag.name.toList, isNameChar c = true)
    {size offset : Nat} (hsize : offset + byteLength (bodyAndClosing tag.name body) ≤ size)
    (suffix : List Char) :
    readRawText size tag ⟨bodyAndClosing tag.name body ++ suffix, offset⟩ =
      .ok (.verbatim tag offset (offset + body.utf8ByteSize) body
          (offset + byteLength (bodyAndClosing tag.name body)),
        ⟨suffix, offset + byteLength (bodyAndClosing tag.name body)⟩) := by
  obtain ⟨before, after, hcut, hlength⟩ := h
  have hsame :
      (bodyAndClosing name body).map lowerChar = (bodyAndClosing tag.name body).map lowerChar := by
    rw [bodyAndClosing, bodyAndClosing, List.map_append, List.map_append, List.map_append,
      List.map_append,
      map_lowerChar_closing hname, map_lowerChar_closing_eq_rawClosing, htag]
  have hfound := cut?_append_text (hsame ▸ hcut) (suffix.map lowerChar)
  rw [← List.map_append] at hfound
  have hclosing : '<' :: '/' :: tag.name.toList.map lowerChar = closing name := htag
  have hbytes := byteLength_closing hname htag hchars
  have hbody : cutBytes (byteLength before) (bodyAndClosing tag.name body ++ suffix) =
      (body.toList, some (closing tag.name ++ ['>'] ++ suffix)) := by
    rw [hlength, utf8ByteSize_eq, bodyAndClosing, List.append_assoc, List.append_assoc,
      cutBytes_append,
      List.append_assoc]
  have hclosed : cutBytes (byteLength before + byteLength (closing name))
      (bodyAndClosing tag.name body ++ suffix) =
        (body.toList ++ closing tag.name, some ('>' :: suffix)) := by
    rw [hlength, utf8ByteSize_eq, ← hbytes, ← byteLength_append, bodyAndClosing, List.append_assoc,
      cutBytes_append]
    rfl
  have hend : ∀ n, (Cursor.skipSpace ⟨'>' :: suffix, n⟩).consume? ['>'] =
      some ⟨suffix, n + byteLength ['>']⟩ := fun _ => rfl
  have hstop : byteLength (bodyAndClosing tag.name body) =
      byteLength before + (byteLength (closing name) + byteLength ['>']) := by
    rw [bodyAndClosing, byteLength_append, byteLength_append, hlength, utf8ByteSize_eq, hbytes,
      Nat.add_assoc]
  unfold readRawText
  simp only [hclosing, hfound, hbody, hclosed, hend]
  rw [if_neg (by omega), String.ofList_toList, hstop, hlength]
  simp only [Nat.add_assoc]

/-- An element with raw text is finished without bindings. -/
theorem finishTag_rawText (source : Source) (children : List Node) (start stop stop' : Nat) :
    finishTag source ⟨name, [], start, stop⟩ children stop' =
      .ok (.element (source.span start stop') name [] children) := by
  simp only [finishTag, isComponentName_of_mem hname, bindAttributes]
  rfl

end Reading

/-! ### The element -/

/-- The token of a raw text element at the start of a template. -/
def rawTextToken (name body : String) : Token :=
  .verbatim ⟨name, [], 0, bodyStart name⟩ (bodyStart name) (bodyStart name + body.utf8ByteSize) body
    (writeRawText name body).utf8ByteSize

/-- Raw text is one text node, or none where it is empty. -/
theorem verbatimBody_eq (source : Source) (start : Nat) (body : String) :
    verbatimBody source start (start + body.utf8ByteSize) body =
      if body = "" then [] else [.text (source.span start (start + body.utf8ByteSize)) body] := by
  simp only [verbatimBody, Nat.add_eq_left, String.utf8ByteSize_eq_zero_iff]

/-- Pruning leaves raw text alone. -/
theorem pruneFrom_verbatimBody (source : Source) (start stop : Nat) (body : String) :
    pruneFrom true (verbatimBody source start stop body) = verbatimBody source start stop body := by
  unfold verbatimBody
  split
  · rfl
  · rfl

/-- Where a body stops can be told from its node, or from its having none. -/
private theorem stop_eq_of_verbatimBody {source : Source} {start stop stop' : Nat}
    {body body' : String}
    (h : verbatimBody source start stop body = verbatimBody source start stop' body') :
    stop = stop' := by
  unfold verbatimBody at h
  split at h
  · rename_i hstop
    split at h
    · rename_i hstop'
      exact hstop.trans hstop'.symm
    · cases h
  · split at h
    · cases h
    · have hspan := (Node.text.inj (List.cons.inj h).1).1
      exact congrArg (·.stop.offset) hspan

section Element

variable {name body : String} (hname : name ∈ rawTextElements)
include hname

/-- A written element with raw text is scanned as one token in front of what follows. -/
private theorem scan_rawText (h : ClosesAtEnd name body) (suffix : String) :
    scan (writeRawText name body ++ suffix).toList =
      ((scan suffix.toList).shift (byteLength (writeRawText name body).toList)).after
        [rawTextToken name body] := by
  have hlength := byteLength_writeRawText name body
  have hstep : step (byteLength (writeRawText name body).toList + byteLength suffix.toList)
      ⟨(writeRawText name body).toList ++ suffix.toList, 0⟩ =
        .ok (some (rawTextToken name body),
          ⟨suffix.toList, byteLength (writeRawText name body).toList⟩) := by
    have htag : Tag.rawClosing ⟨name, [], 0, bodyStart name⟩ = closing name :=
      rawClosing_eq hname rfl
    have hread := readRawText_of_closesAtEnd hname h htag (isNameChar_of_mem hname)
      (Nat.le_trans (Nat.le_of_eq hlength.symm) (Nat.le_add_right _ (byteLength suffix.toList)))
      suffix.toList
    rw [← hlength] at hread
    have happend : (writeRawText name body).toList ++ suffix.toList =
        '<' :: (name.toList ++ '>' :: (bodyAndClosing name body ++ suffix.toList)) := by
      rw [toList_writeRawText]
      simp
    rw [happend, step_rawText hname, hread, rawTextToken, utf8ByteSize_eq (writeRawText name body)]
    rfl
  have hne : (writeRawText name body).toList ≠ [] := by
    rw [toList_writeRawText]
    exact List.cons_ne_nil _ _
  rw [scan, String.toList_append, byteLength_append, scanFrom_of_step hstep hne, scan,
    ← scanFrom_shift]
  rfl

/-- An element whose closing tag is found at the end of its body is taken as it stands. -/
theorem takenVerbatim_of_closesAtEnd (component : String) (h : ClosesAtEnd name body) :
    TakenVerbatim component name body := by
  intro suffix nodes
  have hmakes :
      (rawTextToken name body).Makes (.ofText (writeRawText name body ++ suffix).toList) _ :=
    .verbatim (finishTag_rawText hname _ _ 0 _ _)
  rw [parse_append_iff (scan_rawText hname h suffix) hmakes rfl, Node.prune, pruneFrom_verbatimBody,
    verbatimBody_eq, rawTextNode]

/-- A scan that starts with the tag of raw text starts by reading the raw text. -/
private theorem exists_of_scan {rest : List Char}
    (h : (scan ('<' :: (name.toList ++ '>' :: rest))).failure = none) :
    ∃ size token next tokens,
      readRawText size ⟨name, [], 0, bodyStart name⟩ ⟨rest, bodyStart name⟩ =
      .ok (token, next) ∧ (scan ('<' :: (name.toList ++ '>' :: rest))).tokens =
        token :: tokens := by
  obtain ⟨size, hsize⟩ : ∃ size, byteLength ('<' :: (name.toList ++ '>' :: rest)) = size := ⟨_, rfl⟩
  have hne : ¬('<' :: (name.toList ++ '>' :: rest)).isEmpty = true := Bool.false_ne_true
  rw [scan, hsize, scanFrom, if_neg hne, step_rawText hname] at h ⊢
  cases hread : readRawText size ⟨name, [], 0, bodyStart name⟩ ⟨rest, bodyStart name⟩ with
  | error e =>
    rw [hread] at h
    cases h
  | ok found =>
    obtain ⟨token, next⟩ := found
    refine ⟨size, token, next, ?_⟩
    simp only [step.some', Except.map]
    split
    · exact ⟨_, hread, rfl⟩
    · exact ⟨[], hread, rfl⟩

/-- If the element alone is taken as it stands, its closing tag is found at the end of its body. -/
private theorem closesAtEnd_of_parse {component : String}
    (h : parse component (writeRawText name body) =
      .ok [rawTextNode (.ofText (writeRawText name body).toList) name body]) :
    ClosesAtEnd name body := by
  obtain ⟨hfailure, forest, hforest, hnodes⟩ := parse_eq_ok_iff.1 h
  have hscan := toList_writeRawText name body ▸ hfailure
  obtain ⟨size, token, next, tokens, hread, htokens⟩ := exists_of_scan hname hscan
  obtain ⟨before, after, found, hcut, rfl⟩ := eq_verbatim_of_readRawText hread
  rw [← toList_writeRawText] at htokens
  rw [htokens, assembles_cons_iff (.verbatim (finishTag_rawText hname _ _ _ _ _))] at hforest
  obtain ⟨nodes, -, rfl⟩ := hforest
  rw [pruneWhitespace_cons rfl, Node.prune, pruneFrom_verbatimBody, rawTextNode, ← verbatimBody_eq]
    at hnodes
  have hstop := stop_eq_of_verbatimBody (Node.element.inj (List.cons.inj hnodes).1).2.2.2
  rw [rawClosing_eq hname rfl] at hcut
  exact ⟨before, after, hcut, (Nat.add_left_cancel hstop).symm⟩

/-- An element that is taken as it stands, whatever follows it, is so if nothing does. -/
theorem closesAtEnd_of_takenVerbatim {component : String} (h : TakenVerbatim component name body) :
    ClosesAtEnd name body := by
  have hempty : parse component "" = .ok [] := by
    refine parse_eq_ok_iff.2 ⟨?_, [], ?_, rfl⟩
    · rw [String.toList_empty, scan, scanFrom]
      rfl
    · rw [String.toList_empty, scan, scanFrom]
      exact .nil
  have hparse := (h "" _).2 ⟨[], hempty, rfl⟩
  rw [String.append_empty] at hparse
  exact closesAtEnd_of_parse hname hparse

/-! ### Bodies -/

/-- Where all characters take as many bytes in lower case, what is a closing tag in the lower case
form of a body is one in the body. -/
private theorem containsClosing_of_infix_lower
    (hsize : ∀ c ∈ body.toList, (lowerChar c).utf8Size = c.utf8Size)
    (h : closing name <:+: body.toList.map lowerChar) : ContainsClosing name body := by
  obtain ⟨found, hfound, hmap⟩ := List.infix_map_iff.1 h
  refine List.infix_map_iff.2 ⟨found, hfound, ?_⟩
  rw [hmap]
  refine List.map_congr_left fun c hc => ?_
  have hlower : (lowerChar c).utf8Size = 1 :=
    utf8Size_of_mem_closing hname _ (hmap ▸ List.mem_map_of_mem hc)
  have hascii : isAscii c = true := by
    rw [hsize c (hfound.subset hc), Char.utf8Size_eq_one_iff, UInt32.le_iff_toNat_le] at hlower
    exact decide_eq_true (Nat.lt_succ_of_le hlower)
  rw [lowerChar, if_pos hascii]

/-- A body without the closing tag, whose characters all take as many bytes in lower case, is closed
at its end. -/
theorem closesAtEnd_of_utf8Size (hbody : ¬ContainsClosing name body)
    (hsize : ∀ c ∈ body.toList, (lowerChar c).utf8Size = c.utf8Size) : ClosesAtEnd name body := by
  have hlower : (bodyAndClosing name body).map lowerChar =
      body.toList.map lowerChar ++ closing name ++ ['>'] := by
    rw [bodyAndClosing, List.map_append, List.map_append, map_lowerChar_closing hname]
    rfl
  have hangle : '<' ∉ '/' :: name.toList := by
    rcases eq_of_mem_rawTextElements hname with rfl | rfl <;> decide
  have hinfix : ¬closing name <:+: body.toList.map lowerChar :=
    fun h => hbody (containsClosing_of_infix_lower hname hsize h)
  refine ⟨body.toList.map lowerChar, ['>'], ?_, ?_⟩
  · rw [hlower]
    exact cut?_append_of_not_infix hangle hinfix ['>']
  · rw [byteLength_map_eq hsize, utf8ByteSize_eq]

end Element

/-- A raw text element is taken as it stands, whatever follows it, exactly if its closing tag is
found at the end of its body. This is so for every body in which the tag does not occur and whose
characters all take as many bytes in lower case. -/
theorem takenVerbatim_iff {name : String} (hname : name ∈ rawTextElements)
    (component body : String) :
    (TakenVerbatim component name body ↔ ClosesAtEnd name body) ∧
      (¬ContainsClosing name body → (∀ c ∈ body.toList, (lowerChar c).utf8Size = c.utf8Size) →
        TakenVerbatim component name body) :=
  ⟨⟨closesAtEnd_of_takenVerbatim hname, takenVerbatim_of_closesAtEnd hname component⟩,
    fun hbody hsize =>
      takenVerbatim_of_closesAtEnd hname component (closesAtEnd_of_utf8Size hname hbody hsize)⟩

/-- A style sheet is taken as it stands. -/
theorem takenVerbatim_quotation : "style" ∈ rawTextElements ∧
    TakenVerbatim "Card" "style" "q > b \x7b content: '→' \x7d" := by
  have hname : "style" ∈ rawTextElements := by decide
  have hsize : "q > b \x7b content: '→' \x7d".toList.all
      (fun c => (lowerChar c).utf8Size == c.utf8Size) = true := by decide +kernel
  refine ⟨hname, (takenVerbatim_iff hname "Card" _).2 (by decide +kernel) fun c hc => ?_⟩
  simpa using List.all_eq_true.1 hsize c hc

/-- A style sheet of one character that takes two bytes, and three in lower case, is not taken as it
stands. -/
theorem exists_not_takenVerbatim :
    ∃ body, ¬ContainsClosing "style" body ∧ ¬TakenVerbatim "Card" "style" body := by
  refine ⟨"Ⱥ", by decide +kernel, fun h => ?_⟩
  obtain ⟨before, after, hcut, hlength⟩ := closesAtEnd_of_takenVerbatim (by decide) h
  have hlower : (bodyAndClosing "style" "Ⱥ").map lowerChar = "ⱥ</style>".toList := by decide +kernel
  have hfound : cut? (closing "style") "ⱥ</style>".toList = some ("ⱥ".toList, ['>']) := by
    decide +kernel
  rw [hlower, hfound] at hcut
  obtain ⟨rfl, -⟩ := Prod.mk.inj (Option.some.inj hcut)
  exact absurd hlength (by decide +kernel)

end ViewCompiler.Template
