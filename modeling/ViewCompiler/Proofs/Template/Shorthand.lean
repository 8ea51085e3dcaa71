import ViewCompiler.Proofs.Template.Continuation
import ViewCompiler.Proofs.Template.RawText
import ViewCompiler.Proofs.Template.Unplaced

/-!
# Directives as attributes

A `[w:if]` or `[w:for]` attribute is short for the tag of a directive around the tag that it stands
in. The two are read in different ways: the attribute after the others of its tag, when the content
is complete, and the tag up to its angle bracket, before anything that it contains. They come to the
same forest, but for its places, or both to a failure (`parse_shorthand`).

The attributes and the body are given as text, about which as little as possible is asked. The
attributes are what some tag can have without a directive among them (`IsAttributeList`), and the
body is a template that can be read on its own; for a raw text element it is what ends at the
closing tag and not before.

For both ways of writing, `ReadsTo` says to which nodes an element is read, whatever follows: the
tag is read as written, the body as it is on its own, and then the element is finished. What the
finished element is, without its places, is a function of what is written (`completed`), and that
function makes the directive of the attribute the node around the rest. The tag of a directive does
the same with the element as its content.

Raw text ends at its first closing tag, wherever that stands. So the body of a script or a style has
to be one: `<script><!-- </script><script> --></script>` is two scripts, and an attribute wraps the
first of them.
-/

namespace ViewCompiler.Template

open ViewCompiler.Text

/-! ### Two ways to write a directive -/

/-- An element or a component, with the text behind the name of its tag. -/
def writeElement (tag attributes body : String) : String :=
  "<" ++ tag ++ attributes ++ ">" ++ body ++ "</" ++ tag ++ ">"

/-- A directive as the first attribute of a tag. -/
def shorthand (d : Directive) (spec tag attributes body : String) : String :=
  writeElement tag (" [" ++ d.name ++ "]=\"" ++ spec ++ "\"" ++ attributes) body

/-- A directive as a tag around another one. -/
def longhand (d : Directive) (spec tag attributes body : String) : String :=
  "<" ++ d.name ++ " " ++ spec ++ ">" ++ writeElement tag attributes body ++ "</" ++ d.name ++ ">"

/-- What stands behind the name of a tag, up to its end, is read as attributes, and no directive is
among them. -/
structure IsAttributeList (text : String) : Prop where
  blank : ∀ c ∈ text.toList.head?, isMarkupSpace c = true
  read : ∃ attributes stop, readAttributes (text.utf8ByteSize + 1) 0 "" ⟨text.toList ++ ['>'], 0⟩ =
    .ok (attributes, false, ⟨[], stop⟩) ∧ ∀ a ∈ attributes, a.isDirective = false

/-! ### Attributes -/

/-- The text behind the name of a tag is read as the same attributes wherever it stands. -/
structure ReadsAttributeList (text : List Char) (attributes : List Attribute) : Prop where
  blank : ∀ c ∈ text.head?, isMarkupSpace c = true
  read : ∀ size start tag offset rest, ∃ found stop,
    found.map Attribute.written = attributes.map Attribute.written ∧
      readAttributes size start tag ⟨text ++ '>' :: rest, offset⟩ = .ok (found, false, ⟨rest, stop⟩)

/-- What is an attribute list can be read as one, without directives. -/
theorem IsAttributeList.exists_reads {text : String} (h : IsAttributeList text) :
    ∃ attributes, ReadsAttributeList text.toList attributes ∧ ∀ a ∈ attributes,
      a.isDirective = false := by
  obtain ⟨attributes, stop, hread, hdirective⟩ := h.read
  refine ⟨attributes, ⟨h.blank, fun size start tag offset rest => ?_⟩, hdirective⟩
  have hshift := readAttributes_shift offset (text.utf8ByteSize + 1) 0 "" ⟨text.toList ++ ['>'], 0⟩
  rw [hread] at hshift
  have hends : Cursor.Ends (offset + (text.utf8ByteSize + 1))
      (Cursor.shift offset ⟨text.toList ++ ['>'], 0⟩) := by
    rw [Cursor.Ends, Cursor.rest_shift, byteLength_append, ← utf8ByteSize_eq]
    rfl
  have hmore := readAttributes_followedBy rest hends hshift size start tag _ _ _ rfl
  refine ⟨attributes.map (Attribute.shift offset), offset + stop, ?_, ?_⟩
  · rw [List.map_map]
    rfl
  · rw [← List.singleton_append, ← List.append_assoc]
    exact hmore

/-- Canonical attributes are attributes behind the name of a tag. -/
theorem isAttributeList_write {attributes : List MarkupAttribute}
    (h : ∀ a ∈ attributes, a.Canonical) :
    IsAttributeList (String.ofList (attributes.flatMap MarkupAttribute.write)) where
  blank := by
    rw [String.toList_ofList]
    cases attributes with
    | nil => exact nofun
    | cons a attributes =>
      intro c hc
      obtain rfl := Option.some.inj hc
      rfl
  read := by
    rw [String.toList_ofList]
    obtain ⟨found, stop, hfound, hread⟩ := readAttributes_write h
      ((String.ofList (attributes.flatMap MarkupAttribute.write)).utf8ByteSize + 1) 0 "" 0 false []
    refine ⟨found, stop, hread, fun a ha => ?_⟩
    have hmem : a.written ∈ attributes.map MarkupAttribute.written :=
      hfound ▸ List.mem_map_of_mem ha
    obtain ⟨a', ha', hwritten⟩ := List.mem_map.1 hmem
    exact not_isDirective_of_written (h a' ha') hwritten.symm

/-- The attributes of a tag do not go on with its name. -/
theorem readsAttributeList_nil : ReadsAttributeList [] [] where
  blank := nofun
  read := by
    intro size start tag offset rest
    refine ⟨[], offset + byteLength ['>'], rfl, ?_⟩
    rw [readAttributes]
    rfl

private theorem ReadsAttributeList.not_isNameChar {text : List Char} {attributes : List Attribute}
    (h : ReadsAttributeList text attributes) (rest : List Char) :
    ∀ c ∈ (text ++ '>' :: rest).head?, isNameChar c = false := by
  intro c hc
  cases text with
  | nil =>
    obtain rfl := Option.some.inj hc
    rfl
  | cons d text =>
    obtain rfl := Option.some.inj hc
    have hspace := h.blank d rfl
    simp only [isMarkupSpace, Bool.or_eq_true, beq_iff_eq] at hspace
    rcases hspace with (((rfl | rfl) | rfl) | rfl) | rfl <;> rfl

/-- A directive as an attribute, without its place. -/
def Directive.attribute (d : Directive) (spec : String) : Attribute :=
  ⟨"[" ++ d.name ++ "]", some spec, 0, 0, 0⟩

/-- The text of a directive as an attribute, with the blank before it, and what follows. -/
def writeDirectiveAttribute (d : Directive) (spec : String) (text : List Char) : List Char :=
  ' ' :: ('[' :: (d.name.toList ++ [']']) ++ '=' :: '"' :: (spec.toList ++ '"' :: text))

/-- A directive may stand before other attributes. -/
theorem ReadsAttributeList.directive {d : Directive} {spec : String} (h : d.IsReadFrom spec)
    {text : List Char} {attributes : List Attribute} (htext : ReadsAttributeList text attributes) :
    ReadsAttributeList (writeDirectiveAttribute d spec text) (d.attribute spec :: attributes) where
  blank := fun c hc => Option.some.inj hc ▸ rfl
  read := by
    intro size start tag offset rest
    have hname : ∀ c ∈ '[' :: (d.name.toList ++ [']']), StaysInName c :=
      List.forall_mem_cons.2 ⟨fun _ => rfl, List.forall_mem_append.2
        ⟨fun c hc => staysInName_of_class (by decide) (isNameChar_of_mem_directive c hc),
          List.forall_mem_singleton.2 fun _ => rfl⟩⟩
    obtain ⟨first, next, hfirst, hread⟩ := readAttributes_quoted (List.cons_ne_nil _ _) hname
      (h.notMem (.inr (.inr rfl))) size start tag offset (text ++ '>' :: rest)
    obtain ⟨found, stop, hfound, hmore⟩ := htext.read size start tag next rest
    have hwritten : first.written = (d.attribute spec).written := by
      have hbrackets : String.ofList ('[' :: (d.name.toList ++ [']'])) = "[" ++ d.name ++ "]" :=
        String.toList_inj.1 (by simp)
      rw [hfirst, hbrackets, String.ofList_toList]
      rfl
    have htext : writeDirectiveAttribute d spec text ++ '>' :: rest = ' ' ::
        ('[' :: (d.name.toList ++ [']']) ++
          '=' :: '"' :: (spec.toList ++ '"' :: (text ++ '>' :: rest))) := by
      simp [writeDirectiveAttribute]
    refine ⟨first :: found, stop, by rw [List.map_cons, List.map_cons, hwritten, hfound], ?_⟩
    rw [htext, hread, hmore]
    rfl

/-- The directive is read from the attribute, and wraps whatever node its tag has. -/
theorem completed_attribute {d : Directive} {spec : String} (h : d.IsReadFrom spec)
    {attributes : List Attribute} (hattributes : ∀ a ∈ attributes, a.isDirective = false)
    (name : String)
    (content : List Node) :
    completed name (d.attribute spec :: attributes) content =
      (completed name attributes content).map fun node => .directive {} (trim spec)
      {} d [node] := by
  refine completed_cons_of_isDirective ?_ rfl (fun node => ?_) hattributes name content
  · cases d with
    | conditional negated path => rfl
    | repeating l => rfl
  · cases d with
    | conditional negated path =>
      have hname : (Directive.attribute (.conditional negated path) spec).name ≠ "[w:for]" :=
        (by decide : "[" ++ "w:if" ++ "]" ≠ "[w:for]")
      have hvalue : (Directive.attribute (.conditional negated path) spec).value.getD "" = spec :=
        rfl
      rw [wrapDirective, if_neg hname, hvalue, Directive.isReadFrom_conditional_iff.1 h.trim]
    | repeating l =>
      have hname : (Directive.attribute (.repeating l) spec).name = "[w:for]" :=
        (by decide : "[" ++ "w:for" ++ "]" = "[w:for]")
      have hvalue : (Directive.attribute (.repeating l) spec).value.getD "" = spec := rfl
      rw [wrapDirective, if_pos hname, hvalue, Directive.isReadFrom_repeating_iff.1 h.trim]
      rfl

/-! ### Elements -/

/-- The tokens of a piece of a template, when `rest` follows it, come to these nodes without places,
or to a failure if there are none. This is so wherever the piece stands, but for directly inside a
tag of the given name. -/
def ReadsTo (cs rest : List Char) (name : String) (nodes : Option (List Node)) : Prop :=
  ∀ size offset source, Cursor.Ends size ⟨cs ++ rest, offset⟩ → ∃ tokens next,
    scanFrom size ⟨cs ++ rest, offset⟩ = (scanFrom size ⟨rest, next⟩).after tokens ∧
    Cursor.Ends size ⟨rest, next⟩ ∧
    ∀ failure later stack before, (∀ frame ∈ stack.head?, frame.opened.name ≠ name) →
      ∃ found : Except Failure (List Node), found.toOption.map unplacedAll = nodes ∧
        assemble source failure (tokens ++ later) stack before =
          found >>= fun ns => assemble source failure later stack (ns.reverse ++ before)

/-- A piece and the one that follows it. -/
theorem ReadsTo.append {cs cs' rest : List Char} {name : String} {nodes nodes' : Option (List Node)}
    (h : ReadsTo cs (cs' ++ rest) name nodes) (h' : ReadsTo cs' rest name nodes') :
    ReadsTo (cs ++ cs') rest name (nodes.bind fun ns => nodes'.map (ns ++ ·)) := by
  intro size offset source hc
  rw [List.append_assoc] at hc ⊢
  obtain ⟨tokens, next, hscan, hends, hassemble⟩ := h size offset source hc
  obtain ⟨tokens', next', hscan', hends', hassemble'⟩ := h' size next source hends
  refine ⟨tokens ++ tokens', next', by rw [hscan, hscan', Scan.after_after], hends', ?_⟩
  intro failure later stack before hstack
  obtain ⟨found, rfl, heq⟩ := hassemble failure (tokens' ++ later) stack before hstack
  rw [List.append_assoc, heq]
  cases found with
  | error e => exact ⟨.error e, rfl, rfl⟩
  | ok ns =>
    -- The second piece is assembled on top of what the first one has left.
    obtain ⟨found', rfl, heq'⟩ := hassemble' failure later stack (ns.reverse ++ before) hstack
    refine ⟨(ns ++ ·) <$> found', ?_, heq'.trans ?_⟩
    · cases found' with
      | error e => rfl
      | ok ns' => exact congrArg some (unplacedAll_append ns ns')
    · cases found' with
      | error e => rfl
      | ok ns' =>
        change assemble source failure later stack _ = assemble source failure later stack _
        rw [List.reverse_append, List.append_assoc]

/-- What is completed is one node. -/
theorem exists_singleton {source : Source} {failure : Option Failure} {later : List Token}
    {stack : List Frame} {before : List Node} {node : Option Node} {finished : Except Failure Node}
    (h : finished.toOption.map Node.unplaced = node) :
    ∃ found : Except Failure (List Node), found.toOption.map unplacedAll = node.map ([·]) ∧
      (finished >>= fun n => assemble source failure later stack (n :: before)) =
        found >>= fun ns => assemble source failure later stack (ns.reverse ++ before) := by
  refine ⟨([·]) <$> finished, ?_, ?_⟩
  · subst h
    cases finished with
    | error e => rfl
    | ok n => rfl
  · cases finished with
    | error e => rfl
    | ok n => rfl

/-- An opening tag with the text behind its name. -/
def openingText (name : String) (text : List Char) : List Char :=
  '<' :: (name.toList ++ (text ++ ['>']))

/-- An element from its opening to its closing tag. -/
def elementText (name : String) (text body : List Char) : List Char :=
  openingText name text ++ (body ++ writeClosing name)

/-- An element in front of a text is its tag, its body and what closes it, in front of the text. -/
theorem elementText_append (name : String) (text body rest : List Char) :
    elementText name text body ++ rest =
      openingText name text ++ (body ++ (writeClosing name ++ rest)) := by
  rw [elementText, List.append_assoc, List.append_assoc]

/-- A template that can be read on its own is read to the same tokens in front of a closing tag. -/
theorem scanFrom_content {name : String} (hname : ∀ c ∈ name.toList, isNameChar c = true)
    {body : List Char}
    (hscan : (scan body).failure = none) {size offset : Nat} {rest : List Char}
    (hc : Cursor.Ends size ⟨body ++ (writeClosing name ++ rest), offset⟩) :
    ∃ start stop, scanFrom size ⟨body ++ (writeClosing name ++ rest), offset⟩ =
      (scanFrom size ⟨rest, stop⟩).after
        ((scan body).tokens.map (Token.shift offset) ++ [.closing name start stop]) ∧
      Cursor.Ends size ⟨rest, stop⟩ := by
  obtain ⟨stop, hstep⟩ := step_writeClosing hname size (offset + byteLength body) rest
  have hbody := scanFrom_between hscan (show atTag (writeClosing name ++ rest) = true from rfl) hc
  rw [scanFrom_of_step hstep (List.cons_ne_nil _ _)] at hbody
  rw [Scan.after_after] at hbody
  have hclosing : Cursor.Ends size ⟨writeClosing name ++ rest, offset + byteLength body⟩ := by
    rw [Cursor.Ends, byteLength_append, ← Nat.add_assoc] at hc
    exact hc
  obtain ⟨hlead, -, -⟩ := of_step_eq_ok hclosing hstep
  exact ⟨offset + byteLength body, stop, hbody, hlead.ends hclosing⟩

/-- A closing tag that closes nothing is refused. -/
private theorem exists_error_of_closing {name : String} {stack : List Frame}
    (h : ∀ frame ∈ stack.head?, frame.opened.name ≠ name) (source : Source)
    (failure : Option Failure)
    (start stop : Nat) (later : List Token) (nodes : List Node) :
    ∃ e, assemble source failure (.closing name start stop :: later) stack nodes = .error e := by
  cases stack with
  | nil => exact ⟨_, rfl⟩
  | cons frame stack =>
    rw [assemble]
    simp only [(h frame rfl).symm, if_false]
    exact ⟨_, rfl⟩

section Elements

variable {name : String} (hname : isTagName name = true) {text : List Char}
    {attributes : List Attribute}
  (htext : ReadsAttributeList text attributes)
include hname htext

/-- A step over the opening tag of an element. -/
theorem step_openingText {size offset : Nat} {rest : List Char}
    (hc : Cursor.Ends size ⟨openingText name text ++ rest, offset⟩) :
    ∃ tag : Tag, tag.name = name ∧
      tag.attributes.map Attribute.written = attributes.map Attribute.written ∧
      Cursor.Ends size ⟨rest, tag.stop⟩ ∧
      step size ⟨openingText name text ++ rest, offset⟩ = step.some'
        (if isVoidElement name then .ok (.leaf tag, ⟨rest, tag.stop⟩)
        else if isRawTextElement name then readRawText size tag ⟨rest, tag.stop⟩
        else .ok (.opening tag, ⟨rest, tag.stop⟩)) := by
  have hopening :
      openingText name text ++ rest = '<' :: (name.toList ++ (text ++ '>' :: rest)) := by
    simp [openingText]
  rw [hopening] at hc ⊢
  obtain ⟨d, cs, hcons, hd⟩ := exists_cons_of_isTagName hname
  have hchars := isNameChar_of_isTagName hname
  have hend := htext.not_isNameChar rest
  have hdirective := not_hasPrefix_of_isTagName hname
  obtain ⟨c, hcursor⟩ : ∃ c : Cursor, ⟨'<' :: (name.toList ++ (text ++ '>' :: rest)), offset⟩ = c :=
    ⟨_, rfl⟩
  have htag : atTag c.rest = true := atTag_of_isNameStart (by rw [← hcursor, hcons]; rfl) hd
  have htagName : c.tagName = name := by
    rw [← hcursor]
    simp [Cursor.tagName, takeWhile_append hchars hend]
  have hbehind : c.behindTagName = ⟨text ++ '>' :: rest, c.behindTagName.offset⟩ := by
    rw [← hcursor]
    simp [Cursor.behindTagName, Cursor.past, Cursor.skipWhile_append hchars hend]
  have hlead := Cursor.leads_behindTagName htag
  have hends : c.behindTagName.Ends size := hlead.ends (hcursor ▸ hc)
  obtain ⟨found, stop, hfound, hread⟩ := htext.read size c.offset name c.behindTagName.offset rest
  rw [← hbehind] at hread
  have hafter := (readsAttributes_readAttributes hends hlead.offset_le hread).1
  refine ⟨⟨name, found, c.offset, stop⟩, rfl, hfound, hafter.ends hends, ?_⟩
  have hstep : step size c = step.some' (readTag size c) := by
    rw [← hcursor, hcons]
    exact step_tag rfl hd
  rw [hcursor, hstep, readTag_eq, htagName, hdirective, hread]
  rfl

/-- An element with content that can be read on its own. -/
private theorem readsTo_content (hvoid : isVoidElement name = false)
    (hraw : isRawTextElement name = false)
    {body : List Char} (hscan : (scan body).failure = none) {content : List Node}
    (hcontent : Assembles (.ofText body) (scan body).tokens content) (rest : List Char) :
    ReadsTo (elementText name text body) rest name
      ((completed name attributes content).map ([·])) := by
  intro size offset source hc
  rw [elementText_append] at hc ⊢
  obtain ⟨tag, rfl, hattributes, hends, hstep⟩ := step_openingText hname htext hc
  rw [hvoid, hraw] at hstep
  obtain ⟨start, stop, hscan, hafter⟩ :=
    scanFrom_content (isNameChar_of_isTagName hname) hscan hends
  obtain ⟨children, hassembles, hchildren⟩ := hcontent.exists_shift source tag.stop
  have hfinish := finishTag_eq_completed hattributes hchildren source stop
  refine ⟨.opening tag :: ((scan body).tokens.map (Token.shift tag.stop) ++
    [.closing tag.name start stop]), stop,
    ?_, hafter, ?_⟩
  · rw [scanFrom_of_step hstep (List.cons_ne_nil _ _), hscan]
    rfl
  · intro failure later stack before _
    rw [List.cons_append, List.append_assoc, Token.Opens.assemble_eq (.tag tag),
      hassembles.assemble_append,
      List.singleton_append, assemble_closing (show (OpenTag.tag tag).name = tag.name from rfl),
      List.append_nil,
      List.reverse_reverse]
    exact exists_singleton hfinish

/-- The closing tag of an element without content closes nothing. -/
private theorem readsTo_void (hvoid : isVoidElement name = true)
    {body : List Char} (hscan : (scan body).failure = none) {content : List Node}
    (hcontent : Assembles (.ofText body) (scan body).tokens content) (rest : List Char) :
    ReadsTo (elementText name text body) rest name none := by
  intro size offset source hc
  rw [elementText_append] at hc ⊢
  obtain ⟨tag, rfl, hattributes, hends, hstep⟩ := step_openingText hname htext hc
  rw [hvoid] at hstep
  obtain ⟨start, stop, hscan, hafter⟩ :=
    scanFrom_content (isNameChar_of_isTagName hname) hscan hends
  obtain ⟨children, hassembles, -⟩ := hcontent.exists_shift source tag.stop
  refine ⟨.leaf tag :: ((scan body).tokens.map (Token.shift tag.stop) ++
    [.closing tag.name start stop]), stop,
    ?_, hafter, ?_⟩
  · rw [scanFrom_of_step hstep (List.cons_ne_nil _ _), hscan]
    rfl
  · intro failure later stack before hstack
    cases hfinish : finishTag source tag [] tag.stop with
    | error e => exact ⟨.error e, rfl, by rw [List.cons_append, assemble_leaf, hfinish]; rfl⟩
    | ok n =>
      obtain ⟨e, he⟩ := exists_error_of_closing hstack source failure start stop later
        (children.reverse ++ n :: before)
      refine ⟨.error e, rfl, ?_⟩
      rw [List.cons_append, List.append_assoc, Token.Makes.assemble_eq (.leaf hfinish),
        hassembles.assemble_append, List.singleton_append, he]
      rfl

/-- A raw text element whose closing tag is found at the end of its body. -/
theorem readsTo_rawText (hraw : isRawTextElement name = true) {body : String}
    (h : ClosesAtEnd (lowercase name) body) (rest : List Char) :
    ReadsTo (elementText name text body.toList) rest name
      ((completed name attributes (if body = "" then [] else [.text {} body])).map ([·])) := by
  intro size offset source hc
  rw [elementText_append] at hc ⊢
  obtain ⟨tag, rfl, hattributes, hends, hstep⟩ := step_openingText hname htext hc
  have hbody :
      body.toList ++ (writeClosing tag.name ++ rest) = bodyAndClosing tag.name body ++ rest := by
    simp [bodyAndClosing, closing, writeClosing]
  have hmem : lowercase tag.name ∈ rawTextElements := by
    simpa [rawTextElements] using lowercase_of_isRawTextElement hraw
  have hclosing : tag.rawClosing = closing (lowercase tag.name) := by
    rw [Tag.rawClosing, closing, lowercase, String.toList_ofList]
  have hsize : tag.stop + byteLength (bodyAndClosing tag.name body) ≤ size := by
    have hwhole : tag.stop + byteLength (bodyAndClosing tag.name body ++ rest) = size :=
      hbody ▸ hends
    rw [byteLength_append] at hwhole
    omega
  have hread :=
    readRawText_of_closesAtEnd hmem h hclosing (isNameChar_of_isTagName hname) hsize rest
  rw [not_isVoidElement_of_isRawTextElement hraw, hraw, hbody, if_neg Bool.false_ne_true,
    if_pos rfl, hread,
    ← List.append_assoc] at hstep
  rw [hbody, ← List.append_assoc]
  rw [hbody, ← List.append_assoc] at hc
  obtain ⟨hlead, -, -⟩ := of_step_eq_ok hc hstep
  refine ⟨_, _, scanFrom_of_step hstep (List.cons_ne_nil _ _), hlead.ends hc,
    fun failure later stack before _ => ?_⟩
  have hchildren : unplacedAll (verbatimBody source tag.stop (tag.stop + body.utf8ByteSize) body) =
      unplacedAll (if body = "" then [] else [.text {} body]) := by
    rw [unplacedAll_verbatimBody]
    split <;> rfl
  rw [List.singleton_append, assemble_verbatim]
  exact exists_singleton (finishTag_eq_completed hattributes hchildren source _)

end Elements

/-- An element is read with the same content, whatever its attributes are and whatever follows
it. -/
private theorem exists_readsTo {name : String} (hname : isTagName name = true)
    {component body : String} (hbody : ∃ nodes, parse component body = .ok nodes)
    (hraw : isRawTextElement name = true → ClosesAtEnd (lowercase name) body) :
    ∃ content : Option (List Node), ∀ text attributes, ReadsAttributeList text attributes → ∀ rest,
      ReadsTo (elementText name text body.toList) rest name
        ((content.bind (completed name attributes)).map ([·])) := by
  obtain ⟨nodes, hnodes⟩ := hbody
  obtain ⟨hscan, forest, hforest, -⟩ := parse_eq_ok_iff.1 hnodes
  cases hvoid : isVoidElement name with
  | true => exact ⟨none, fun _ _ htext rest => readsTo_void hname htext hvoid hscan hforest rest⟩
  | false =>
    cases hverbatim : isRawTextElement name with
    | true =>
      exact ⟨some _,
        fun _ _ htext rest => readsTo_rawText hname htext hverbatim (hraw hverbatim) rest⟩
    | false =>
      exact ⟨some forest, fun _ _ htext rest =>
        readsTo_content hname htext hvoid hverbatim hscan hforest rest⟩

/-! ### Templates -/

/-- Tokens that take a template up to its end make up what it is read as. -/
theorem toOption_parse_of_after {cs : List Char} {tokens : List Token} {next : Nat}
    (h : scanFrom (byteLength cs) ⟨cs, 0⟩ = (scanFrom (byteLength cs) ⟨[], next⟩).after tokens)
    (component : String) :
    (parse component (String.ofList cs)).toOption =
      (assemble (.ofText cs) none tokens [] []).toOption.map pruneWhitespace := by
  have hend : scanFrom (byteLength cs) ⟨[], next⟩ = ⟨[], none⟩ := by
    rw [scanFrom]
    rfl
  have hscan : scan cs = ⟨tokens, none⟩ := by
    rw [scan, h, hend, Scan.after, List.append_nil]
  simp only [parse, String.toList_ofList, hscan]
  split
  · rename_i nodes hnodes
    rw [hnodes]
    rfl
  · rename_i hnodes
    rw [hnodes]
    rfl
  · rename_i hnodes
    rw [hnodes]
    rfl

section Templates

variable {name : String} {nodes : Option (List Node)} {cs : List Char} (component : String)

/-- A template that is a piece on its own. -/
theorem parse_piece (h : ReadsTo cs [] name nodes) :
    (parse component (String.ofList cs)).toOption.map unplacedAll = nodes.map pruneWhitespace := by
  have hstart : Cursor.Ends (byteLength cs) ⟨cs, 0⟩ := Nat.zero_add _
  obtain ⟨tokens, next, hscan, -, hassemble⟩ :=
    h (byteLength cs) 0 (.ofText cs) ((List.append_nil cs).symm ▸ hstart)
  obtain ⟨found, rfl, heq⟩ := hassemble none [] [] [] nofun
  rw [List.append_nil] at hscan heq
  rw [toOption_parse_of_after hscan, heq]
  cases found with
  | error e => rfl
  | ok ns =>
    have hassembled : assemble (.ofText cs) none [] [] (ns.reverse ++ []) = .ok ns := by
      rw [List.append_nil, assemble, List.reverse_reverse]
    refine (congrArg (fun r => (r.toOption.map pruneWhitespace).map unplacedAll) hassembled).trans
      ?_
    exact congrArg some (pruneWhitespace_unplacedAll ns)

/-- A template that is a piece inside a directive. -/
theorem parse_directive (h : ∀ rest, ReadsTo cs rest name nodes) {d : Directive}
    (hname : d.name ≠ name)
    {spec : String} (hread : d.IsReadFrom spec) :
    (parse component (String.ofList ('<' :: (d.name.toList ++ ' ' :: (spec.toList ++ ['>'])) ++
      (cs ++ writeClosing d.name)))).toOption.map unplacedAll =
        nodes.map fun ns => pruneWhitespace [.directive {} (trim spec) {} d ns] := by
  obtain ⟨text, htext⟩ : ∃ text, '<' :: (d.name.toList ++ ' ' :: (spec.toList ++ ['>'])) ++
    (cs ++ writeClosing d.name) = text := ⟨_, rfl⟩
  obtain ⟨tag, rfl, hspec, hstep⟩ :=
    step_directive hread (byteLength text) 0 (cs ++ writeClosing d.name)
  have hends : Cursor.Ends (byteLength text) ⟨cs ++ writeClosing tag.directive.name, tag.stop⟩ := by
    have hstart : Cursor.Ends (byteLength text) ⟨text, 0⟩ := Nat.zero_add _
    obtain ⟨hlead, -, -⟩ := of_step_eq_ok hstart (htext ▸ hstep)
    exact hlead.ends hstart
  obtain ⟨tokens, next, hscan, -, hassemble⟩ := h _ (byteLength text) tag.stop (.ofText text) hends
  obtain ⟨stop, hclose⟩ := step_writeClosing (isNameChar_of_mem_directive (d := tag.directive))
    (byteLength text) next []
  have hscanned := scanFrom_of_step hstep (List.cons_ne_nil _ _)
  have hclosing := scanFrom_of_step hclose (List.cons_ne_nil _ _)
  rw [List.append_nil] at hclosing
  rw [htext, hscan, hclosing, Scan.after_after, Scan.after_after] at hscanned
  -- The piece stands directly inside the directive, and no tag has the name of a directive.
  obtain ⟨found, rfl, heq⟩ := hassemble none [.closing tag.directive.name next stop]
    [⟨.directive tag, []⟩] [] (fun frame hframe => Option.some.inj hframe ▸ hname)
  rw [htext, toOption_parse_of_after hscanned, List.append_assoc, List.singleton_append,
    Token.Opens.assemble_eq (.directive tag), heq]
  cases found with
  | error e => rfl
  | ok ns =>
    have hclosed : assemble (.ofText text) none [.closing tag.directive.name next stop]
        [⟨.directive tag, []⟩] (ns.reverse ++ []) =
          .ok [finishDirective (.ofText text) tag (ns.reverse ++ []).reverse stop] :=
      assemble_closing (show (OpenTag.directive tag).name = tag.directive.name from rfl)
    have hnode : (finishDirective (.ofText text) tag (ns.reverse ++ []).reverse stop).unplaced =
        .directive {} (trim spec) {} tag.directive (unplacedAll ns) := by
      rw [finishDirective, Node.unplaced, hspec, List.append_nil, List.reverse_reverse]
    refine (congrArg (fun r => (r.toOption.map pruneWhitespace).map unplacedAll) hclosed).trans ?_
    refine congrArg some ((pruneWhitespace_unplacedAll _).trans ?_)
    rw [unplacedAll, hnode]
    rfl

end Templates

/-- A directive as an attribute of a tag is read like the tag of the directive around it. -/
theorem parse_shorthand {d : Directive} {spec tag attributes body component : String}
    (hspec : d.IsReadFrom spec) (htag : isTagName tag = true)
    (hattributes : IsAttributeList attributes)
    (hbody : ∃ nodes, parse component body = .ok nodes)
    (hraw : isRawTextElement tag = true → ClosesAtEnd (lowercase tag) body) :
    (parse component (shorthand d spec tag attributes body)).toOption.map unplacedAll =
      (parse component (longhand d spec tag attributes body)).toOption.map unplacedAll := by
  obtain ⟨found, hfound, hplain⟩ := hattributes.exists_reads
  obtain ⟨content, hcontent⟩ := exists_readsTo htag hbody hraw
  have hshort : shorthand d spec tag attributes body =
      String.ofList
        (elementText tag (writeDirectiveAttribute d spec attributes.toList) body.toList) :=
    String.toList_inj.1 (by
      simp [shorthand, writeElement, elementText, openingText, writeDirectiveAttribute,
        writeClosing])
  have hlong : longhand d spec tag attributes body = String.ofList
      ('<' :: (d.name.toList ++ ' ' :: (spec.toList ++ ['>'])) ++
        (elementText tag attributes.toList body.toList ++ writeClosing d.name)) :=
    String.toList_inj.1 (by simp [longhand, writeElement, elementText, openingText, writeClosing])
  have hname : d.name ≠ tag := by
    rintro rfl
    exact absurd (hasPrefix_directive d)
      (by rw [not_hasPrefix_of_isTagName htag]; exact Bool.false_ne_true)
  -- The content is the same for both lists of attributes; what is left is where the directive is
  -- wrapped.
  rw [hshort, hlong, parse_piece component (hcontent _ _ (hfound.directive hspec) []),
    parse_directive component (hcontent _ _ hfound) hname hspec]
  cases content with
  | none => rfl
  | some content =>
    rw [Option.bind_some, Option.bind_some, completed_attribute hspec hplain]
    simp only [Option.map_map]
    rfl

/-! ### A note that is muted -/

namespace MutedNote

def muted : Directive := .conditional true ⟨"user", ["muted"]⟩

def note : Markup := .element "p" [.literal "class" "note"] [.element "br" [] []]

private theorem canonical_break : (Markup.element "br" [] []).Canonical :=
  .element (by decide) (by decide) (by decide) (fun _ => rfl) nofun
    (Markup.Spaced.of_forall_ne_text nofun)
    nofun

private theorem spaced_break : Markup.Spaced [.element "br" [] []] :=
  Markup.Spaced.of_forall_ne_text (List.forall_mem_singleton.2 nofun)

private theorem canonical_class : ∀ a ∈ [MarkupAttribute.literal "class" "note"], a.Canonical :=
  List.forall_mem_singleton.2 (by decide : isAttributeName "class" = true)

/-- The directive around the note is canonical. -/
private theorem canonical_muted : (Markup.directive muted [note]).Canonical := by
  have hmuted : muted.Valid := (by decide : ∀ s ∈ ["user", "muted"], isIdentifier s.toList = true)
  refine .directive hmuted (Markup.Spaced.of_forall_ne_text (List.forall_mem_singleton.2 nofun))
    (List.forall_mem_singleton.2 ?_)
  exact .element (by decide) (by decide) (by decide) (fun h => absurd h (by decide)) canonical_class
    spaced_break (List.forall_mem_singleton.2 canonical_break)

private theorem spaced_muted : Markup.Spaced [.directive muted [note]] :=
  Markup.Spaced.of_forall_ne_text (List.forall_mem_singleton.2 nofun)

end MutedNote

/-- The note is read in both ways, and as what it was written from. -/
theorem parse_shorthand_note :
    MutedNote.muted.IsReadFrom "!user.muted" ∧ isTagName "p" = true ∧
      IsAttributeList " class=\"note\"" ∧
      (∃ nodes, parse "Card" "<br>" = .ok nodes) ∧
      (isRawTextElement "p" = true → ClosesAtEnd (lowercase "p") "<br>") ∧
      (parse "Card" "<p [w:if]=\"!user.muted\" class=\"note\"><br></p>").toOption.map unplacedAll =
        some (nodesAll [.directive MutedNote.muted [MutedNote.note]]) := by
  have hspec : MutedNote.muted.IsReadFrom "!user.muted" := .inl (by rfl)
  have hattributes : IsAttributeList " class=\"note\"" :=
    isAttributeList_write MutedNote.canonical_class
  have hbody : ∃ nodes, parse "Card" "<br>" = .ok nodes := by
    have htext : String.ofList (writeAll [.element "br" [] []]) = "<br>" := by decide
    obtain ⟨nodes, hnodes, -⟩ := parse_writeAll MutedNote.spaced_break
      (List.forall_mem_singleton.2 MutedNote.canonical_break) "Card"
    exact ⟨nodes, htext ▸ hnodes⟩
  have hraw : isRawTextElement "p" = true → ClosesAtEnd (lowercase "p") "<br>" :=
    fun h => absurd h (by decide)
  refine ⟨hspec, by decide, hattributes, hbody, hraw, ?_⟩
  have hlong : longhand MutedNote.muted "!user.muted" "p" " class=\"note\"" "<br>" =
      String.ofList (writeAll [.directive MutedNote.muted [MutedNote.note]]) := by decide
  obtain ⟨nodes, hnodes, hunplaced⟩ := parse_writeAll MutedNote.spaced_muted
    (List.forall_mem_singleton.2 MutedNote.canonical_muted) "Card"
  refine (parse_shorthand hspec (by decide) hattributes hbody hraw).trans ?_
  rw [hlong, hnodes, ← hunplaced]
  rfl

/-! ### Two scripts -/

namespace TwoScripts

def shown : Directive := .conditional false ⟨"c", []⟩

/-- As the body of a script it ends within the comment. -/
def comment : String := "<!-- </script><script> -->"

/-- The comment is read as no node at all. -/
private theorem parse_comment : parse "Cmp" comment = .ok [] := by
  have hstep : step (byteLength comment.toList) ⟨comment.toList, 0⟩ = .ok (none, ⟨[], 26⟩) := by rfl
  have hscans : Scans (byteLength comment.toList) ⟨comment.toList, 0⟩ [] ⟨[], 26⟩ :=
    .step (by decide) hstep (.stay _)
  have hscan := hscans.scanFrom_eq (Nat.zero_add _)
  have hparse : (parse "Cmp" (String.ofList comment.toList)).toOption = some [] :=
    toOption_parse_of_after hscan "Cmp"
  exact toOption_eq_some_iff.1 hparse

/-- A script is read back if nothing in its body closes it. -/
theorem readsTo_script {text : List Char} {attributes : List Attribute}
    (htext : ReadsAttributeList text attributes) {body : String}
    (hcontains : ¬ContainsClosing "script" body)
    (hsize : body.toList.all (fun c => (lowerChar c).utf8Size == c.utf8Size) = true)
    (hbody : body ≠ "")
    (rest : List Char) :
    ReadsTo (elementText "script" text body.toList) rest "script"
      ((completed "script" attributes [.text {} body]).map ([·])) := by
  have hlower : lowercase "script" = "script" := by decide
  have hcloses : ClosesAtEnd (lowercase "script") body := by
    rw [hlower]
    exact closesAtEnd_of_utf8Size (by decide) hcontains fun c hc => by
      simpa using List.all_eq_true.1 hsize c hc
  have hreads :=
    readsTo_rawText (by decide : isTagName "script" = true) htext (by decide) hcloses rest
  rwa [if_neg hbody] at hreads

/-- The first script holds the start of the comment. -/
theorem readsTo_first {text : List Char} {attributes : List Attribute}
    (htext : ReadsAttributeList text attributes) (rest : List Char) :
    ReadsTo (elementText "script" text "<!-- ".toList) rest "script"
      ((completed "script" attributes [.text {} "<!-- "]).map ([·])) :=
  readsTo_script htext (by decide) (by decide) (by decide) rest

/-- The second script holds the end of the comment. -/
theorem readsTo_second (rest : List Char) :
    ReadsTo (elementText "script" [] " -->".toList) rest "script"
      ((completed "script" [] [.text {} " -->"]).map ([·])) :=
  readsTo_script readsAttributeList_nil (by decide) (by decide) (by decide) rest

private theorem completed_script (body : String) :
    completed "script" [] [.text {} body] = some (.element {} "script" [] [.text {} body]) := by
  rw [completed, finishTag_rawText (by decide)]
  rfl

/-- The attribute wraps the script that it is written at. -/
private theorem completed_shown (body : String) :
    completed "script" [shown.attribute "c"] [.text {} body] =
      some (.directive {} (trim "c") {} shown [.element {} "script" [] [.text {} body]]) := by
  have hspec : shown.IsReadFrom "c" := .inl (by rfl)
  have hnone : ∀ a ∈ ([] : List Attribute), a.isDirective = false := nofun
  rw [completed_attribute hspec hnone, completed_script]
  rfl

end TwoScripts

/-- The comment is a body that can be read on its own, but not one of a script: the attribute wraps
the first of two scripts, and the tag of the directive both. -/
theorem parse_shorthand_scripts_ne :
    TwoScripts.shown.IsReadFrom "c" ∧ isTagName "script" = true ∧ IsAttributeList "" ∧
      (∃ nodes, parse "Cmp" TwoScripts.comment = .ok nodes) ∧
      (parse "Cmp" (shorthand TwoScripts.shown "c" "script" "" TwoScripts.comment)).toOption.map
        unplacedAll ≠
        (parse "Cmp" (longhand TwoScripts.shown "c" "script" "" TwoScripts.comment)).toOption.map
          unplacedAll := by
  have hspec : TwoScripts.shown.IsReadFrom "c" := .inl (by rfl)
  have hcanonical : ∀ a ∈ ([] : List MarkupAttribute), a.Canonical := nofun
  refine ⟨hspec, by decide, isAttributeList_write hcanonical, ⟨[], TwoScripts.parse_comment⟩, ?_⟩
  have hshort : shorthand TwoScripts.shown "c" "script" "" TwoScripts.comment =
      String.ofList
        (elementText "script" (writeDirectiveAttribute TwoScripts.shown "c" []) "<!-- ".toList ++
        elementText "script" [] " -->".toList) := by decide
  have hlong : longhand TwoScripts.shown "c" "script" "" TwoScripts.comment =
      String.ofList ('<' :: (TwoScripts.shown.name.toList ++ ' ' :: ("c".toList ++ ['>'])) ++
        (elementText "script" [] "<!-- ".toList ++ elementText "script" [] " -->".toList ++
          writeClosing TwoScripts.shown.name)) := by decide
  have hfirst := readsAttributeList_nil.directive hspec
  rw [hshort, hlong,
    parse_piece "Cmp" ((TwoScripts.readsTo_first hfirst _).append (TwoScripts.readsTo_second [])),
    parse_directive "Cmp" (fun rest => (TwoScripts.readsTo_first readsAttributeList_nil _).append
      (TwoScripts.readsTo_second rest)) (by decide) hspec,
    TwoScripts.completed_shown, TwoScripts.completed_script, TwoScripts.completed_script]
  -- The attribute wraps the first script only.
  intro h
  have hlength : some 2 = some 1 := congrArg (Option.map List.length) h
  cases hlength

end ViewCompiler.Template
