import ViewCompiler.Proofs.Template.Assembly
import ViewCompiler.Proofs.Template.Binding
import ViewCompiler.Proofs.Template.Forest

/-!
# Written templates read back

A canonical template is read without a fault, and as the forest that it was written from
(`parse_writeAll`): equal node for node, binding for binding and value for value, but for the places
in the text. The proof goes along the markup. `Reads` says of a piece of text that its tokens are
folded into given nodes, whatever follows and whatever tags are open around it; pieces with this
property can be put side by side and between an opening and a closing tag. What remains is that no
white space is dropped from such a forest.

Texts and interpolations are one token each, and a component is one tag. For an element and a
directive, `Opens` says of the opening tag what is left to be done when the content is complete: a
closing tag of the name then makes the node. The induction follows the markup, and at each node it
is used for the forest below it and for the rest beside it.

A text is taken up to the next markup, so no two texts may stand side by side, and a text must not
be blank where it would be dropped: between structure, or at an end (`Markup.Spaced`). These are the
only conditions on how canonical markup is put together; what a single node may be is
`Markup.Canonical`.

The sample is a page with a list of cards: an element with text and an interpolation, and a repeater
around a component.
-/

namespace ViewCompiler.Template

open ViewCompiler.Text CharacterReference

/-! ### Places -/

mutual

/-- A node without places is the node with all its places made one. -/
theorem Node.unplaced_eq_relocate (n : Node) : n.unplaced = n.relocate fun _ => {} := by
  cases n with
  | text span content => rfl
  | interpolation span value => rfl
  | component span name bindings => rfl
  | element span name bindings children =>
    simp only [Node.unplaced, Node.relocate, unplacedAll_eq_relocateAll children]
    rfl
  | directive span spec specSpan d children =>
    simp only [Node.unplaced, Node.relocate, unplacedAll_eq_relocateAll children]

/-- Dropping the places of a forest puts everything at the same one. -/
theorem unplacedAll_eq_relocateAll (nodes : List Node) :
    unplacedAll nodes = relocateAll (fun _ => {}) nodes := by
  cases nodes with
  | nil => rfl
  | cons n nodes =>
    rw [unplacedAll, relocateAll, n.unplaced_eq_relocate, unplacedAll_eq_relocateAll nodes]

end

theorem unplacedAll_append (nodes nodes' : List Node) :
    unplacedAll (nodes ++ nodes') = unplacedAll nodes ++ unplacedAll nodes' := by
  simp only [unplacedAll_eq_relocateAll, relocateAll_eq_map, List.map_append]

/-! ### Pieces of a template -/

/-- The text `cs`, when `rest` follows it, is read into nodes that are the given ones but for their
places. -/
def Reads (cs rest : List Char) (nodes : List Node) : Prop :=
  ∀ size offset, ∃ tokens next,
    scanFrom size ⟨cs ++ rest, offset⟩ = (scanFrom size ⟨rest, next⟩).after tokens ∧
    ∀ source failure later stack before, ∃ found, unplacedAll found = nodes ∧
      assemble source failure (tokens ++ later) stack before =
        assemble source failure later stack (found.reverse ++ before)

theorem Reads.nil (rest : List Char) : Reads [] rest [] := by
  intro size offset
  exact ⟨[], offset, rfl, fun _ _ _ _ _ => ⟨[], rfl, rfl⟩⟩

/-- What is read piece by piece is read as a whole. -/
theorem Reads.append {cs cs' rest : List Char} {nodes nodes' : List Node}
    (h : Reads cs (cs' ++ rest) nodes) (h' : Reads cs' rest nodes') :
    Reads (cs ++ cs') rest (nodes ++ nodes') := by
  intro size offset
  obtain ⟨tokens, next, hscan, hassemble⟩ := h size offset
  obtain ⟨tokens', next', hscan', hassemble'⟩ := h' size next
  refine ⟨tokens ++ tokens', next', ?_, ?_⟩
  · rw [List.append_assoc, hscan, hscan', Scan.after_after]
  · intro source failure later stack before
    obtain ⟨found, hfound, heq⟩ := hassemble source failure (tokens' ++ later) stack before
    -- The second piece is assembled on top of what the first one has left.
    obtain ⟨found', hfound', heq'⟩ :=
      hassemble' source failure later stack (found.reverse ++ before)
    refine ⟨found ++ found', ?_, ?_⟩
    · rw [unplacedAll_append, hfound, hfound']
    · rw [List.append_assoc, heq, heq', List.reverse_append, List.append_assoc]

/-- A piece that is one token. -/
theorem Reads.of_step {cs rest : List Char} {node : Node} (hcs : cs ≠ [])
    (h : ∀ size offset, ∃ token next,
      step size ⟨cs ++ rest, offset⟩ = .ok (some token, ⟨rest, next⟩) ∧
      ∀ source failure later stack before, ∃ n : Node, n.unplaced = node ∧
        assemble source failure (token :: later) stack before =
          assemble source failure later stack (n :: before)) :
    Reads cs rest [node] := by
  intro size offset
  obtain ⟨token, next, hstep, hassemble⟩ := h size offset
  refine ⟨[token], next, scanFrom_of_step hstep hcs, ?_⟩
  intro source failure later stack before
  obtain ⟨n, hn, heq⟩ := hassemble source failure later stack before
  exact ⟨[n], by rw [unplacedAll, hn, unplacedAll], heq⟩

/-- Written text is read back where something else follows it. -/
private theorem reads_text (content : String) {rest : List Char} (hrest : Starts rest) :
    Reads (Markup.text content).write rest (Markup.text content).nodes := by
  simp only [Markup.write, Markup.nodes]
  split
  · rename_i hempty
    rw [hempty]
    exact .nil rest
  · rename_i hcontent
    refine .of_step (encode_ne_nil hcontent) fun size offset => ?_
    obtain ⟨stop, hstep⟩ := step_text hcontent hrest size offset
    refine ⟨_, stop, hstep, fun source failure later stack before => ⟨_, ?_, rfl⟩⟩
    rw [Node.unplaced, decode_encode]

/-- A written interpolation is read back. -/
private theorem reads_interpolation {v : Value} (h : v.Writable false) (rest : List Char) :
    Reads (Markup.interpolation v).write rest (Markup.interpolation v).nodes := by
  simp only [Markup.write, Markup.nodes]
  refine .of_step (List.cons_ne_nil _ _) fun size offset => ?_
  obtain ⟨stop, hread⟩ := readInterpolation_append h size offset rest
  refine ⟨.interpolation offset stop v, stop, ?_,
    fun source failure later stack before => ⟨_, rfl, rfl⟩⟩
  rw [List.append_assoc, step_interpolation (c := ⟨_, offset⟩) rfl]
  simp only [List.cons_append, List.append_assoc, List.nil_append, hread]
  rfl

/-- The first characters of a tag. -/
theorem exists_cons_of_isTagName {name : String} (h : isTagName name = true) :
    ∃ c cs, name.toList = c :: cs ∧ isNameStart c = true := by
  simp only [isTagName, Bool.and_eq_true] at h
  cases hname : name.toList with
  | nil =>
    rw [hname] at h
    cases h.1.1
  | cons c cs =>
    rw [hname] at h
    exact ⟨c, cs, rfl, h.1.1⟩

theorem not_hasPrefix_of_isTagName {name : String} (h : isTagName name = true) :
    hasPrefix "w:" name = false := by
  simp only [isTagName, Bool.and_eq_true, Bool.not_eq_true'] at h
  exact h.2

theorem isNameChar_of_isTagName {name : String} (h : isTagName name = true) :
    ∀ c ∈ name.toList, isNameChar c = true := by
  simp only [isTagName, Bool.and_eq_true, List.all_eq_true] at h
  exact h.1.2

/-- A step over the tag of an element or component. -/
theorem step_writeTag {name : String} (hname : isTagName name = true)
    (hraw : isRawTextElement name = false) {attributes : List MarkupAttribute}
    (hattributes : ∀ a ∈ attributes, a.Canonical) (size offset : Nat) (selfClosing : Bool)
    (rest : List Char) :
    ∃ found stop, found.map Attribute.written = attributes.map MarkupAttribute.written ∧
      step size ⟨writeTag name attributes ++ (tagEnd selfClosing ++ rest), offset⟩ =
        .ok (some ((if selfClosing || isVoidElement name then Token.leaf else Token.opening)
          ⟨name, found, offset, stop⟩), ⟨rest, stop⟩) := by
  obtain ⟨c, cs, hcons, hc⟩ := exists_cons_of_isTagName hname
  obtain ⟨found, stop, hwritten, hread⟩ :=
    readTag_writeTag hname hraw hattributes size offset selfClosing rest
  refine ⟨found, stop, hwritten, ?_⟩
  have hstep : step size ⟨writeTag name attributes ++ (tagEnd selfClosing ++ rest), offset⟩ =
      step.some'
        (readTag size ⟨writeTag name attributes ++ (tagEnd selfClosing ++ rest), offset⟩) := by
    rw [writeTag, hcons]
    exact step_tag rfl hc
  rw [hstep, hread]
  rfl

section Finish

variable {name : String} {attributes : List MarkupAttribute}
  (hattributes : ∀ a ∈ attributes, a.Canonical) {found : List Attribute}
  (hfound : found.map Attribute.written = attributes.map MarkupAttribute.written)
  (source : Source) (start stop stop' : Nat)
include hattributes hfound

/-- A component is completed as the node that it was written from. -/
private theorem finishTag_component (hkind : isComponentName name = true) :
    ∃ node : Node, finishTag source ⟨name, found, start, stop⟩ [] stop' = .ok node ∧
      node.unplaced = .component {} name (attributes.map (MarkupAttribute.binding true)) := by
  obtain ⟨bindings, hbindings, hmap⟩ := bindAttributes_written hattributes hfound source true name
  refine ⟨.component (source.span start stop') name bindings, ?_, by rw [Node.unplaced, hmap]⟩
  simp only [finishTag, hkind, hbindings]
  rfl

/-- An element is completed as the node that it was written from. -/
theorem finishTag_element (hkind : isComponentName name = false) (children : List Node) :
    ∃ node : Node, finishTag source ⟨name, found, start, stop⟩ children stop' = .ok node ∧
      node.unplaced = .element {} name (attributes.map (MarkupAttribute.binding false))
        (unplacedAll children) := by
  obtain ⟨bindings, hbindings, hmap⟩ := bindAttributes_written hattributes hfound source false name
  refine ⟨.element (source.span start stop') name bindings children,
    ?_, by rw [Node.unplaced, hmap]⟩
  simp only [finishTag, hkind, hbindings]
  rfl

end Finish

/-- A tag without content. -/
theorem Reads.of_leaf {name : String} (hname : isTagName name = true)
    (hraw : isRawTextElement name = false) {attributes : List MarkupAttribute}
    (hattributes : ∀ a ∈ attributes, a.Canonical) (selfClosing : Bool)
    (hleaf : (selfClosing || isVoidElement name) = true) {node : Node}
    (hfinish : ∀ source found start stop,
      found.map Attribute.written = attributes.map MarkupAttribute.written →
      ∃ n : Node, finishTag source ⟨name, found, start, stop⟩ [] stop = .ok n ∧ n.unplaced = node)
    (rest : List Char) : Reads (writeTag name attributes ++ tagEnd selfClosing) rest [node] := by
  refine .of_step (by simp [writeTag]) fun size offset => ?_
  obtain ⟨found, stop, hfound, hstep⟩ :=
    step_writeTag hname hraw hattributes size offset selfClosing rest
  rw [hleaf, if_pos rfl] at hstep
  refine ⟨_, stop, (by rw [List.append_assoc]; exact hstep), ?_⟩
  intro source failure later stack before
  obtain ⟨n, hn, hunplaced⟩ := hfinish source found offset stop hfound
  refine ⟨n, hunplaced, ?_⟩
  rw [assemble_leaf, hn]
  rfl

/-- A written component is read back. -/
private theorem reads_component {name : String} (hname : isTagName name = true)
    (hkind : isComponentName name = true) {attributes : List MarkupAttribute}
    (hattributes : ∀ a ∈ attributes, a.Canonical) (rest : List Char) :
    Reads (Markup.component name attributes).write rest
      (Markup.component name attributes).nodes := by
  have hraw : isRawTextElement name = false := by
    rw [isRawTextElement, hkind]
    rfl
  simp only [Markup.write, Markup.nodes]
  exact Reads.of_leaf hname hraw hattributes true rfl
    (fun source found start stop hfound =>
      finishTag_component hattributes hfound source start stop stop hkind) rest

/-- An opening tag is one token, whose tag waits for its content and is completed as the given node
when the content is read into the given nodes. -/
def Opens (opening rest : List Char) (name : String) (nodes : List Node) (node : Node) : Prop :=
  ∀ size offset, ∃ token next, ∃ opened : OpenTag,
    step size ⟨opening ++ rest, offset⟩ = .ok (some token, ⟨rest, next⟩) ∧ opened.name = name ∧
    (∀ source failure later stack before, assemble source failure (token :: later) stack before =
      assemble source failure later (⟨opened, before⟩ :: stack) []) ∧
    ∀ source found stop, unplacedAll found = nodes →
      ∃ n : Node, opened.finish source found stop = .ok n ∧ n.unplaced = node

/-- A step over a closing tag. -/
theorem step_writeClosing {name : String} (hname : ∀ c ∈ name.toList, isNameChar c = true)
    (size offset : Nat) (rest : List Char) :
    ∃ stop, step size ⟨writeClosing name ++ rest, offset⟩ =
      .ok (some (.closing name offset stop), ⟨rest, stop⟩) := by
  obtain ⟨stop, hclosing⟩ := readClosing_append hname offset rest
  have htext : writeClosing name ++ rest = '<' :: '/' :: (name.toList ++ '>' :: rest) := by
    simp [writeClosing]
  rw [String.ofList_toList] at hclosing
  refine ⟨stop, ?_⟩
  rw [htext]
  exact (step_closing rfl).trans (congrArg step.some' hclosing)

/-- A tag, its content and the closing tag. -/
theorem Reads.of_content {opening content rest : List Char} {name : String} {nodes : List Node}
    {node : Node} (hne : opening ≠ []) (hname : ∀ c ∈ name.toList, isNameChar c = true)
    (hopen : Opens opening (content ++ (writeClosing name ++ rest)) name nodes node)
    (hcontent : Reads content (writeClosing name ++ rest) nodes) :
    Reads (opening ++ (content ++ writeClosing name)) rest [node] := by
  intro size offset
  obtain ⟨token, next, opened, hstep, hopened, hpush, hfinish⟩ := hopen size offset
  obtain ⟨tokens, next', hscan, hassemble⟩ := hcontent size next
  obtain ⟨stop, hclose⟩ := step_writeClosing hname size next' rest
  refine ⟨token :: (tokens ++ [.closing name next' stop]), stop, ?_, ?_⟩
  · have htext : opening ++ (content ++ writeClosing name) ++ rest =
        opening ++ (content ++ (writeClosing name ++ rest)) := by simp
    rw [htext, scanFrom_of_step hstep hne, hscan, scanFrom_of_step hclose (List.cons_ne_nil _ _)]
    simp [Scan.after]
  · intro source failure later stack before
    -- The content is assembled above the open tag, with no siblings yet; the closing tag then takes
    -- the siblings before the tag back from the stack.
    obtain ⟨found, hfound, heq⟩ := hassemble source failure (.closing name next' stop :: later)
      (⟨opened, before⟩ :: stack) []
    obtain ⟨n, hn, hunplaced⟩ := hfinish source found stop hfound
    refine ⟨[n], by rw [unplacedAll, hunplaced, unplacedAll], ?_⟩
    have hlist : token :: (tokens ++ [.closing name next' stop]) ++ later =
        token :: (tokens ++ .closing name next' stop :: later) := by simp
    rw [hlist, hpush, heq, assemble_closing hopened, List.append_nil, List.reverse_reverse, hn]
    rfl

/-- The written tag of an element opens it. -/
private theorem opens_element {name : String} (hname : isTagName name = true)
    (hkind : isComponentName name = false) (hraw : isRawTextElement name = false)
    (hvoid : isVoidElement name = false) {attributes : List MarkupAttribute}
    (hattributes : ∀ a ∈ attributes, a.Canonical) (rest : List Char) (nodes : List Node) :
    Opens (writeTag name attributes ++ tagEnd false) rest name nodes
      (.element {} name (attributes.map (MarkupAttribute.binding false)) nodes) := by
  intro size offset
  obtain ⟨found, stop, hfound, hstep⟩ := step_writeTag hname hraw hattributes size offset false rest
  rw [hvoid] at hstep
  refine ⟨_, stop, .tag ⟨name, found, offset, stop⟩, (by rw [List.append_assoc]; exact hstep), rfl,
    fun source failure later stack before => rfl, ?_⟩
  rintro source children close rfl
  exact finishTag_element hattributes hfound source offset stop close hkind children

private theorem exists_name_eq_cons (d : Directive) : ∃ cs, d.name.toList = 'w' :: cs := by
  cases d with
  | conditional negated p => exact ⟨[':', 'i', 'f'], by rw [Directive.name]; rfl⟩
  | repeating l => exact ⟨[':', 'f', 'o', 'r'], by rw [Directive.name]; rfl⟩

/-- A step over the tag of a directive. -/
theorem step_directive {d : Directive} {spec : String} (h : d.IsReadFrom spec) (size offset : Nat)
    (rest : List Char) :
    ∃ tag : DirectiveTag, tag.directive = d ∧ tag.spec = trim spec ∧
      step size ⟨'<' :: (d.name.toList ++ ' ' :: (spec.toList ++ ['>'])) ++ rest, offset⟩ =
        .ok (some (.directive tag false), ⟨rest, tag.stop⟩) := by
  obtain ⟨tag, hdirective, hspec, hread⟩ := readTag_directive h size offset rest
  obtain ⟨cs, hcs⟩ := exists_name_eq_cons d
  have htext : '<' :: (d.name.toList ++ ' ' :: (spec.toList ++ ['>'])) ++ rest =
      '<' :: (d.name.toList ++ ' ' :: (spec.toList ++ '>' :: rest)) := by simp
  have hstep :=
    @step_tag size ⟨'<' :: 'w' :: (cs ++ ' ' :: (spec.toList ++ '>' :: rest)), offset⟩ _ _ rfl rfl
  refine ⟨tag, hdirective, hspec, ?_⟩
  rw [htext]
  rw [hcs] at hread ⊢
  rw [List.cons_append, hstep, ← List.cons_append, hread]
  rfl

/-- The written tag of a directive opens it. -/
private theorem opens_directive {d : Directive} (h : d.Valid) (rest : List Char)
    (nodes : List Node) :
    Opens ('<' :: (d.name.toList ++ ' ' :: (d.render.toList ++ ['>']))) rest d.name nodes
      (.directive {} d.render {} d nodes) := by
  intro size offset
  obtain ⟨tag, rfl, hspec, hstep⟩ := step_directive (Directive.isReadFrom_render h) size offset rest
  refine ⟨.directive tag false, tag.stop, .directive tag, hstep, rfl,
    fun source failure later stack before => rfl, ?_⟩
  rintro source children close rfl
  exact ⟨_, rfl, by rw [finishDirective, Node.unplaced, hspec, trim_directive h]⟩

/-- A written element is read back around children that are. -/
private theorem reads_element {name : String} (hname : isTagName name = true)
    (hkind : isComponentName name = false) (hraw : isRawTextElement name = false)
    {attributes : List MarkupAttribute} (hattributes : ∀ a ∈ attributes, a.Canonical)
    {children : List Markup} (hvoid : isVoidElement name = true → children = []) {rest : List Char}
    (hchildren : Reads (writeAll children) (writeClosing name ++ rest) (nodesAll children)) :
    Reads (Markup.element name attributes children).write rest
      (Markup.element name attributes children).nodes := by
  simp only [Markup.write, Markup.nodes]
  cases hleaf : isVoidElement name with
  | true =>
    obtain rfl := hvoid hleaf
    exact Reads.of_leaf hname hraw hattributes false hleaf
      (fun source found start stop hfound =>
        finishTag_element hattributes hfound source start stop stop hkind []) rest
  | false =>
    have hreads := Reads.of_content (by simp [writeTag]) (isNameChar_of_isTagName hname)
      (opens_element hname hkind hraw hleaf hattributes _ _) hchildren
    rw [List.append_assoc] at hreads
    exact hreads

/-- A written directive is read back around children that are. -/
private theorem reads_directive {d : Directive} (h : d.Valid) {children : List Markup}
    {rest : List Char}
    (hchildren : Reads (writeAll children) (writeClosing d.name ++ rest) (nodesAll children)) :
    Reads (Markup.directive d children).write rest (Markup.directive d children).nodes := by
  have hreads := Reads.of_content (List.cons_ne_nil _ _) isNameChar_of_mem_directive
    (opens_directive h _ _) hchildren
  simpa only [Markup.write, Markup.nodes, List.cons_append, List.append_assoc, List.nil_append]
    using hreads

/-! ### Whole forests -/

/-- Text stops before a written tag. -/
theorem starts_writeTag {name : String} (hname : isTagName name = true)
    (attributes : List MarkupAttribute) (rest : List Char) :
    Starts (writeTag name attributes ++ rest) := by
  obtain ⟨c, cs, hcons, hc⟩ := exists_cons_of_isTagName hname
  refine .of_atTag ?_
  simp [writeTag, hcons, atTag, hc]

/-- Every node but a text starts a new token wherever it stands. -/
private theorem starts_write {m : Markup} (h : m.Canonical) (htext : ∀ content, m ≠ .text content)
    (rest : List Char) : Starts (m.write ++ rest) := by
  cases h with
  | text content => exact absurd rfl (htext content)
  | interpolation hvalue =>
    rw [Markup.write]
    exact .of_openBraces _
  | element hname hkind hraw hvoid hattributes hspaced hchildren =>
    rw [Markup.write, List.append_assoc]
    exact starts_writeTag hname _ _
  | component hname hkind hattributes =>
    rw [Markup.write, List.append_assoc]
    exact starts_writeTag hname _ _
  | directive hd hspaced hchildren =>
    rename_i d children
    obtain ⟨cs, hcs⟩ := exists_name_eq_cons d
    rw [Markup.write, hcs]
    exact .of_atTag rfl

/-- A forest is read whatever follows it, as long as that is no text. -/
theorem reads_writeAll {ms : List Markup}
    (hapart : ∀ before s t after, ms ≠ before ++ .text s :: .text t :: after)
    (hms : ∀ m ∈ ms, m.Canonical)
    (h : ∀ m ∈ ms, ∀ rest, (∀ content, m = .text content → Starts rest) →
      Reads m.write rest m.nodes)
    {rest : List Char} (hrest : Starts rest) : Reads (writeAll ms) rest (nodesAll ms) := by
  induction ms with
  | nil => exact .nil rest
  | cons m ms ih =>
    have hrestCanonical := (List.forall_mem_cons.1 hms).2
    obtain ⟨hm, h⟩ := List.forall_mem_cons.1 h
    have hapart' : ∀ before s t after, ms ≠ before ++ .text s :: .text t :: after := by
      intro before s t after heq
      exact hapart (m :: before) s t after (by rw [heq, List.cons_append])
    refine .append (hm _ ?_) (ih hapart' hrestCanonical h)
    rintro content rfl
    -- A text ends where the forest ends, or at a node that is no text.
    cases ms with
    | nil => exact hrest
    | cons m' ms =>
      have hm' : ∀ content', m' ≠ .text content' := by
        rintro content' rfl
        exact hapart [] content content' ms rfl
      rw [writeAll, List.append_assoc]
      exact starts_write (hrestCanonical m' List.mem_cons_self) hm' _

private theorem starts_writeClosing (name : String) (rest : List Char) :
    Starts (writeClosing name ++ rest) := .of_atTag rfl

/-- Canonical markup is read as the nodes that it stands for. -/
private theorem reads_write {m : Markup} (h : m.Canonical) :
    ∀ rest, (∀ content, m = .text content → Starts rest) → Reads m.write rest m.nodes := by
  induction h with
  | text content => exact fun rest hrest => reads_text content (hrest content rfl)
  | interpolation hvalue => exact fun rest _ => reads_interpolation hvalue rest
  | element hname hkind hraw hvoid hattributes hspaced hchildren ih =>
    intro rest _
    exact reads_element hname hkind hraw hattributes hvoid
      (reads_writeAll hspaced.apart hchildren ih (starts_writeClosing _ rest))
  | component hname hkind hattributes =>
    exact fun rest _ => reads_component hname hkind hattributes rest
  | directive hd hspaced hchildren ih =>
    intro rest _
    exact reads_directive hd
      (reads_writeAll hspaced.apart hchildren ih (starts_writeClosing _ rest))

/-! ### White space -/

/-- Only a text is white space. -/
private theorem eq_text_of_isBlankText {m : Markup} (h : m.Canonical) {n : Node} (hn : n ∈ m.nodes)
    (hblank : n.isBlankText = true) :
    ∃ content, m = .text content ∧ content ≠ "" ∧ content.toList.all isBlank = true := by
  cases h with
  | text content =>
    rw [Markup.nodes] at hn
    split at hn
    · cases hn
    · rename_i hcontent
      obtain rfl := List.mem_singleton.1 hn
      exact ⟨content, rfl, hcontent, hblank⟩
  | interpolation hvalue =>
    rw [Markup.nodes] at hn
    obtain rfl := List.mem_singleton.1 hn
    obtain ⟨source, hsource⟩ := hvalue.read
    rcases cases_of_readExpression hsource with rfl | ⟨path, -, rfl⟩ | ⟨name, text,
      arguments, -, -, rfl⟩
    · cases hblank
    · cases hblank
    · cases hblank
  | element | component | directive =>
    rw [Markup.nodes] at hn
    obtain rfl := List.mem_singleton.1 hn
    cases hblank

/-- Markup is one node, except for the empty text, which is none. -/
theorem nodes_eq_nil_or (m : Markup) :
    m = .text "" ∧ m.nodes = [] ∨
      ∃ n, m.nodes = [n] ∧ (m.isInterpolation = true → n.kind.isStructural = false) := by
  cases m with
  | text content =>
    rw [Markup.nodes]
    split
    · rename_i hcontent
      exact .inl ⟨by rw [hcontent], rfl⟩
    · exact .inr ⟨_, rfl, nofun⟩
  | interpolation value => exact .inr ⟨_, by rw [Markup.nodes], fun _ => rfl⟩
  | element | component | directive => exact .inr ⟨_, by rw [Markup.nodes], nofun⟩

/-- Where markup starts with an interpolation, so do its nodes. -/
private theorem head?_nodesAll_of_isInterpolation {ms : List Markup}
    (h : ms.head?.any Markup.isInterpolation = true) :
    (nodesAll ms).head?.all (·.kind.isStructural) = false := by
  cases ms with
  | nil => cases h
  | cons m ms =>
    rcases nodes_eq_nil_or m with ⟨rfl, -⟩ | ⟨n, hn, hkind⟩
    · cases h
    · rw [nodesAll, hn]
      exact hkind h

/-- Nothing is dropped from a forest in which white space stands beside interpolations. The flag
tells whether the node before the forest is structural or absent. -/
private theorem pruneFrom_nodesAll (before : List Markup) {ms : List Markup}
    (hspaced : Markup.Spaced (before ++ ms)) (hms : ∀ m ∈ ms, m.Canonical)
    (hprune : ∀ m ∈ ms, ∀ n ∈ m.nodes, n.prune = n) {structural : Bool}
    (hbefore : before.getLast?.any Markup.isInterpolation = true → structural = false) :
    pruneFrom structural (nodesAll ms) = nodesAll ms := by
  induction ms generalizing before structural with
  | nil => rfl
  | cons m ms ih =>
    obtain ⟨hm, hcanonical⟩ := List.forall_mem_cons.1 hms
    obtain ⟨hmprune, hrest⟩ := List.forall_mem_cons.1 hprune
    have hspaced' : Markup.Spaced (before ++ [m] ++ ms) := by simpa using hspaced
    have hlast : (before ++ [m]).getLast? = some m := List.getLast?_concat
    rcases nodes_eq_nil_or m with ⟨rfl, hnil⟩ | ⟨n, hn, hkind⟩
    · rw [nodesAll, hnil, List.nil_append]
      refine ih _ hspaced' hcanonical hrest ?_
      rw [hlast]
      exact nofun
    · have hkeep : (n.isBlankText && structural &&
          (nodesAll ms).head?.all (·.kind.isStructural)) = false := by
        cases hblank : n.isBlankText with
        | false => rfl
        | true =>
          obtain ⟨content, rfl, hne, hall⟩ :=
            eq_text_of_isBlankText hm (hn ▸ List.mem_singleton_self n) hblank
          -- The interpolation is before or after the white space, and the flag tells only what is
          -- before.
          rcases hspaced.beside before content ms rfl hne hall with hleft | hright
          · rw [hbefore hleft]
            rfl
          · rw [head?_nodesAll_of_isInterpolation hright, Bool.and_false]
      rw [nodesAll, hn, List.singleton_append, pruneFrom, hkeep,
        ih _ hspaced' hcanonical hrest (by rw [hlast]; exact hkind),
        hmprune n (hn ▸ List.mem_singleton_self n)]
      rfl

/-- Pruning leaves the nodes of spaced markup as they are. -/
theorem pruneFrom_true_nodesAll {ms : List Markup} (hspaced : Markup.Spaced ms)
    (hms : ∀ m ∈ ms, m.Canonical) (hprune : ∀ m ∈ ms, ∀ n ∈ m.nodes, n.prune = n) :
    pruneFrom true (nodesAll ms) = nodesAll ms :=
  pruneFrom_nodesAll [] hspaced hms hprune fun h => absurd h (by decide)

/-- Pruning leaves the nodes of canonical markup as they are. -/
private theorem prune_of_mem_nodes {m : Markup} (h : m.Canonical) : ∀ n ∈ m.nodes, n.prune = n := by
  induction h with
  | text content =>
    intro n hn
    rw [Markup.nodes] at hn
    split at hn
    · cases hn
    · obtain rfl := List.mem_singleton.1 hn
      rfl
  | interpolation hvalue =>
    intro n hn
    rw [Markup.nodes] at hn
    obtain rfl := List.mem_singleton.1 hn
    rfl
  | element hname hkind hraw hvoid hattributes hspaced hchildren ih =>
    intro n hn
    rw [Markup.nodes] at hn
    obtain rfl := List.mem_singleton.1 hn
    rw [Node.prune, pruneFrom_true_nodesAll hspaced hchildren ih]
  | component hname hkind hattributes =>
    intro n hn
    rw [Markup.nodes] at hn
    obtain rfl := List.mem_singleton.1 hn
    rfl
  | directive hd hspaced hchildren ih =>
    intro n hn
    rw [Markup.nodes] at hn
    obtain rfl := List.mem_singleton.1 hn
    rw [Node.prune, pruneFrom_true_nodesAll hspaced hchildren ih]

/-- A canonical template is read without a fault, and as the forest that it was written from. -/
theorem parse_writeAll {ms : List Markup} (hspaced : Markup.Spaced ms)
    (hms : ∀ m ∈ ms, m.Canonical) (component : String) :
    ∃ nodes, parse component (String.ofList (writeAll ms)) = .ok nodes ∧
      unplacedAll nodes = nodesAll ms := by
  have hreads : Reads (writeAll ms) [] (nodesAll ms) :=
    reads_writeAll hspaced.apart hms (fun m hm => reads_write (hms m hm)) rfl
  obtain ⟨tokens, next, hscan, hassemble⟩ := hreads (byteLength (writeAll ms)) 0
  obtain ⟨found, hfound, heq⟩ := hassemble (Source.ofText (writeAll ms)) none [] [] []
  have hend : scanFrom (byteLength (writeAll ms)) ⟨[], next⟩ = ⟨[], none⟩ := by
    rw [scanFrom]
    rfl
  have htokens : scan (writeAll ms) = ⟨tokens, none⟩ := by
    rw [List.append_nil, hend] at hscan
    rw [scan, hscan, Scan.after, List.append_nil]
  have hnodes : assemble (Source.ofText (writeAll ms)) none tokens [] [] = .ok found := by
    rw [List.append_nil] at heq
    rw [heq, assemble, List.append_nil, List.reverse_reverse]
  refine ⟨pruneWhitespace found, ?_, ?_⟩
  · simp only [parse, String.toList_ofList, htokens, hnodes]
  -- Pruning does not look at places, so it can be done to the forest that was written.
  · rw [pruneWhitespace, unplacedAll_eq_relocateAll, ← pruneFrom_relocateAll,
      ← unplacedAll_eq_relocateAll, hfound]
    exact pruneFrom_true_nodesAll hspaced hms fun m hm => prune_of_mem_nodes (hms m hm)

/-! ### A page with a list of cards -/

namespace CardPage

def greeting : List Markup :=
  [.text "Hi <", .interpolation (.literal "'a\x7d\x7db'"), .text " "]

def card : Markup := .component "Card" [.attr "role" (.literal "1")]

def page : List Markup :=
  [.element "p" [.literal "class" "a & b", .bound "title" (.access ⟨"user", ["name"]⟩),
      .handler "click" "pick" [.payload, .literal "'x, y'"]] greeting,
    .element "br" [] [],
    .directive (.repeating ⟨"x", "i", ⟨"xs", []⟩, ["id"]⟩) [card]]

/-- The value that is shown can be written between braces, though it has braces in it. -/
private theorem writable_shown : (Value.literal "'a\x7d\x7db'").Writable false where
  read := ⟨"'a\x7d\x7db'".toList, by rfl⟩
  closed := by decide
  unquoted := by decide
  unbraced := by
    intro before after heq
    rcases before with _ | ⟨c, _ | ⟨d, _ | ⟨_, _ | ⟨_, _ | ⟨_, _ | ⟨_, before⟩⟩⟩⟩⟩⟩ <;>
      simp [Value.render] at heq
    obtain ⟨rfl, rfl, -⟩ := heq
    decide

private theorem spaced_greeting : Markup.Spaced greeting where
  apart := by
    intro before s t after heq
    rcases before with _ | ⟨_, _ | ⟨_, _ | ⟨_, before⟩⟩⟩ <;> simp [greeting] at heq
  beside := by
    intro before content after heq _ _
    rcases before with _ | ⟨_, _ | ⟨c, _ | ⟨_, before⟩⟩⟩ <;> simp [greeting] at heq
    · rw [← heq.2]
      exact .inr rfl
    · rw [← heq.2.1]
      exact .inl rfl

private theorem canonical_greeting : ∀ m ∈ greeting, m.Canonical :=
  List.forall_mem_cons.2 ⟨.text _, List.forall_mem_cons.2 ⟨.interpolation writable_shown,
    List.forall_mem_singleton.2 (.text _)⟩⟩

private theorem canonical_card : card.Canonical := by
  have hrole : (Value.literal "1").Writable false :=
    .of_notMem "1".toList rfl (by decide) (by decide) (by decide)
  exact .component (by decide) (by decide) (List.forall_mem_singleton.2 ⟨by decide, hrole⟩)

/-- The sample page is canonical. -/
private theorem canonical_page : ∀ m ∈ page, m.Canonical := by
  have htitle : (Value.access ⟨"user", ["name"]⟩).Writable false :=
    .of_notMem "user.name".toList rfl (by decide) (by decide) (by decide)
  have hclick : (Value.call "pick" [.payload, .literal "'x, y'"]).Writable true :=
    .of_notMem "pick(#, 'x, y')".toList rfl (by decide) (by decide) (by decide)
  refine List.forall_mem_cons.2 ⟨?_, List.forall_mem_cons.2 ⟨?_, List.forall_mem_singleton.2 ?_⟩⟩
  · refine .element (by decide) (by decide) (by decide) (by decide) ?_ spaced_greeting
      canonical_greeting
    exact List.forall_mem_cons.2 ⟨(by decide : isAttributeName "class" = true),
      List.forall_mem_cons.2 ⟨⟨by decide, htitle⟩, List.forall_mem_singleton.2 ⟨by decide, hclick⟩⟩⟩
  · exact .element (by decide) (by decide) (by decide) (fun _ => rfl) nofun
      (Markup.Spaced.of_forall_ne_text nofun) nofun
  · refine .directive ⟨by decide, .inr ⟨by decide, by decide⟩, ?_, ?_⟩
      (Markup.Spaced.of_forall_ne_text ?_) (List.forall_mem_singleton.2 canonical_card)
    · exact (by decide : ∀ s ∈ ["xs"], isIdentifier s.toList = true)
    · exact (by decide : ∀ s ∈ ["id"], isIdentifier s.toList = true)
    · exact List.forall_mem_singleton.2 nofun

/-- No two texts of the sample page stand side by side. -/
private theorem spaced_page : Markup.Spaced page :=
  Markup.Spaced.of_forall_ne_text (List.forall_mem_cons.2 ⟨nofun, List.forall_mem_cons.2 ⟨nofun,
    List.forall_mem_singleton.2 nofun⟩⟩)

end CardPage

/-- The written form of the page, and the forest that it is read as. -/
theorem CardPage.written_and_read :
    String.ofList (writeAll page) =
      "<p class=\"a &amp; b\" [title]=\"user.name\" (click)=\"pick(#, 'x, y')\">Hi &lt;" ++
      "\x7b\x7b 'a\x7d\x7db' \x7d\x7d </p><br><w:for (x, i) of xs; key: id>" ++
      "<Card [attr.role]=\"1\"/></w:for>" ∧
    ∃ nodes, parse "Page" (String.ofList (writeAll page)) = .ok nodes ∧
      unplacedAll nodes = nodesAll page :=
  ⟨by decide +kernel, parse_writeAll spaced_page canonical_page "Page"⟩

end ViewCompiler.Template
