import Mathlib
import ViewCompiler.Proofs.Template.Expression
import ViewCompiler.Proofs.Template.LoopHead
import ViewCompiler.Proofs.Template.Payload
import ViewCompiler.Proofs.Template.Steps

/-!
# Templates are well-formed

What the compiler relies on without a check, for every node of a template that was read
(`Node.WellFormed`) and for every binding (`Binding.WellFormed`): which bindings a node has, which
nodes have content, and what the values are made of. These facts are decided in the readers of
expressions, directives and attributes, one by one; a tag that is complete has them
(`isContent_of_finishTag`), wrapped in a directive or not, and so does a forest that is assembled,
with its blank text or without it. A copy of a template is the template (`copyForest_eq`).

Some of what can go wrong with a node cannot even be written down: a text has no bindings and a
component no children, by the constructors of `Node`. What is left are conditions on data, and each
is shown where the data is made. The path of a value is valid because its reader accepts identifiers
only; a handler is a call because its reader refuses everything else; a payload occurs in handlers
because every other reader is told not to accept one.

The children of a node are conditions on the forest. `IsContent` is what a forest has to be in order
to stand anywhere but in raw text, and `Tag.Contains` what a forest has to be in order to stand in a
given tag: void elements are empty, and raw text elements hold one text at most. Assembling goes
along the tokens with `IsContent` as its invariant.
-/

namespace ViewCompiler.Template

open ViewCompiler.Text

/-! ### Values -/

/-- The paths that an argument reads. -/
def Argument.paths : Argument → List Path
  | .access path => [path]
  | .literal _ | .payload => []

/-- The paths that a value reads, those of its arguments included. -/
def Value.paths : Value → List Path
  | .access path => [path]
  | .call _ arguments => arguments.flatMap Argument.paths
  | .text _ | .literal _ => []

/-- What holds of every binding that was read. -/
structure Binding.WellFormed (b : Binding) : Prop where
  /-- Events and outputs are answered by calls. -/
  handler : b.kind = .event ∨ b.kind = .output → ∃ method arguments,
  b.value = .call method arguments
  /-- The payload is an argument of such a call only. -/
  payload : b.value.HasPayload → b.kind = .event ∨ b.kind = .output
  /-- No argument of a call is a call. -/
  arguments : ∀ method arguments, b.value = .call method arguments → ∀ a ∈ arguments,
    (∃ source, a = .literal source) ∨ (∃ path, a = .access path) ∨ a = .payload
  /-- Every path is a list of identifiers and not empty. -/
  paths : ∀ path ∈ b.value.paths, path.segments ≠ [] ∧ path.Valid

private theorem isHandler_iff {k : BindingKind} :
    k.isHandler = true ↔ k = .event ∨ k = .output := by
  cases k <;> simp [BindingKind.isHandler]

theorem Binding.WellFormed.of {b : Binding}
    (hhandler : b.kind.isHandler = true → ∃ method arguments, b.value = .call method arguments)
    (hpayload : b.HandlesPayload) (hpaths : ∀ path ∈ b.value.paths, path.Valid) : b.WellFormed where
  handler h := hhandler (isHandler_iff.2 h)
  payload h := isHandler_iff.1 (hpayload h)
  arguments _ _ _ a _ := by
    cases a with
    | literal source => exact .inl ⟨source, rfl⟩
    | access path => exact .inr (.inl ⟨path, rfl⟩)
    | payload => exact .inr (.inr rfl)
  paths path h := ⟨List.cons_ne_nil _ _, hpaths path h⟩

/-- A binding of a value that reads nothing. -/
theorem Binding.WellFormed.of_paths_eq_nil {b : Binding} (hkind : b.kind.isHandler = false)
    (hpayload : ¬b.value.HasPayload) (hpaths : b.value.paths = []) : b.WellFormed :=
  .of (by simp [hkind]) (fun h => (hpayload h).elim) (by simp [hpaths])

/-- The paths of an argument that was read are valid. -/
private theorem valid_of_readArgument {payload : Bool} {source : List Char} {a : Argument}
    (h : readArgument payload source = .ok a) : ∀ path ∈ a.paths, path.Valid := by
  obtain ⟨-, ⟨-, -, rfl⟩ | rfl | ⟨path, hpath, rfl⟩⟩ := cases_of_readArgument h
  · exact List.forall_mem_nil _
  · exact List.forall_mem_nil _
  · exact List.forall_mem_singleton.2 (render_of_readPath? hpath).2

/-- The paths of arguments that were read are valid. -/
private theorem valid_of_readArguments {payload : Bool} {source : List Char}
    {arguments : List Argument} (h : readArguments payload source = .ok arguments) :
    ∀ a ∈ arguments, ∀ path ∈ a.paths, path.Valid := by
  obtain rfl | ⟨pieces, -, hread⟩ := cases_of_readArguments h
  · exact List.forall_mem_nil _
  · intro a ha
    obtain ⟨piece, -, hpiece⟩ := exists_of_mem_mapM hread ha
    exact valid_of_readArgument hpiece

/-- All paths of an expression are lists of identifiers. -/
theorem valid_of_readExpression {payload : Bool} {source : List Char} {v : Value}
    (h : readExpression payload source = .ok v) : ∀ path ∈ v.paths, path.Valid := by
  rcases cases_of_readExpression h with rfl | ⟨path, hpath, rfl⟩ |
    ⟨name, text, arguments, -, harguments, rfl⟩
  · simp [Value.paths]
  · exact List.forall_mem_singleton.2 (render_of_readPath? hpath).2
  · intro path hmem
    obtain ⟨a, ha, hpath⟩ := List.mem_flatMap.1 hmem
    exact valid_of_readArguments harguments a ha path hpath

/-! ### Directives -/

/-- What a directive reads is a path, and the variables of a repeater differ. -/
def Directive.WellFormed : Directive → Prop
  | conditional _ path => path.Valid
  | repeating l => l.item ≠ "" ∧ l.item ≠ l.index ∧ l.source.Valid ∧
    ∀ s ∈ l.key, isIdentifier s.toList = true

/-- The path of a well-formed directive is valid. -/
theorem Directive.WellFormed.path {d : Directive} (h : d.WellFormed) : d.path.Valid := by
  cases d with
  | conditional negated path => exact h
  | repeating l => exact h.2.2.1

/-- What is read as a condition is well formed. -/
private theorem wellFormed_of_readCondition {spec : String} {d : Directive}
    (h : readCondition spec = .ok d) : d.WellFormed := by
  obtain ⟨path, ⟨rfl, hpath⟩ | ⟨rfl, rest, -, hpath⟩⟩ := cases_of_readCondition h
  · exact (render_of_readPath? hpath).2
  · exact (render_of_readPath? hpath).2

/-- What is read as a repeater is well formed. -/
private theorem wellFormed_of_readRepeater {spec : String} {l : Loop}
    (h : readRepeater spec = .ok l) :
    (Directive.repeating l).WellFormed := by
  have hread := readable_of_readRepeater h
  have hitem : l.item ≠ "" := fun hnil => ne_nil_of_isVariable hread.item (by rw [hnil]; rfl)
  refine ⟨hitem, ?_, hread.source, hread.key⟩
  rcases hread.index with hnone | ⟨-, hne⟩
  · rwa [hnone]
  · exact hne.symm

/-- A directive that was read is well formed. -/
theorem Directive.IsReadFrom.wellFormed {spec : String} {d : Directive} (h : d.IsReadFrom spec) :
    d.WellFormed := by
  rcases h with h | ⟨l, h, rfl⟩
  · exact wellFormed_of_readCondition h
  · exact wellFormed_of_readRepeater h

/-! ### Attributes -/

/-- The kinds of the bindings of a component, or else of an element. -/
def boundKinds (component : Bool) : List BindingKind :=
  if component then [.input, .output, .attr] else [.attr, .property, .event]

/-- A dynamic attribute is bound to a kind that suits its tag. -/
private theorem mem_boundKinds_of_dynamicTarget {component : Bool} {a : Attribute}
    {kind : BindingKind} {target : String} (h : dynamicTarget component a = .ok (kind, target)) :
    kind ∈ boundKinds component := by
  unfold dynamicTarget at h
  simp only at h
  split at h
  · cases h
  · split at h
    · cases h
    · split at h
      · obtain ⟨rfl, -⟩ := Prod.mk.inj (Except.ok.inj h)
        cases component <;> simp [boundKinds]
      · split at h
        · cases h
        · obtain ⟨rfl, -⟩ := Prod.mk.inj (Except.ok.inj h)
          cases component <;> simp [boundKinds]
        · split at h
          · cases h
          · split at h
            · cases h
            · split at h
              · obtain ⟨rfl, -⟩ := Prod.mk.inj (Except.ok.inj h)
                cases component <;> simp [boundKinds]
              · obtain ⟨rfl, -⟩ := Prod.mk.inj (Except.ok.inj h)
                cases component <;> simp [boundKinds]

/-- What a bracketed attribute binds to a handler is a call. -/
private theorem cases_of_bindDynamic {component : Bool} {a : Attribute} {kind : BindingKind}
    {target : String}
    {v : Value} (h : bindDynamic component a = .ok (kind, target, v)) :
    kind ∈ boundKinds component ∧
      (kind.isHandler = true → ∃ method arguments, v = .call method arguments) ∧
      ∀ path ∈ v.paths, path.Valid := by
  obtain ⟨htarget, hread, hcall⟩ := readExpression_of_bindDynamic h
  exact ⟨mem_boundKinds_of_dynamicTarget htarget, hcall, valid_of_readExpression hread⟩

/-- A literal attribute is bound to a kind that suits its tag, without paths, and never to a
handler. -/
private theorem cases_of_bindLiteral (component : Bool) (a : Attribute) :
    (bindLiteral component a).1 ∈ boundKinds component ∧
      (bindLiteral component a).1.isHandler = false ∧ (bindLiteral component a).2.2.paths = [] := by
  unfold bindLiteral
  simp only
  split
  · rename_i hcomponent
    rw [hcomponent]
    refine ⟨List.mem_cons_self, rfl, ?_⟩
    split <;> rfl
  · rename_i hcomponent
    rw [Bool.of_not_eq_true hcomponent]
    split
    · exact ⟨by simp [boundKinds], rfl, rfl⟩
    · exact ⟨by simp [boundKinds], rfl, rfl⟩
    · exact ⟨by simp [boundKinds], rfl, rfl⟩

/-- An attribute gives a well-formed binding of a kind that suits its tag. -/
private theorem wellFormed_of_bindAttribute {source : Source} {component : Bool} {a : Attribute}
    {b : Binding}
    (h : bindAttribute source component a = .ok b) :
    b.kind ∈ boundKinds component ∧ b.WellFormed := by
  have hpayload := handlesPayload_of_bindAttribute h
  obtain ⟨kind, target, v, rfl, hbind | hbind⟩ := cases_of_bindAttribute h
  · obtain ⟨hkind, hhandler, hpaths⟩ := cases_of_bindDynamic hbind
    exact ⟨hkind, .of hhandler hpayload hpaths⟩
  · obtain ⟨hkind, hhandler, hpaths⟩ := cases_of_bindLiteral component a
    have hliteral := not_hasPayload_bindLiteral component a
    rw [hbind] at hkind hhandler hpaths hliteral
    exact ⟨hkind, .of_paths_eq_nil hhandler hliteral hpaths⟩

/-! ### Nodes -/

/-- What holds of every node that was read, by its kind. -/
structure Node.WellFormed (n : Node) : Prop where
  /-- Raw text has its text. -/
  text : n.kind = .text → n.children = [] ∧
    ∃ b content, n.bindings = [b] ∧ b.kind = .text ∧ b.value = .text content
  interpolation : n.kind = .interpolation → n.children = [] ∧
    ∃ b, n.bindings = [b] ∧ b.kind = .interpolation
  conditional : n.kind = .conditional →
    ∃ b path, n.bindings = [b] ∧ b.kind = .condition ∧ b.value = .access path
  repeating : n.kind = .repeating →
    ∃ b path, n.bindings = [b] ∧ b.kind = .repeatSource ∧ b.value = .access path
  /-- The variables and the key of a repeater. -/
  loop : ∀ span spec specSpan l children,
    n = .directive span spec specSpan (.repeating l) children →
      l.item ≠ "" ∧ l.item ≠ l.index ∧ ∀ s ∈ l.key, isIdentifier s.toList = true
  component : n.kind = .component → n.children = [] ∧
    ∀ b ∈ n.bindings, b.kind = .input ∨ b.kind = .output ∨ b.kind = .attr
  element : n.kind = .element →
    (∀ b ∈ n.bindings, b.kind = .attr ∨ b.kind = .property ∨ b.kind = .event) ∧
      (isVoidElement n.name = true → n.children = [])
  /-- Raw text is the only child of a raw text element. -/
  content : ∀ c ∈ n.children, c.kind = .text →
    n.kind = .element ∧ isRawTextElement n.name = true ∧ n.children = [c]
  bindings : ∀ b ∈ n.bindings, b.WellFormed

section Nodes

variable {source : Source} {n : Node} {children : List Node}

private theorem wellFormed_text (span : Span) (content : String) :
    (Node.text span content).WellFormed where
  text _ := ⟨rfl, _, content, rfl, rfl, rfl⟩
  interpolation := nofun
  conditional := nofun
  repeating := nofun
  loop := nofun
  component := nofun
  element := nofun
  content := nofun
  bindings := List.forall_mem_singleton.2 (.of_paths_eq_nil rfl id rfl)

/-- An interpolation is well formed if its value has valid paths and no payload. -/
theorem wellFormed_interpolation (span : Span) {v : Value} (hpayload : ¬v.HasPayload)
    (hpaths : ∀ path ∈ v.paths, path.Valid) : (Node.interpolation span v).WellFormed where
  text := nofun
  interpolation _ := ⟨rfl, _, rfl, rfl⟩
  conditional := nofun
  repeating := nofun
  loop := nofun
  component := nofun
  element := nofun
  content := nofun
  bindings := List.forall_mem_singleton.2
    (.of nofun (fun h => (hpayload h).elim) hpaths)

/-- A directive node is well formed if its directive is and no text stands directly below it. -/
private theorem wellFormed_directive (span : Span) (spec : String) (specSpan : Span) {d : Directive}
    (hd : d.WellFormed) (hchildren : ∀ c ∈ children, c.kind ≠ .text) :
    (Node.directive span spec specSpan d children).WellFormed where
  text h := by cases d <;> cases h
  interpolation h := by cases d <;> cases h
  conditional h := by
    cases d with
    | conditional negated path => exact ⟨_, path, rfl, rfl, rfl⟩
    | repeating l => cases h
  repeating h := by
    cases d with
    | conditional negated path => cases h
    | repeating l => exact ⟨_, l.source, rfl, rfl, rfl⟩
  loop _ _ _ l _ h := by
    obtain ⟨-, -, -, rfl, -⟩ := Node.directive.inj h
    exact ⟨hd.1, hd.2.1, hd.2.2.2⟩
  component h := by cases d <;> cases h
  element h := by cases d <;> cases h
  content c hc htext := absurd htext (hchildren c hc)
  bindings := by
    have hpayload : ¬(Value.access d.path).HasPayload := id
    refine List.forall_mem_singleton.2 (.of (fun h => ?_) (fun h => (hpayload h).elim) ?_)
    · cases d <;> cases h
    · exact List.forall_mem_singleton.2 hd.path

/-- A component node is well formed if its bindings are and suit components. -/
private theorem wellFormed_component (span : Span) (name : String) {bindings : List Binding}
    (h : ∀ b ∈ bindings, b.kind ∈ boundKinds true ∧ b.WellFormed) :
    (Node.component span name bindings).WellFormed where
  text hkind := by cases hkind
  interpolation hkind := by cases hkind
  conditional hkind := by cases hkind
  repeating hkind := by cases hkind
  loop _ _ _ _ _ heq := by cases heq
  component _ := ⟨rfl, fun b hb => by simpa [boundKinds] using (h b hb).1⟩
  element hkind := by cases hkind
  content _ hc := by cases hc
  bindings b hb := (h b hb).2

/-- An element is well formed if its bindings suit elements, a void one is empty and only raw text
stands below it. -/
private theorem wellFormed_element (span : Span) {name : String} {bindings : List Binding}
    (h : ∀ b ∈ bindings, b.kind ∈ boundKinds false ∧ b.WellFormed)
    (hvoid : isVoidElement name = true → children = [])
    (htext : ∀ c ∈ children, c.kind = .text → isRawTextElement name = true ∧ children = [c]) :
    (Node.element span name bindings children).WellFormed where
  text hkind := by cases hkind
  interpolation hkind := by cases hkind
  conditional hkind := by cases hkind
  repeating hkind := by cases hkind
  loop _ _ _ _ _ heq := by cases heq
  component hkind := by cases hkind
  element _ := ⟨fun b hb => by simpa [boundKinds] using (h b hb).1, hvoid⟩
  content c hc hkind := ⟨rfl, htext c hc hkind⟩
  bindings b hb := (h b hb).2

/-- All nodes are well-formed, and none of those on top is raw text. -/
structure IsContent (nodes : List Node) : Prop where
  wellFormed : AllNodes Node.WellFormed nodes
  kind_ne_text : ∀ n ∈ nodes, n.kind ≠ .text

private theorem isContent_nil : IsContent [] := ⟨allNodes_nil, by simp⟩

/-- Content goes on behind a node that is content on its own. -/
theorem IsContent.cons {nodes : List Node} (hn : IsContent [n]) (h : IsContent nodes) :
    IsContent (n :: nodes) :=
  ⟨allNodes_cons.2 ⟨(allNodes_cons.1 hn.wellFormed).1, h.wellFormed⟩,
    List.forall_mem_cons.2 ⟨hn.kind_ne_text n List.mem_cons_self, h.kind_ne_text⟩⟩

/-- A directive around content is content. -/
theorem isContent_directive (span : Span) (spec : String) (specSpan : Span) {d : Directive}
    (hd : d.WellFormed) (h : IsContent children) :
    IsContent [.directive span spec specSpan d children] := by
  refine ⟨allNodes_singleton ?_ h.wellFormed, List.forall_mem_singleton.2 ?_⟩
  · exact wellFormed_directive span spec specSpan hd h.kind_ne_text
  · cases d <;> simp [Node.kind, Directive.nodeKind]

/-- The content of a tag is well-formed, and raw text only in a raw text element. -/
structure Tag.Contains (tag : Tag) (children : List Node) : Prop where
  wellFormed : AllNodes Node.WellFormed children
  void : isVoidElement tag.name = true → children = []
  text : ∀ c ∈ children, c.kind = .text → isRawTextElement tag.name = true ∧ children = [c]

/-- Content may stand in a tag, unless the tag is void. -/
theorem IsContent.contains {tag : Tag} (h : IsContent children)
    (hvoid : isVoidElement tag.name = true → children = []) : tag.Contains children :=
  ⟨h.wellFormed, hvoid, fun c hc htext => absurd htext (h.kind_ne_text c hc)⟩

/-- Raw text may stand in a tag with raw text. -/
private theorem contains_verbatimBody {tag : Tag} (htag : isRawTextElement tag.name = true)
    (start stop : Nat) (body : String) : tag.Contains (verbatimBody source start stop body) := by
  unfold verbatimBody
  split
  · exact isContent_nil.contains fun _ => rfl
  · refine ⟨allNodes_singleton (wellFormed_text _ body) allNodes_nil, fun hvoid => ?_, ?_⟩
    · rw [not_isVoidElement_of_isRawTextElement htag] at hvoid
      cases hvoid
    · exact List.forall_mem_singleton.2 fun _ => ⟨htag, rfl⟩

/-- A tag that is complete is well-formed, in a directive or not. -/
theorem isContent_of_finishTag {tag : Tag} {stop : Nat} (hcontains : tag.Contains children)
    (h : finishTag source tag children stop = .ok n) : IsContent [n] := by
  obtain ⟨bindings, directive, node, hbinds, hholds, hwraps⟩ := finishes_of_finishTag h
  have hbound : ∀ b ∈ bindings, b.kind ∈ boundKinds (isComponentName tag.name) ∧ b.WellFormed := by
    intro b hb
    obtain ⟨a, -, ha⟩ := hbinds.bound b hb
    exact wellFormed_of_bindAttribute ha
  have hnode : IsContent [node] := by
    cases hholds with
    | component hname =>
      rw [hname] at hbound
      exact ⟨allNodes_singleton (wellFormed_component _ _ hbound) allNodes_nil, by simp [Node.kind]⟩
    | element hname =>
      rw [hname] at hbound
      have hown := wellFormed_element (source.span tag.start stop) hbound hcontains.void
        hcontains.text
      exact ⟨allNodes_singleton hown hcontains.wellFormed, by simp [Node.kind]⟩
  cases hwraps with
  | bare => exact hnode
  | wrapped hread => exact isContent_directive _ _ _ hread.wellFormed hnode

end Nodes

/-! ### Forests -/

section Forests

variable {source : Source} {tokens : List Token} {nodes : List Node}

/-- A token that makes a node on its own makes content. -/
private theorem isContent_of_makes {c next : Cursor} {token : Token} {n : Node}
    (hread : token.ReadAt c next)
    (h : token.Makes source n) : IsContent [n] := by
  cases h with
  | text start stop raw =>
    exact ⟨allNodes_singleton (wellFormed_interpolation _ id (by simp [Value.paths])) allNodes_nil,
      by simp [Node.kind]⟩
  | interpolation start stop v =>
    obtain ⟨-, -, e, -, he⟩ := hread
    exact ⟨allNodes_singleton (wellFormed_interpolation _ (not_hasPayload_of_readExpression he)
      (valid_of_readExpression he)) allNodes_nil, by simp [Node.kind]⟩
  | leaf h => exact isContent_of_finishTag (isContent_nil.contains fun _ => rfl) h
  | verbatim h => exact isContent_of_finishTag (contains_verbatimBody hread.2.2 _ _ _) h
  | directive tag => exact isContent_directive _ _ _ hread.1.read.wellFormed isContent_nil

/-- A token that opens a node makes content, with content between it and its end. -/
private theorem isContent_of_opens {c next : Cursor} {token : Token} {opened : OpenTag}
    {children : List Node}
    {stop : Nat} {n : Node} (hread : token.ReadAt c next) (hopens : token.Opens opened)
    (hchildren : IsContent children) (h : opened.finish source children stop = .ok n) :
    IsContent [n] := by
  cases hopens with
  | tag tag =>
    refine isContent_of_finishTag (hchildren.contains fun hvoid => ?_) h
    rw [hread.2.2] at hvoid
    cases hvoid
  | directive tag =>
    obtain rfl := Except.ok.inj h
    exact isContent_directive _ _ _ hread.1.read.wellFormed hchildren

/-- Whatever is assembled from tokens that were read is well-formed. -/
private theorem isContent_of_assembles (hread : ∀ t ∈ tokens, ∃ c next, t.ReadAt c next)
    (h : Assembles source tokens nodes) : IsContent nodes := by
  induction h with
  | nil => exact isContent_nil
  | single hmakes _ ih =>
    obtain ⟨⟨c, next, htoken⟩, hrest⟩ := List.forall_mem_cons.1 hread
    exact (isContent_of_makes htoken hmakes).cons (ih hrest)
  | content start hopens _ hfinish _ ihcontent ihrest =>
    obtain ⟨⟨c, next, htoken⟩, hmore⟩ := List.forall_mem_cons.1 hread
    obtain ⟨hcontent, hclosed⟩ := List.forall_mem_append.1 hmore
    obtain ⟨-, hrest⟩ := List.forall_mem_cons.1 hclosed
    exact (isContent_of_opens htoken hopens (ihcontent hcontent) hfinish).cons (ihrest hrest)

/-- What is left by pruning are nodes from before, each of them pruned. -/
theorem exists_prune_of_mem_pruneFrom {structuralBefore : Bool} {m : Node}
    (h : m ∈ pruneFrom structuralBefore nodes) : ∃ n ∈ nodes, m = n.prune := by
  induction nodes generalizing structuralBefore with
  | nil => cases h
  | cons n nodes ih =>
    rw [pruneFrom] at h
    split at h
    · obtain ⟨n', hn', heq⟩ := ih h
      exact ⟨n', List.mem_cons_of_mem _ hn', heq⟩
    · rcases List.mem_cons.1 h with heq | h
      · exact ⟨n, List.mem_cons_self, heq⟩
      · obtain ⟨n', hn', heq⟩ := ih h
        exact ⟨n', List.mem_cons_of_mem _ hn', heq⟩

private theorem Node.exists_eq_text {n : Node} (h : n.kind = .text) :
    ∃ span content, n = .text span content := by
  cases n with
  | text span content => exact ⟨span, content, rfl⟩
  | directive span spec specSpan d children => cases d <;> cases h
  | _ => cases h

/-- Pruning keeps a node well formed. -/
theorem Node.WellFormed.prune {n : Node} (h : n.WellFormed) : n.prune.WellFormed where
  text hkind := by
    obtain ⟨hchildren, hb⟩ := h.text (n.kind_prune ▸ hkind)
    rw [n.children_prune, n.bindings_prune, hchildren]
    exact ⟨rfl, hb⟩
  interpolation hkind := by
    obtain ⟨hchildren, hb⟩ := h.interpolation (n.kind_prune ▸ hkind)
    rw [n.children_prune, n.bindings_prune, hchildren]
    exact ⟨rfl, hb⟩
  conditional hkind := by
    rw [n.bindings_prune]
    exact h.conditional (n.kind_prune ▸ hkind)
  repeating hkind := by
    rw [n.bindings_prune]
    exact h.repeating (n.kind_prune ▸ hkind)
  loop span spec specSpan l children heq := by
    cases n with
    | directive span' spec' specSpan' d cs =>
      obtain ⟨-, -, -, rfl, -⟩ := Node.directive.inj heq
      exact h.loop span' spec' specSpan' l cs rfl
    | _ => cases heq
  component hkind := by
    obtain ⟨hchildren, hb⟩ := h.component (n.kind_prune ▸ hkind)
    rw [n.children_prune, n.bindings_prune, hchildren]
    exact ⟨rfl, hb⟩
  element hkind := by
    obtain ⟨hb, hvoid⟩ := h.element (n.kind_prune ▸ hkind)
    rw [n.children_prune, n.bindings_prune, n.name_prune]
    refine ⟨hb, fun hname => ?_⟩
    rw [hvoid hname]
    rfl
  content c hc htext := by
    rw [n.children_prune] at hc ⊢
    obtain ⟨m, hm, rfl⟩ := exists_prune_of_mem_pruneFrom hc
    rw [m.kind_prune] at htext
    obtain ⟨hkind, hname, hchildren⟩ := h.content m hm htext
    obtain ⟨span, content, rfl⟩ := Node.exists_eq_text htext
    exact ⟨n.kind_prune ▸ hkind, n.name_prune ▸ hname, by rw [hchildren]; rfl⟩
  bindings b hb := h.bindings b (n.bindings_prune ▸ hb)

/-- Pruning keeps content content. -/
theorem IsContent.prune (h : IsContent nodes) : IsContent (pruneWhitespace nodes) := by
  refine ⟨allNodes_pruneFrom (fun n hn => hn.prune) h.wellFormed, fun m hm => ?_⟩
  obtain ⟨n, hn, rfl⟩ := exists_prune_of_mem_pruneFrom hm
  exact n.kind_prune ▸ h.kind_ne_text n hn

end Forests

/-! ### Templates -/

/-- Every node of a template that was read is well-formed, raw text stands in raw text elements
only, and a copy of a template has all its data. -/
theorem wellFormed_of_parse :
    (∀ (component source : String) (nodes : List Node), parse component source = .ok nodes →
      AllNodes Node.WellFormed nodes ∧ ∀ n ∈ nodes, n.kind ≠ .text) ∧
    ∀ nodes : List Node, copyForest nodes = nodes := by
  refine ⟨fun component source nodes h => ?_, copyForest_eq⟩
  obtain ⟨hfailure, forest, hassembles, rfl⟩ := parse_eq_ok_iff.1 h
  obtain ⟨last, hread, -⟩ := readInTurn_of_scan hfailure
  obtain ⟨hall, htop⟩ := (isContent_of_assembles hread.exists_readAt hassembles).prune
  exact ⟨hall, htop⟩

namespace RowList

/-- A row, mounted once per item and bound to a handler. -/
def row : Node :=
  .component ⟨⟨14, 2, 1⟩, ⟨60, 2, 47⟩⟩ "Row"
    [⟨.output, "pick", .call "f" [.payload, .access ⟨"x", ["id"]⟩],
      ⟨⟨39, 2, 26⟩, ⟨58, 2, 45⟩⟩⟩]

/-- The rows, on a line of their own inside a condition. -/
def nodes : List Node :=
  [.directive ⟨⟨0, 1, 1⟩, ⟨67, 2, 54⟩⟩ "!empty" ⟨⟨5, 1, 6⟩, ⟨12, 1, 13⟩⟩
    (.conditional true ⟨"empty", []⟩)
    [.directive ⟨⟨14, 2, 1⟩, ⟨60, 2, 47⟩⟩ "x of rows" ⟨⟨28, 2, 15⟩, ⟨37, 2, 24⟩⟩
      (.repeating ⟨"x", "", ⟨"rows", []⟩, []⟩) [row]]]

/-- The tokens of the sample, with their places. -/
private theorem scan_nodes :
    scan ("<w:if !empty>\n<Row [w:for]=\"x of rows\" (pick)=\"f(#, x.id)\"/></w:if>").toList =
      ⟨[.directive ⟨.conditional true ⟨"empty", []⟩, "!empty", 0, 13, 5, 12⟩ false,
        .text 13 14 "\n",
        .leaf ⟨"Row",
          [⟨"[w:for]", some "x of rows", 19, 38, 28⟩, ⟨"(pick)", some "f(#, x.id)", 39, 58, 47⟩],
          14, 60⟩,
        .closing "w:if" 60 67], none⟩ := by
  decide +kernel

/-- The sample is parsed to its nodes. -/
theorem parse_nodes : parse "List"
    "<w:if !empty>\n<Row [w:for]=\"x of rows\" (pick)=\"f(#, x.id)\"/></w:if>" = .ok nodes := by
  have hsource : Source.ofText
      "<w:if !empty>\n<Row [w:for]=\"x of rows\" (pick)=\"f(#, x.id)\"/></w:if>".toList =
        ⟨[0, 14], 67⟩ := rfl
  -- The tag of the row becomes a repeater around the component.
  have hfinish : finishTag ⟨[0, 14], 67⟩ ⟨"Row",
      [⟨"[w:for]", some "x of rows", 19, 38, 28⟩, ⟨"(pick)", some "f(#, x.id)", 39, 58, 47⟩], 14,
      60⟩
        [] 60 = .ok (.directive ⟨⟨14, 2, 1⟩, ⟨60, 2, 47⟩⟩ "x of rows" ⟨⟨28, 2, 15⟩, ⟨37, 2, 24⟩⟩
          (.repeating ⟨"x", "", ⟨"rows", []⟩, []⟩) [row]) := rfl
  rw [parse, scan_nodes, hsource]
  simp only [assemble, hfinish]
  rfl

end RowList

/-- A condition around a repeater around a component, each well-formed. -/
theorem wellFormed_rowList :
    parse "List" "<w:if !empty>\n<Row [w:for]=\"x of rows\" (pick)=\"f(#, x.id)\"/></w:if>" =
      .ok RowList.nodes ∧
    (AllNodes Node.WellFormed RowList.nodes ∧ ∀ n ∈ RowList.nodes, n.kind ≠ .text) ∧
    copyForest RowList.nodes = RowList.nodes :=
  ⟨RowList.parse_nodes, wellFormed_of_parse.1 _ _ _ RowList.parse_nodes, wellFormed_of_parse.2 _⟩

end ViewCompiler.Template
