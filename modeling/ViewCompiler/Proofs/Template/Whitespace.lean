import Mathlib
import ViewCompiler.Proofs.Template.Chunks

/-!
# White space that is dropped

Text of a template is lost in two places only. The content of a component reference is white space,
and none of it is kept (`exists_content_of_finish`). Text of white space is dropped among its
siblings where it has no neighbour but structural ones (`mem_pruneFrom_or`). Everywhere else a piece
of text has its node, with the decoded text in it (`chunks_kept`), and what was pruned once has
nothing left to drop (`pruneFrom_pruneFrom`).

The pieces of text are those into which the template itself can be cut (`CutsInto`), not those that
the reader happens to find. Which of them are siblings is told by the nodes before anything was
dropped, and which of them are content of a component by the tags around them; the tags are read
from the template, one after the other and without a gap (`ReadInTurn`).

White space is that of Unicode, in the decoded text: a no-break space counts, also as a reference.
The blanks inside of tags are fewer (`isMarkupSpace`), and text of other white space is dropped as
well (`not_dropsOnly_markupSpace`).
-/

namespace ViewCompiler.Template

open ViewCompiler.Text

/-! ### Pieces of text -/

/-- The node that a piece of text stands for. -/
def chunkNode (source : Source) (start stop : Nat) (raw : String) : Node :=
  .interpolation (source.span start stop) (.text (CharacterReference.decode raw))

/-- Whether a token is a piece of text. -/
def Token.isText : Token → Bool
  | .text .. => true
  | .interpolation .. | .opening _ | .leaf _ | .verbatim .. | .directive .. | .closing .. => false

/-- A node stands in a list of siblings and has only structural neighbours there. The flag tells
whether what is before the list is structural or absent. -/
def StandsApart (structuralBefore : Bool) (siblings : List Node) (n : Node) : Prop :=
  ∃ before after, siblings = before ++ n :: after ∧
    (before.getLast?.map (·.kind.isStructural)).getD structuralBefore = true ∧
    after.head?.all (·.kind.isStructural) = true

/-- A token stands in the content of a component reference, next to nothing but text. -/
def IsComponentContent (tokens : List Token) (token : Token) : Prop :=
  ∃ before tag content start stop after,
    tokens = before ++ .opening tag :: (content ++ .closing tag.name start stop :: after) ∧
      isComponentName tag.name = true ∧ (∀ t ∈ content, t.isText = true) ∧ token ∈ content

/-- A piece of text may be missing among the nodes: all of its characters count as white space, and
it has only structural neighbours in the forest before anything was dropped, or it is the content of
a component reference. -/
def MayDrop (white : Char → Bool) (source : Source) (tokens : List Token) (forest : List Node)
    (start stop : Nat) (raw : String) : Prop :=
  (CharacterReference.decode raw).toList.all white = true ∧
    ((StandsApart true forest (chunkNode source start stop raw) ∨
        ∃ m ∈ preorderForest forest,
          StandsApart true m.children (chunkNode source start stop raw)) ∨
      IsComponentContent tokens (.text start stop raw))

/-- Every piece of text into which a template is cut has its node among these nodes, with the
decoded text, unless it may be dropped. The nodes come from tokens that take up the template from
its start to its end. -/
def DropsOnly (white : Char → Bool) (source : String) (nodes : List Node) : Prop :=
  ∃ forest last, ReadInTurn ⟨source.toList, 0⟩ (scan source.toList).tokens last ∧ last.rest = [] ∧
    assemble (Source.ofText source.toList) (scan source.toList).failure
      (scan source.toList).tokens [] [] = .ok forest ∧ nodes = pruneWhitespace forest ∧
    (∃ chunks, CutsInto 0 source.toList chunks) ∧
    ∀ chunks, CutsInto 0 source.toList chunks → ∀ start raw, (start, raw) ∈ chunks →
      chunkNode (Source.ofText source.toList) start (start + byteLength raw) (String.ofList raw) ∈
          preorderForest nodes ∨
        MayDrop white (Source.ofText source.toList) (scan source.toList).tokens forest start
          (start + byteLength raw) (String.ofList raw)

/-! ### Dropping blank text -/

section Prune

variable {n m : Node} {nodes : List Node} {structuralBefore : Bool}

@[simp]
theorem Node.isBlankText_prune (n : Node) : n.prune.isBlankText = n.isBlankText := by
  cases n <;> rfl

private theorem children_eq_nil_of_isBlankText (h : n.isBlankText = true) : n.children = [] := by
  cases n with
  | interpolation => rfl
  | text | element | component | directive => cases h

theorem not_isStructural_of_isBlankText (h : n.isBlankText = true) :
    n.kind.isStructural = false := by
  cases n with
  | interpolation => rfl
  | text | element | component | directive => cases h

/-- Behind what is not structural no text is dropped, and before what is structural neither. -/
theorem pruneFrom_cons_of_kept
    (h : n.isBlankText = false ∨ structuralBefore = false ∨
      nodes.head?.all (·.kind.isStructural) = false) :
    pruneFrom structuralBefore (n :: nodes) = n.prune :: pruneFrom n.kind.isStructural nodes := by
  rw [pruneFrom, if_neg]
  rcases h with h | h | h <;> simp [h]

private theorem preorderForest_prune_subset (h : ∃ rest, pruneFrom structuralBefore (m :: nodes) =
    m.prune :: rest) :
    preorderForest m.prune.children ⊆ preorderForest (pruneFrom structuralBefore (m :: nodes)) := by
  obtain ⟨rest, hrest⟩ := h
  rw [hrest]
  exact fun k hk => mem_preorderForest.2 ⟨_, List.mem_cons_self, .inr hk⟩

/-- What follows a node is pruned whether or not that node is dropped. -/
private theorem preorderForest_pruneFrom_subset :
    preorderForest (pruneFrom n.kind.isStructural nodes) ⊆
      preorderForest (pruneFrom structuralBefore (n :: nodes)) := by
  rw [pruneFrom]
  split
  · exact List.Subset.refl _
  · exact List.subset_append_right _ _

/-- What stands apart further on stands apart in the forest. -/
theorem StandsApart.cons (h : StandsApart m.kind.isStructural nodes n) :
    StandsApart structuralBefore (m :: nodes) n := by
  obtain ⟨before, after, rfl, hbefore, hafter⟩ := h
  refine ⟨m :: before, after, rfl, ?_, hafter⟩
  cases hlast : before.getLast? <;> simp_all [List.getLast?_cons]

/-- A node that pruning leaves as it is stays in the forest, unless it is blank text that stands
apart. -/
theorem mem_pruneFrom_or {structuralBefore : Bool} {nodes : List Node} (hn : n.prune = n)
    (hmem : n ∈ preorderForest nodes) :
    n ∈ preorderForest (pruneFrom structuralBefore nodes) ∨
      n.isBlankText = true ∧ (StandsApart structuralBefore nodes n ∨
        ∃ m ∈ preorderForest nodes, StandsApart true m.children n) := by
  match nodes with
  | [] => cases hmem
  | k :: ns =>
    rw [preorderForest, List.mem_append, Node.preorder_eq, List.mem_cons] at hmem
    rcases hmem with (rfl | hbelow) | hrest
    · by_cases hdropped : n.isBlankText = true ∧ structuralBefore = true ∧
        ns.head?.all (·.kind.isStructural) = true
      · exact .inr ⟨hdropped.1, .inl ⟨[], ns, rfl, hdropped.2⟩⟩
      · rw [pruneFrom_cons_of_kept (by grind), hn]
        exact .inl (mem_preorderForest.2 ⟨n, List.mem_cons_self, .inl rfl⟩)
    · -- A node with content is no blank text, and stays.
      have hkept : k.isBlankText = false := by
        refine Bool.eq_false_iff.2 fun hblank => ?_
        rw [children_eq_nil_of_isBlankText hblank] at hbelow
        cases hbelow
      rcases mem_pruneFrom_or hn hbelow with hin | ⟨hblank, hapart⟩
      · rw [← k.children_prune] at hin
        exact .inl (preorderForest_prune_subset ⟨_, pruneFrom_cons_of_kept (.inl hkept)⟩ hin)
      · refine .inr ⟨hblank, .inr ?_⟩
        rcases hapart with hapart | ⟨m, hm, hapart⟩
        · exact ⟨k, mem_preorderForest.2 ⟨k, List.mem_cons_self, .inl rfl⟩, hapart⟩
        · exact ⟨m, mem_preorderForest.2 ⟨k, List.mem_cons_self, .inr hm⟩, hapart⟩
    · have hor : _ ∨ _ ∧ (StandsApart k.kind.isStructural ns n ∨ _) := mem_pruneFrom_or hn hrest
      rcases hor with hin | ⟨hblank, hapart | ⟨m, hm, hapart⟩⟩
      · exact .inl (preorderForest_pruneFrom_subset hin)
      · exact .inr ⟨hblank, .inl hapart.cons⟩
      · exact .inr ⟨hblank, .inr ⟨m, List.mem_append_right _ hm, hapart⟩⟩
termination_by sizeOf nodes
decreasing_by
  · have hle : sizeOf k.children ≤ sizeOf k := by cases k <;> simp [Node.children] <;> omega
    simp only [List.cons.sizeOf_spec]
    omega
  · simp only [List.cons.sizeOf_spec]
    omega

/-- Nothing is dropped at the front of a list that starts with a structural node. -/
private theorem pruneFrom_of_head? (h : nodes.head?.all (·.kind.isStructural) = true) :
    pruneFrom false nodes = pruneFrom true nodes := by
  cases nodes with
  | nil => rfl
  | cons n nodes =>
    have hkept : n.isBlankText = false := by
      refine Bool.eq_false_iff.2 fun hblank => ?_
      rw [List.head?_cons, Option.all_some, not_isStructural_of_isBlankText hblank] at h
      cases h
    rw [pruneFrom_cons_of_kept (.inl hkept), pruneFrom_cons_of_kept (.inl hkept)]

/-- Behind text, what comes first stays first. -/
theorem head?_pruneFrom_false :
    (pruneFrom false nodes).head?.all (·.kind.isStructural) =
      nodes.head?.all (·.kind.isStructural) := by
  cases nodes with
  | nil => rfl
  | cons n nodes =>
    rw [pruneFrom_cons_of_kept (.inr (.inl rfl)), List.head?_cons, List.head?_cons, Option.all_some,
      Option.all_some, n.kind_prune]

mutual

/-- A pruned node is not pruned further. -/
private theorem Node.prune_prune (n : Node) : n.prune.prune = n.prune := by
  cases n with
  | text => rfl
  | interpolation => rfl
  | component => rfl
  | element span name bindings children =>
    rw [Node.prune, Node.prune, pruneFrom_pruneFrom true children]
  | directive span spec specSpan d children =>
    rw [Node.prune, Node.prune, pruneFrom_pruneFrom true children]

/-- What was pruned has nothing left to drop. -/
theorem pruneFrom_pruneFrom (structuralBefore : Bool) (nodes : List Node) :
    pruneFrom structuralBefore (pruneFrom structuralBefore nodes) =
      pruneFrom structuralBefore nodes := by
  cases nodes with
  | nil => rfl
  | cons n nodes =>
    have hrest := pruneFrom_pruneFrom n.kind.isStructural nodes
    by_cases hdropped : n.isBlankText = true ∧ structuralBefore = true ∧
      nodes.head?.all (·.kind.isStructural) = true
    · obtain ⟨hblank, rfl, hhead⟩ := hdropped
      have hpruned : pruneFrom true (n :: nodes) = pruneFrom true nodes := by
        rw [pruneFrom, if_pos (by simp [hblank, hhead]), not_isStructural_of_isBlankText hblank,
          pruneFrom_of_head? hhead]
      rw [hpruned]
      exact pruneFrom_pruneFrom true nodes
    · have hkept : n.isBlankText = false ∨ structuralBefore = false ∨
          nodes.head?.all (·.kind.isStructural) = false := by grind
      rw [pruneFrom_cons_of_kept hkept, pruneFrom_cons_of_kept, n.prune_prune, n.kind_prune, hrest]
      -- The neighbour that kept the text is still there.
      cases hblank : n.isBlankText with
      | false => exact .inl (n.isBlankText_prune.trans hblank)
      | true =>
        rw [not_isStructural_of_isBlankText hblank, head?_pruneFrom_false]
        exact .inr (hkept.resolve_left (by simp [hblank]))

end

end Prune

/-! ### The content of components -/

section Content

variable {source : Source} {tokens : List Token} {token : Token} {nodes children : List Node}
    {n : Node}

theorem IsComponentContent.append (h : IsComponentContent tokens token)
    (before after : List Token) :
    IsComponentContent (before ++ (tokens ++ after)) token := by
  obtain ⟨before', tag, content, start, stop, after', rfl, h⟩ := h
  exact ⟨before ++ before', tag, content, start, stop, after' ++ after, by simp, h⟩

/-- What a shorthand wraps is kept with all its nodes. -/
private theorem Wraps.preorder_subset {node : Node} {directive : Option Attribute}
    (h : Wraps source node directive n) : node.preorder ⊆ n.preorder := by
  cases h with
  | bare => exact List.Subset.refl _
  | wrapped => simp [Node.preorder, preorderForest]

theorem Wraps.isBlankText_eq {node : Node} {directive : Option Attribute}
    (h : Wraps source node directive n) (hnode : node.isBlankText = false) :
    n.isBlankText = false := by
  cases h with
  | bare => exact hnode
  | wrapped => rfl

/-- A complete tag is markup. -/
theorem Tag.Finishes.isBlankText_eq {tag : Tag} {stop : Nat}
    (h : tag.Finishes source children stop n) :
    n.isBlankText = false := by
  obtain ⟨bindings, directive, node, -, hholds, hwraps⟩ := h
  refine hwraps.isBlankText_eq ?_
  cases hholds <;> rfl

/-- The content of a tag is below its node, unless it is the blank content of a component. -/
theorem exists_content_of_finish {opened : OpenTag} {stop : Nat}
    (h : opened.finish source children stop = .ok n) :
    preorderForest children ⊆ n.preorder ∨
      ∃ tag, opened = .tag tag ∧ isComponentName tag.name = true ∧ ∀ c ∈ children,
        c.isBlankText = true := by
  cases opened with
  | directive tag =>
    obtain rfl := Except.ok.inj h
    exact .inl (List.subset_cons_self _ _)
  | tag tag =>
    obtain ⟨bindings, directive, node, -, hholds, hwraps⟩ := finishes_of_finishTag h
    cases hholds with
    | component hname hblank => exact .inr ⟨tag, rfl, hname, hblank⟩
    | element hname =>
        exact .inl (List.Subset.trans (List.subset_cons_self _ _) hwraps.preorder_subset)

theorem isBlankText_of_finish {opened : OpenTag} {stop : Nat}
    (h : opened.finish source children stop = .ok n) : n.isBlankText = false := by
  cases opened with
  | directive tag =>
    obtain rfl := Except.ok.inj h
    rfl
  | tag tag => exact (finishes_of_finishTag h).isBlankText_eq

/-- Only a piece of text makes a node of blank text. -/
private theorem isText_of_makes {here next : Cursor} (hread : token.ReadAt here next)
    (h : token.Makes source n) (hblank : n.isBlankText = true) : token.isText = true := by
  cases h with
  | text => rfl
  | interpolation start stop v =>
    -- No expression is read as text.
    obtain ⟨-, -, e, -, hv⟩ := hread
    rcases cases_of_readExpression hv with rfl | ⟨_, _, rfl⟩ | ⟨_, _, _, _, _, rfl⟩ <;> cases hblank
  | leaf hfinish => exact absurd hblank (by simp [(finishes_of_finishTag hfinish).isBlankText_eq])
  | verbatim hfinish =>
      exact absurd hblank (by simp [(finishes_of_finishTag hfinish).isBlankText_eq])
  | directive => cases hblank

/-- Blank content comes from pieces of text only. -/
private theorem forall_isText_of_assembles (h : Assembles source tokens nodes)
    (hread : ∀ t ∈ tokens, ∃ here next, t.ReadAt here next)
    (hblank : ∀ n ∈ nodes, n.isBlankText = true) : ∀ t ∈ tokens, t.isText = true := by
  induction h with
  | nil => simp
  | single hmakes _ ih =>
    obtain ⟨⟨here, next, hfirst⟩, hmore⟩ := List.forall_mem_cons.1 hread
    obtain ⟨hn, hnodes⟩ := List.forall_mem_cons.1 hblank
    exact List.forall_mem_cons.2 ⟨isText_of_makes hfirst hmakes hn, ih hmore hnodes⟩
  | content start _ _ hfinish =>
    have hn := (List.forall_mem_cons.1 hblank).1
    exact absurd hn (by simp [isBlankText_of_finish hfinish])

private theorem mem_of_forall_isBlankText (hblank : ∀ n ∈ nodes, n.isBlankText = true)
    (h : n ∈ preorderForest nodes) : n ∈ nodes := by
  obtain ⟨m, hm, rfl | hbelow⟩ := mem_preorderForest.1 h
  · exact hm
  · rw [children_eq_nil_of_isBlankText (hblank m hm)] at hbelow
    cases hbelow

/-- Every piece of text has its node in what is assembled, but for the blank content of
components. -/
private theorem mem_or_isComponentContent (h : Assembles source tokens nodes)
    (hread : ∀ t ∈ tokens, ∃ here next, t.ReadAt here next) {start stop : Nat} {raw : String}
    (hmem : .text start stop raw ∈ tokens) :
    chunkNode source start stop raw ∈ preorderForest nodes ∨
      (chunkNode source start stop raw).isBlankText = true ∧
        IsComponentContent tokens (.text start stop raw) := by
  induction h with
  | nil => cases hmem
  | @single token tokens n nodes hmakes hrest ih =>
    rcases List.mem_cons.1 hmem with rfl | hmem
    · cases hmakes with
      | text => exact .inl (mem_preorderForest.2 ⟨_, List.mem_cons_self, .inl rfl⟩)
    · rcases ih (List.forall_mem_cons.1 hread).2 hmem with hin | ⟨hblank, hcontent⟩
      · exact .inl (List.mem_append_right _ hin)
      · refine .inr ⟨hblank, ?_⟩
        simpa using hcontent.append [token] []
  | @content token opened content tokens start' stop' n children nodes hopens hcontent hfinish hrest
      ihcontent ihrest =>
    have htoken : token.isText = false := by cases hopens <;> rfl
    have hmore := (List.forall_mem_cons.1 hread).2
    rcases List.mem_cons.1 hmem with rfl | hmem
    · cases htoken
    rcases List.mem_append.1 hmem with hin | hmem
    · have hinside := fun t ht => hmore t (List.mem_append_left _ ht)
      -- Only completing a component drops nodes, and all nodes it drops are blank.
      rcases ihcontent hinside hin with hnode | ⟨hblank, hbelow⟩
      · rcases exists_content_of_finish hfinish with hsubset | ⟨tag, rfl, hname, hall⟩
        · exact .inl (List.mem_append_left _ (hsubset hnode))
        · refine .inr ⟨hall _ (mem_of_forall_isBlankText hall hnode), ?_⟩
          cases hopens with
          | tag =>
            exact ⟨[], tag, content, start', stop', tokens, rfl, hname,
              forall_isText_of_assembles hcontent hinside hall, hin⟩
      · exact .inr ⟨hblank, hbelow.append [token] (.closing opened.name start' stop' :: tokens)⟩
    · have hmem := (List.mem_cons.1 hmem).resolve_left nofun
      have hread := fun t ht => hmore t (List.mem_append_right _ (List.mem_cons_of_mem _ ht))
      rcases ihrest hread hmem with hin | ⟨hblank, hinside⟩
      · exact .inl (List.mem_append_right _ hin)
      · refine .inr ⟨hblank, ?_⟩
        have hwhole := hinside.append (token :: content ++ [.closing opened.name start' stop']) []
        simpa using hwhole

end Content

/-! ### Templates -/

/-- The text of a template has its nodes in what is read, but for white space between structural
nodes and in component references; and what is pruned once more stays as it is. -/
theorem chunks_kept {component source : String} {nodes : List Node}
    (h : parse component source = .ok nodes) :
    DropsOnly isBlank source nodes ∧
      ∀ forest, pruneWhitespace (pruneWhitespace forest) = pruneWhitespace forest := by
  refine ⟨?_, pruneFrom_pruneFrom true⟩
  obtain ⟨hfailure, forest, hassembles, rfl⟩ := parse_eq_ok_iff.1 h
  obtain ⟨last, hread, hlast⟩ := readInTurn_of_scan hfailure
  obtain ⟨chunks, hcuts, htokens⟩ := exists_cutsInto_of_scan hfailure
  refine ⟨forest, last, hread, hlast, assemble_eq_ok_iff.2 ⟨hfailure, hassembles⟩, rfl,
    ⟨chunks, hcuts⟩, fun chunks' hcuts' start raw hchunk => ?_⟩
  have hmem := htokens start raw (hcuts.unique hcuts' ▸ hchunk)
  rcases mem_or_isComponentContent hassembles hread.exists_readAt hmem with hin | ⟨hblank, hcontent⟩
  · exact (mem_pruneFrom_or rfl hin).imp_right fun ⟨hblank, hapart⟩ => ⟨hblank, .inl hapart⟩
  · exact .inr ⟨hblank, .inr hcontent⟩

namespace NoBreakSpace

/-- A condition with nothing but a no-break space in it. -/
def source : String := "<w:if a>\u00a0</w:if>"

def nodes : List Node :=
  [.directive ⟨⟨0, 1, 1⟩, ⟨17, 1, 18⟩⟩ "a" ⟨⟨5, 1, 6⟩, ⟨7, 1, 8⟩⟩ (.conditional false ⟨"a", []⟩) []]

/-- The sample is parsed to its nodes. -/
theorem parse_source : parse "Cmp" source = .ok nodes := by cbv

/-- The template is two tags with the no-break space between them. -/
private theorem cutsInto_source : CutsInto 0 source.toList [(8, ['\u00a0'])] := by
  have hclosing : CutsInto 10 "</w:if>".toList [] :=
    .markup (List.append_nil _).symm (by decide) (.done _)
  have hspace : CutsInto 8 "\u00a0</w:if>".toList [(8, ['\u00a0'])] :=
    .text rfl (List.cons_ne_nil _ _) (upTo_takeUntil startsMarkup "\u00a0</w:if>".toList) hclosing
  have hopening : source.toList = "<w:if a>".toList ++ "\u00a0</w:if>".toList := rfl
  exact .markup hopening (by decide) hspace

end NoBreakSpace

/-- The no-break space is dropped, and no neighbour is there that would keep it. -/
theorem chunks_kept_noBreakSpace :
    parse "Cmp" NoBreakSpace.source = .ok NoBreakSpace.nodes ∧
      DropsOnly isBlank NoBreakSpace.source NoBreakSpace.nodes ∧
      pruneWhitespace (pruneWhitespace NoBreakSpace.nodes) =
        pruneWhitespace NoBreakSpace.nodes := by
  obtain ⟨hdrops, hagain⟩ := chunks_kept NoBreakSpace.parse_source
  exact ⟨NoBreakSpace.parse_source, hdrops, hagain _⟩

/-- A no-break space is none of the blanks inside of tags, and is dropped. -/
theorem not_dropsOnly_markupSpace : parse "Cmp" NoBreakSpace.source = .ok NoBreakSpace.nodes ∧
    ¬DropsOnly isMarkupSpace NoBreakSpace.source NoBreakSpace.nodes := by
  refine ⟨NoBreakSpace.parse_source, fun ⟨_, _, _, _, _, _, _, hchunks⟩ => ?_⟩
  rcases hchunks _ NoBreakSpace.cutsInto_source 8 ['\u00a0'] List.mem_cons_self with
    hin | ⟨hwhite, -⟩
  · have hkinds : ∀ n ∈ preorderForest NoBreakSpace.nodes, n.kind = .conditional := by decide
    cases hkinds _ hin
  · revert hwhite
    decide

end ViewCompiler.Template
