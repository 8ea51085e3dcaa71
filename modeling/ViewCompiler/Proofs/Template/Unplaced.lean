import Mathlib.Data.List.Forall2
import ViewCompiler.Proofs.Template.RoundTrip
import ViewCompiler.Proofs.Template.Shift

/-!
# Forests without places

What becomes of a token depends on where it stands only in the places of its nodes. So two tags with
the same name, the same attributes as written and the same content are completed as the same node
without places, or neither of them is (`finishTag_eq_completed`), and tokens make up the same forest
without places wherever they stand (`Assembles.exists_shift`). A directive among the attributes of a
tag wraps the node that the tag has without it (`completed_cons_of_isDirective`).
-/

namespace ViewCompiler.Template

open ViewCompiler.Text

/-! ### Nodes -/

/-- Pruning does not depend on places. -/
theorem pruneWhitespace_unplacedAll (nodes : List Node) :
    unplacedAll (pruneWhitespace nodes) = pruneWhitespace (unplacedAll nodes) := by
  rw [unplacedAll_eq_relocateAll, unplacedAll_eq_relocateAll, pruneWhitespace, pruneWhitespace,
    pruneFrom_relocateAll]

/-- Whether all nodes are blank can be told without their places. -/
theorem isSome_find?_unplacedAll (nodes : List Node) :
    ((unplacedAll nodes).find? (!·.isBlankText)).isSome =
      (nodes.find? (!·.isBlankText)).isSome := by
  rw [unplacedAll_eq_relocateAll, relocateAll_eq_map, List.find?_map, Option.isSome_map]
  simp only [Function.comp_def, Node.isBlankText_relocate]

theorem Node.kind_unplaced (n : Node) : n.unplaced.kind = n.kind := by
  rw [n.unplaced_eq_relocate, n.kind_relocate]

theorem Node.isBlankText_unplaced (n : Node) : n.unplaced.isBlankText = n.isBlankText := by
  rw [n.unplaced_eq_relocate, n.isBlankText_relocate]

theorem head?_unplacedAll (nodes : List Node) :
    (unplacedAll nodes).head?.all (·.kind.isStructural) =
      nodes.head?.all (·.kind.isStructural) := by
  cases nodes with
  | nil => rfl
  | cons n nodes => exact congrArg NodeKind.isStructural n.kind_unplaced

theorem forall_isBlankText_unplacedAll {nodes : List Node} :
    (∀ c ∈ unplacedAll nodes, c.isBlankText = true) ↔ ∀ c ∈ nodes, c.isBlankText = true := by
  simp only [unplacedAll_eq_relocateAll, relocateAll_eq_map, List.forall_mem_map,
    Node.isBlankText_relocate]

/-- Without its place, raw text is its content. -/
theorem unplacedAll_verbatimBody (source : Source) (start : Nat) (body : String) :
    unplacedAll (verbatimBody source start (start + body.utf8ByteSize) body) =
      if body = "" then [] else [.text {} body] := by
  simp only [verbatimBody, Nat.add_eq_left, String.utf8ByteSize_eq_zero_iff]
  split <;> rfl

/-! ### Attributes -/

section Attributes

variable {a a' : Attribute} (h : a.written = a'.written) (source source' : Source)
    (component : Bool)
include h

/-- What a dynamic attribute is bound to depends only on what is written. -/
private theorem toOption_dynamicTarget :
    (dynamicTarget component a).toOption = (dynamicTarget component a').toOption := by
  obtain ⟨hname, hvalue⟩ := Prod.mk.inj h
  unfold dynamicTarget
  simp only [hname, hvalue]
  split
  · rfl
  · split
    · rfl
    · split
      · rfl
      · split
        · rfl
        · rfl
        · split
          · rfl
          · split <;> rfl

/-- The binding of a dynamic attribute depends only on what is written, but for its place. -/
private theorem toOption_bindDynamic :
    (bindDynamic component a).toOption = (bindDynamic component a').toOption := by
  obtain ⟨hname, hvalue⟩ := Prod.mk.inj h
  have htarget := congrArg (Option.map id) (toOption_dynamicTarget h component)
  have hbind :
      ((bindDynamic component a).toOption.map id) = (bindDynamic component a').toOption.map id := by
    refine toOption_bind_congr htarget ?_
    rintro ⟨kind, target⟩ _ rfl
    simp only [id, hname, hvalue]
    split
    · rfl
    · split <;> rfl
  simpa using hbind

/-- The binding of an attribute depends on where it stands only in its place. -/
private theorem toOption_bindAttribute :
    (bindAttribute source component a).toOption.map Binding.unplaced =
      (bindAttribute source' component a').toOption.map Binding.unplaced := by
  obtain ⟨hname, hvalue⟩ := Prod.mk.inj h
  have hliteral : bindLiteral component a = bindLiteral component a' := by
    simp only [bindLiteral, hname, hvalue]
  have hdynamic := congrArg (Option.map id) (toOption_bindDynamic h component)
  unfold bindAttribute
  simp only [hname, hliteral]
  split
  · refine toOption_bind_congr hdynamic ?_
    rintro ⟨kind, target, value⟩ _ rfl
    rfl
  · split
    · rfl
    · split
      · rfl
      · rfl

end Attributes

section Bindings

variable (source source' : Source) (component : Bool) (tag tag' : String)

/-- An attribute that is no directive is bound in front of the others. -/
theorem bindAttributes_cons {a : Attribute} (h : a.isDirective = false)
    (directive : Option Attribute)
    (attributes : List Attribute) :
    bindAttributes source component tag directive (a :: attributes) =
      bindAttribute source component a >>= fun binding =>
        bindAttributes source component tag directive attributes >>= fun rest =>
          .ok (binding :: rest.1, rest.2) := by
  rw [bindAttributes, h]
  cases bindAttribute source component a with
  | error e => rfl
  | ok binding =>
    cases bindAttributes source component tag directive attributes with
    | error e => rfl
    | ok rest => rfl

/-- Without a directive among them, attributes are bound one by one. -/
private theorem bindAttributes_of_not_isDirective (directive : Option Attribute)
    {attributes : List Attribute}
    (h : ∀ a ∈ attributes, a.isDirective = false) :
    bindAttributes source component tag directive attributes =
      attributes.mapM (bindAttribute source component) >>= fun bindings =>
        .ok (bindings, directive) := by
  induction attributes with
  | nil => rfl
  | cons a attributes ih =>
    obtain ⟨ha, hattributes⟩ := List.forall_mem_cons.1 h
    rw [bindAttributes_cons source component tag ha, ih hattributes, List.mapM_cons]
    cases bindAttribute source component a with
    | error e => rfl
    | ok binding =>
      cases attributes.mapM (bindAttribute source component) with
      | error e => rfl
      | ok bindings => rfl

/-- Whether an attribute is a directive depends only on what is written. -/
private theorem isDirective_written {a a' : Attribute} (h : a.written = a'.written) :
    a.isDirective = a'.isDirective := by
  rw [Attribute.isDirective, Attribute.isDirective, (Prod.mk.inj h).1]

/-- The bindings of attributes depend on where they stand only in their places. -/
private theorem toOption_bindAttributes {attributes attributes' : List Attribute}
    (h : attributes.map Attribute.written = attributes'.map Attribute.written)
    {directive directive' : Option Attribute}
    (hdirective : directive.map Attribute.written = directive'.map Attribute.written) :
    (bindAttributes source component tag directive attributes).toOption.map
        (Prod.map (List.map Binding.unplaced) (Option.map Attribute.written)) =
      (bindAttributes source' component tag' directive' attributes').toOption.map
        (Prod.map (List.map Binding.unplaced) (Option.map Attribute.written)) := by
  induction attributes generalizing attributes' directive directive' with
  | nil =>
    obtain rfl := List.map_eq_nil_iff.1 h.symm
    exact congrArg (fun d => some ([], d)) hdirective
  | cons a attributes ih =>
    obtain ⟨a', others, rfl, ha, hothers⟩ := List.map_eq_cons_iff.1 h.symm
    have hisDirective := isDirective_written ha
    -- A directive is only kept, and refused if there is one already or if it has no value.
    cases hname : a.isDirective with
    | true =>
      have hsome : directive.isSome = directive'.isSome := by
        rw [← Option.isSome_map, hdirective, Option.isSome_map]
      rw [bindAttributes, bindAttributes, hisDirective, hname, hsome, (Prod.mk.inj ha).2]
      simp only [if_true]
      split
      · rfl
      · split
        · rfl
        · exact ih hothers.symm (congrArg some ha.symm)
    | false =>
      rw [bindAttributes_cons source component tag hname,
        bindAttributes_cons source' component tag' (hisDirective.trans hname)]
      refine toOption_bind_congr (toOption_bindAttribute ha.symm source source' component) ?_
      intro binding binding' hbinding
      refine toOption_bind_congr (ih hothers.symm hdirective) ?_
      rintro ⟨bindings, found⟩ ⟨bindings', found'⟩ hrest
      obtain ⟨hbindings, hfound⟩ := Prod.mk.inj hrest
      simp only [Except.toOption, Option.map_some, Prod.map, List.map_cons, hbinding,
        hbindings, hfound]

end Bindings

/-! ### Tags -/

/-- What a shorthand makes of a node depends only on what is written, but for places. -/
private theorem toOption_wrapDirective {a a' : Attribute} (h : a.written = a'.written)
    {node node' : Node} (hnode : node.unplaced = node'.unplaced) (source source' : Source) :
    (wrapDirective source node a).toOption.map Node.unplaced =
      (wrapDirective source' node' a').toOption.map Node.unplaced := by
  obtain ⟨hname, hvalue⟩ := Prod.mk.inj h
  unfold wrapDirective
  simp only [hname, hvalue]
  split
  · rfl
  · simp only [Except.toOption, Option.map_some, Node.unplaced, unplacedAll, hnode]

/-- A node, inside the directive of its tag if there is one. -/
def wrapped (source : Source) (node : Node) : Option Attribute → Except Failure Node
  | none => pure node
  | some a => wrapDirective source node a

private theorem toOption_wrapped {found found' : Option Attribute}
    (h : found.map Attribute.written = found'.map Attribute.written) {node node' : Node}
    (hnode : node.unplaced = node'.unplaced) (source source' : Source) :
    (wrapped source node found).toOption.map Node.unplaced =
      (wrapped source' node' found').toOption.map Node.unplaced := by
  cases found with
  | none =>
    obtain rfl := Option.map_eq_none_iff.1 h.symm
    exact congrArg some hnode
  | some a =>
    obtain ⟨a', rfl, ha⟩ := Option.map_eq_some_iff.1 h.symm
    exact toOption_wrapDirective ha.symm hnode source source'

/-- The node of a tag without places, if the tag can be completed. -/
def completed (name : String) (attributes : List Attribute) (content : List Node) : Option Node :=
  (finishTag ⟨[], 0⟩ ⟨name, attributes, 0, 0⟩ content 0).toOption.map Node.unplaced

/-- What a tag is completed as depends on where it stands only in the places of its nodes. -/
theorem finishTag_eq_completed {tag : Tag} {attributes : List Attribute}
    (hattributes : tag.attributes.map Attribute.written = attributes.map Attribute.written)
    {children content : List Node} (hchildren : unplacedAll children = unplacedAll content)
    (source : Source) (stop : Nat) :
    (finishTag source tag children stop).toOption.map Node.unplaced =
      completed tag.name attributes content := by
  have hblank :
      (children.find? (!·.isBlankText)).isSome = (content.find? (!·.isBlankText)).isSome := by
    rw [← isSome_find?_unplacedAll, hchildren, isSome_find?_unplacedAll]
  have hbind := toOption_bindAttributes source ⟨[], 0⟩ (isComponentName tag.name) tag.name tag.name
    hattributes (show Option.map _ none = Option.map _ none from rfl)
  unfold completed finishTag
  simp only
  -- A component is refused for its content, an element has it below.
  split
  · cases hchild : children.find? (!·.isBlankText) with
    | some child =>
      obtain ⟨child', hchild'⟩ := Option.isSome_iff_exists.1 (hblank ▸ Option.isSome_of_mem hchild)
      rw [hchild']
      rfl
    | none =>
      have hcontent : content.find? (!·.isBlankText) = none := by
        rwa [hchild, Option.isSome_none, eq_comm, Option.isSome_eq_false_iff,
          Option.isNone_iff_eq_none]
          at hblank
      rw [hcontent]
      refine toOption_bind_congr hbind ?_
      rintro ⟨bindings, found⟩ ⟨bindings', found'⟩ hbound
      obtain ⟨hbindings, hfound⟩ := Prod.mk.inj hbound
      refine toOption_wrapped hfound ?_ source ⟨[], 0⟩
      exact congrArg (Node.component {} tag.name) hbindings
  · refine toOption_bind_congr hbind ?_
    rintro ⟨bindings, found⟩ ⟨bindings', found'⟩ hbound
    obtain ⟨hbindings, hfound⟩ := Prod.mk.inj hbound
    refine toOption_wrapped hfound ?_ source ⟨[], 0⟩
    exact congrArg₂ (Node.element {} tag.name) hbindings hchildren

/-- A directive before the other attributes of a tag wraps the node that the tag has without it. -/
theorem completed_cons_of_isDirective {a : Attribute} (h : a.isDirective = true)
    (hvalue : a.value.isSome = true) {d : Directive} (hread : ∀ node,
      wrapDirective ⟨[], 0⟩ node a = .ok (.directive node.span (trim (a.value.getD ""))
        (Source.span ⟨[], 0⟩ a.valueStart a.valueStop) d [node]))
    {attributes : List Attribute} (hattributes : ∀ a ∈ attributes, a.isDirective = false)
    (name : String)
    (content : List Node) :
    completed name (a :: attributes) content =
      (completed name attributes content).map fun node =>
        .directive {} (trim (a.value.getD "")) {} d [node] := by
  have hnone : a.value.isNone = false := by simpa [Option.isSome_iff_ne_none] using hvalue
  have hcons : ∀ source component, bindAttributes source component name none (a :: attributes) =
      bindAttributes source component name (some a) attributes := by
    intro source component
    rw [bindAttributes, h, hnone]
    rfl
  unfold completed finishTag
  simp only [hcons, bindAttributes_of_not_isDirective _ _ _ _ hattributes]
  split
  · cases content.find? (!·.isBlankText) with
    | some child => rfl
    | none =>
      cases attributes.mapM (bindAttribute ⟨[], 0⟩ (isComponentName name)) with
      | error e => rfl
      | ok bindings =>
          exact congrArg (Option.map Node.unplaced) (congrArg Except.toOption (hread _))
  · cases attributes.mapM (bindAttribute ⟨[], 0⟩ (isComponentName name)) with
    | error e => rfl
    | ok bindings => exact congrArg (Option.map Node.unplaced) (congrArg Except.toOption (hread _))

/-! ### Tokens -/

theorem Tag.written_shift (k : Nat) (tag : Tag) :
    (tag.shift k).attributes.map Attribute.written = tag.attributes.map Attribute.written := by
  rw [Tag.shift, List.map_map]
  rfl

/-- A tag is completed wherever it stands if it is so somewhere, and as the same node without
places. -/
theorem exists_finishTag_shift {source : Source} {tag : Tag} {children : List Node}
    {stop : Nat} {n : Node}
    (h : finishTag source tag children stop = .ok n) (source' : Source) (k : Nat)
    {children' : List Node}
    (hchildren : unplacedAll children' = unplacedAll children) (stop' : Nat) :
    ∃ n', finishTag source' (tag.shift k) children' stop' = .ok n' ∧ n'.unplaced = n.unplaced := by
  have hsame := finishTag_eq_completed (tag.written_shift k) hchildren source' stop'
  have hhere := finishTag_eq_completed (rfl : tag.attributes.map Attribute.written = _)
    (rfl : unplacedAll children = _) source stop
  rw [Tag.name_shift, ← hhere, h] at hsame
  obtain ⟨n', hn', hunplaced⟩ := Option.map_eq_some_iff.1 hsame
  exact ⟨n', toOption_eq_some_iff.1 hn', hunplaced⟩

private theorem verbatimBody_shift (source source' : Source) (k start stop : Nat) (body : String) :
    unplacedAll (verbatimBody source' (k + start) (k + stop) body) =
      unplacedAll (verbatimBody source start stop body) := by
  simp only [verbatimBody, Nat.add_left_cancel_iff]
  split <;> rfl

theorem Token.Makes.exists_shift {source : Source} {token : Token} {n : Node}
    (h : token.Makes source n)
    (source' : Source) (k : Nat) :
    ∃ n', (token.shift k).Makes source' n' ∧ n'.unplaced = n.unplaced := by
  cases h with
  | text start stop raw => exact ⟨_, .text _ _ raw, rfl⟩
  | interpolation start stop v => exact ⟨_, .interpolation _ _ v, rfl⟩
  | leaf h =>
    obtain ⟨n', hn', hunplaced⟩ := exists_finishTag_shift h source' k rfl _
    exact ⟨n', .leaf hn', hunplaced⟩
  | verbatim h =>
    obtain ⟨n', hn', hunplaced⟩ :=
      exists_finishTag_shift h source' k (verbatimBody_shift source source' k _ _ _) _
    exact ⟨n', .verbatim hn', hunplaced⟩
  | directive tag => exact ⟨_, .directive (tag.shift k), rfl⟩

private theorem OpenTag.exists_finish_shift {opened : OpenTag} {source : Source}
    {children : List Node} {stop : Nat}
    {n : Node} (h : opened.finish source children stop = .ok n) (source' : Source) (k : Nat)
    {children' : List Node} (hchildren : unplacedAll children' = unplacedAll children)
    (stop' : Nat) :
    ∃ n', (opened.shift k).finish source' children' stop' = .ok n' ∧ n'.unplaced = n.unplaced := by
  cases opened with
  | tag tag => exact exists_finishTag_shift h source' k hchildren stop'
  | directive tag =>
    obtain rfl := Except.ok.inj h
    exact ⟨_, rfl, congrArg (Node.directive {} tag.spec {} tag.directive) hchildren⟩

theorem Token.Opens.shift {token : Token} {opened : OpenTag} (h : token.Opens opened) (k : Nat) :
    (token.shift k).Opens (opened.shift k) := by
  cases h with
  | tag tag => exact .tag (tag.shift k)
  | directive tag => exact .directive (tag.shift k)

theorem exists_append_of_forall₂ {α β : Type} {R : α → β → Prop} {l : List α}
    {before after : List β}
    (h : List.Forall₂ R l (before ++ after)) :
    ∃ before' after', l = before' ++ after' ∧ List.Forall₂ R before' before ∧
      List.Forall₂ R after' after :=
  ⟨_, _, (List.take_append_drop before.length l).symm, List.forall₂_take_append _ _ _ h,
    List.forall₂_drop_append _ _ _ h⟩

/-- The first token is the second one, some bytes further on. -/
def Token.Moved (moved token : Token) : Prop := ∃ k, moved = token.shift k

/-- Tokens make up the same forest without places if each of them is moved. -/
theorem Assembles.exists_moved {source : Source} {tokens moved : List Token} {nodes : List Node}
    (h : Assembles source tokens nodes) (hmoved : List.Forall₂ Token.Moved moved tokens)
    (source' : Source) :
    ∃ nodes', Assembles source' moved nodes' ∧ unplacedAll nodes' = unplacedAll nodes := by
  induction h generalizing moved with
  | nil =>
    cases hmoved
    exact ⟨[], .nil, rfl⟩
  | single hmakes _ ih =>
    obtain _ | ⟨⟨k, rfl⟩, hmoved⟩ := hmoved
    obtain ⟨n', hn', hunplaced⟩ := hmakes.exists_shift source' k
    obtain ⟨nodes', hnodes', hmore⟩ := ih hmoved
    exact ⟨n' :: nodes', .single hn' hnodes', by rw [unplacedAll, unplacedAll, hunplaced, hmore]⟩
  | @content token opened content tokens start stop n children nodes hopens _ hfinish _
        ihcontent ihrest =>
    obtain _ | ⟨⟨k, rfl⟩, hmoved⟩ := hmoved
    obtain ⟨inner, outer, rfl, hinner, houter⟩ := exists_append_of_forall₂ hmoved
    obtain _ | ⟨⟨l, rfl⟩, houter⟩ := houter
    obtain ⟨children', hchildren', hsame⟩ := ihcontent hinner
    obtain ⟨n', hn', hunplaced⟩ := OpenTag.exists_finish_shift hfinish source' k hsame (l + stop)
    obtain ⟨nodes', hnodes', hmore⟩ := ihrest houter
    refine ⟨n' :: nodes', ?_, by rw [unplacedAll, unplacedAll, hunplaced, hmore]⟩
    have hcontent := Assembles.content (l + start) (hopens.shift k) hchildren' hn' hnodes'
    rw [OpenTag.name_shift] at hcontent
    exact hcontent

/-- Tokens make up the same forest without places wherever they stand. -/
theorem Assembles.exists_shift {source : Source} {tokens : List Token} {nodes : List Node}
    (h : Assembles source tokens nodes) (source' : Source) (k : Nat) :
    ∃ nodes', Assembles source' (tokens.map (Token.shift k)) nodes' ∧
      unplacedAll nodes' = unplacedAll nodes :=
  h.exists_moved (List.forall₂_map_left_iff.2 (List.forall₂_same.2 fun _ _ => ⟨k, rfl⟩)) source'

end ViewCompiler.Template
