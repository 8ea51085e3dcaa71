import ViewCompiler.Proofs.Template.DirectiveSpec
import ViewCompiler.Proofs.Template.Forest

/-!
# The grammar of tokens

A forest is assembled from tokens over a stack of open tags. Here is what that comes to, without the
stack: a token makes a node of its own, or it opens a tag whose content is assembled up to the
closing tag of the same name (`Assembles`). What the open tags of a stack still demand of the tokens
is written down as `Completes`, and what is assembled is what has a derivation
(`assemble_eq_ok_iff`). What a template is read to is what its tokens are assembled to, in each of
the three ways that can end (`parse_eq_ok_iff_assemble`, `parse_eq_error_iff`,
`parse_eq_overrun_iff_assemble`).

A tag is completed by binding its attributes (`Binds`), and a directive among them wraps the node
(`Wraps`).

Tokens are of two kinds. One makes a node at once: a text, an interpolation, a tag without content,
and raw text with its tag (`Token.Makes`). The other opens a tag or a directive (`Token.Opens`). A
closing tag is neither, and stands at the end of the content of an open one. So a proof about whole
templates is an induction on `Assembles` with three cases, and each case has in its hypotheses how
the node was finished. That the stack never grows beyond what the tokens open, or is left
unfinished, is settled here and does not come up again.
-/

namespace ViewCompiler.Template

open ViewCompiler.Text

/-! ### Completing a tag -/

/-- The attributes of a tag give these bindings and, possibly, a directive with a value. -/
structure Binds (source : Source) (component : Bool) (attributes : List Attribute)
    (bindings : List Binding) (directive : Option Attribute) : Prop where
  bound : ∀ b ∈ bindings, ∃ a ∈ attributes, bindAttribute source component a = .ok b
  directive : ∀ a ∈ directive, a ∈ attributes ∧ a.value.isSome = true

/-- A node, wrapped in the directive of its tag if there is one. -/
inductive Wraps (source : Source) (node : Node) : Option Attribute → Node → Prop where
  | bare : Wraps source node none node
  | wrapped {a : Attribute} {d : Directive} (h : d.IsReadFrom (trim (a.value.getD ""))) :
    Wraps source node (some a) (.directive node.span (trim (a.value.getD ""))
      (source.span a.valueStart a.valueStop) d [node])

/-- The node of a tag with its content and bindings. The content of a component is blank, and
dropped. -/
inductive Tag.Holds (source : Source) (tag : Tag) (children : List Node) (stop : Nat)
    (bindings : List Binding) : Node → Prop where
  | component (hname : isComponentName tag.name = true)
    (hblank : ∀ n ∈ children, n.isBlankText = true) :
    tag.Holds source children stop bindings
      (.component (source.span tag.start stop) tag.name bindings)
  | element (hname : isComponentName tag.name = false) :
    tag.Holds source children stop bindings
      (.element (source.span tag.start stop) tag.name bindings children)

/-- A tag with its content is complete at an offset. -/
def Tag.Finishes (source : Source) (tag : Tag) (children : List Node) (stop : Nat)
    (n : Node) : Prop :=
  ∃ bindings directive node,
    Binds source (isComponentName tag.name) tag.attributes bindings directive ∧
      tag.Holds source children stop bindings node ∧ Wraps source node directive n

section Finish

variable {source : Source} {n : Node} {stop : Nat}

/-- Every binding of a tag comes from one of its attributes, and its directive too. -/
theorem binds_of_bindAttributes {component : Bool} {tag : String} {before : Option Attribute}
    {attributes : List Attribute} {bindings : List Binding} {directive : Option Attribute}
    (h : bindAttributes source component tag before attributes = .ok (bindings, directive)) :
    (∀ b ∈ bindings, ∃ a ∈ attributes, bindAttribute source component a = .ok b) ∧
      ∀ a ∈ directive, a ∈ before ∨ a ∈ attributes ∧ a.value.isSome = true := by
  induction attributes generalizing before bindings directive with
  | nil =>
    obtain ⟨rfl, rfl⟩ := Prod.mk.inj (Except.ok.inj h)
    exact ⟨by simp, fun a ha => .inl ha⟩
  | cons a rest ih =>
    rw [bindAttributes] at h
    split at h
    · split at h
      · cases h
      · split at h
        · cases h
        · rename_i hvalue
          obtain ⟨hbound, hdirective⟩ := ih h
          refine ⟨fun b hb => ?_, fun a' ha' => ?_⟩
          · obtain ⟨a', ha', hb⟩ := hbound b hb
            exact ⟨a', List.mem_cons_of_mem _ ha', hb⟩
          · rcases hdirective a' ha' with heq | ⟨hmem, hsome⟩
            · obtain rfl := Option.some.inj heq
              exact .inr ⟨List.mem_cons_self, by simpa [Option.isSome_iff_ne_none] using hvalue⟩
            · exact .inr ⟨List.mem_cons_of_mem _ hmem, hsome⟩
    · split at h
      · cases h
      · rename_i b hb
        split at h
        · cases h
        · rename_i bs directive' hrest
          obtain ⟨rfl, rfl⟩ := Prod.mk.inj (Except.ok.inj h)
          obtain ⟨hbound, hdirective⟩ := ih hrest
          refine ⟨List.forall_mem_cons.2 ⟨⟨a, List.mem_cons_self, hb⟩, fun b' hb' => ?_⟩,
            fun a' ha' => ?_⟩
          · obtain ⟨a', ha', hb'⟩ := hbound b' hb'
            exact ⟨a', List.mem_cons_of_mem _ ha', hb'⟩
          · exact (hdirective a' ha').imp_right fun hmem => ⟨List.mem_cons_of_mem _ hmem.1, hmem.2⟩

/-- A shorthand wraps the node in the directive that is read from it. -/
private theorem wraps_of_wrapDirective {node : Node} {a : Attribute}
    (h : wrapDirective source node a = .ok n) : Wraps source node (some a) n := by
  unfold wrapDirective at h
  simp only at h
  split at h
  · cases h
  · rename_i d hd
    obtain rfl := Except.ok.inj h
    refine .wrapped ?_
    split at hd
    · exact Directive.isReadFrom_of_map hd
    · exact .inl hd

/-- The attributes of a tag are bound, and the tag is wrapped if one of them is a directive. -/
theorem finishes_of_bound (node : List Binding → Node) {tag : Tag} {children : List Node}
    (hnode : ∀ bindings, tag.Holds source children stop bindings (node bindings))
    (h : (bindAttributes source (isComponentName tag.name) tag.name none tag.attributes >>= fun x =>
      match x.2 with
      | none => pure (node x.1)
      | some a => wrapDirective source (node x.1) a) = .ok n) :
    tag.Finishes source children stop n := by
  obtain ⟨⟨bindings, directive⟩, hbind, h⟩ := bind_eq_ok_iff.1 h
  obtain ⟨hbound, hdirective⟩ := binds_of_bindAttributes hbind
  have hbinds : Binds source (isComponentName tag.name) tag.attributes bindings directive :=
    ⟨hbound, fun a ha => (hdirective a ha).resolve_left (by simp)⟩
  refine ⟨bindings, directive, node bindings, hbinds, hnode bindings, ?_⟩
  cases directive with
  | none =>
    obtain rfl := Except.ok.inj h
    exact .bare
  | some a => exact wraps_of_wrapDirective h

/-- A tag is finished in one of the ways of `Tag.Finishes`. -/
theorem finishes_of_finishTag {tag : Tag} {children : List Node}
    (h : finishTag source tag children stop = .ok n) : tag.Finishes source children stop n := by
  unfold finishTag at h
  simp only at h
  split at h
  · rename_i hname
    split at h
    · cases h
    · rename_i hfind
      have hblank : ∀ n ∈ children, n.isBlankText = true := by simpa using hfind
      exact finishes_of_bound (.component _ tag.name ·) (fun _ => .component hname hblank) h
  · rename_i hname
    have hname : isComponentName tag.name = false := Bool.of_not_eq_true hname
    exact finishes_of_bound (.element _ tag.name · children) (fun _ => .element hname) h

end Finish

/-! ### Folding a token -/

section Fold

variable {source : Source} {failure : Option Failure} {later : List Token} {stack : List Frame}
  {nodes : List Node}

theorem assemble_leaf (tag : Tag) :
    assemble source failure (.leaf tag :: later) stack nodes =
      finishTag source tag [] tag.stop >>= fun n => assemble source failure later stack
        (n :: nodes) := by
  rw [assemble]
  cases finishTag source tag [] tag.stop with
  | error e => rfl
  | ok n => rfl

theorem assemble_verbatim (tag : Tag) (bodyStart bodyStop : Nat) (body : String) (stop : Nat) :
    assemble source failure (.verbatim tag bodyStart bodyStop body stop :: later) stack nodes =
      finishTag source tag (verbatimBody source bodyStart bodyStop body) stop >>= fun n =>
        assemble source failure later stack (n :: nodes) := by
  rw [assemble]
  cases finishTag source tag (verbatimBody source bodyStart bodyStop body) stop with
  | error e => rfl
  | ok n => rfl

variable {opened : OpenTag} {name : String} {start stop : Nat} {before : List Node}

/-- A closing tag completes the innermost open tag if that has its name. -/
theorem assemble_closing (h : opened.name = name) :
    assemble source failure (.closing name start stop :: later) (⟨opened, before⟩ :: stack) nodes =
      opened.finish source nodes.reverse stop >>= fun n =>
        assemble source failure later stack (n :: before) := by
  simp only [assemble, h, if_true]
  cases opened.finish source nodes.reverse stop with
  | error e => rfl
  | ok n => rfl

/-- A closing tag of another name is refused. -/
theorem assemble_mismatched (h : opened.name ≠ name) :
    assemble source failure (.closing name start stop :: later) (⟨opened, before⟩ :: stack) nodes =
      .error (.fault start stop (.mismatchedClosing name opened.name)) := by
  simp only [assemble, h.symm, if_false]

end Fold

/-! ### Derivations -/

/-- A token that makes a node of its own. -/
inductive Token.Makes (source : Source) : Token → Node → Prop where
  | text (start stop : Nat) (raw : String) :
    Makes source (.text start stop raw)
      (.interpolation (source.span start stop) (.text (CharacterReference.decode raw)))
  | interpolation (start stop : Nat) (v : Value) :
    Makes source (.interpolation start stop v) (.interpolation (source.span start stop) v)
  | leaf {tag : Tag} {n : Node} (h : finishTag source tag [] tag.stop = .ok n) :
    Makes source (.leaf tag) n
  | verbatim {tag : Tag} {bodyStart bodyStop stop : Nat} {body : String} {n : Node}
    (h : finishTag source tag (verbatimBody source bodyStart bodyStop body) stop = .ok n) :
    Makes source (.verbatim tag bodyStart bodyStop body stop) n
  | directive (tag : DirectiveTag) :
    Makes source (.directive tag true) (finishDirective source tag [] tag.stop)

/-- A token that opens a tag whose content follows. -/
inductive Token.Opens : Token → OpenTag → Prop where
  | tag (tag : Tag) : Opens (.opening tag) (.tag tag)
  | directive (tag : DirectiveTag) : Opens (.directive tag false) (.directive tag)

/-- The tokens make up the forest. -/
inductive Assembles (source : Source) : List Token → List Node → Prop where
  | nil : Assembles source [] []
  | single {token : Token} {tokens : List Token} {n : Node} {nodes : List Node}
    (hmakes : token.Makes source n) (hrest : Assembles source tokens nodes) :
    Assembles source (token :: tokens) (n :: nodes)
  | content {token : Token} {opened : OpenTag} {content tokens : List Token} (start : Nat)
    {stop : Nat} {n : Node} {children nodes : List Node} (hopens : token.Opens opened)
    (hcontent : Assembles source content children)
    (hfinish : opened.finish source children stop = .ok n) (hrest : Assembles source tokens nodes) :
    Assembles source (token :: (content ++ .closing opened.name start stop :: tokens)) (n :: nodes)

/-- The tokens complete the open tags of a stack, innermost first, and make up the result together
with the nodes before. -/
inductive Completes (source : Source) :
    List Token → List Frame → List Node → List Node → Prop where
  | done {tokens : List Token} {nodes more : List Node} (h : Assembles source tokens more) :
    Completes source tokens [] nodes (nodes.reverse ++ more)
  | close {content tokens : List Token} {frame : Frame} {stack : List Frame} (start : Nat)
    {stop : Nat} {n : Node} {nodes more result : List Node}
    (hcontent : Assembles source content more)
    (hfinish : frame.opened.finish source (nodes.reverse ++ more) stop = .ok n)
    (hrest : Completes source tokens stack (n :: frame.before) result) :
    Completes source (content ++ .closing frame.opened.name start stop :: tokens) (frame :: stack)
      nodes result

section Assembles

variable {source : Source} {token : Token} {tokens : List Token} {stack : List Frame} {n : Node}
  {nodes result : List Node}

theorem Completes.single (hmakes : token.Makes source n)
    (h : Completes source tokens stack (n :: nodes) result) :
    Completes source (token :: tokens) stack nodes result := by
  cases h with
  | done h =>
    rw [List.reverse_cons, List.append_assoc]
    exact .done (.single hmakes h)
  | close start hcontent hfinish hrest =>
    rw [List.reverse_cons, List.append_assoc] at hfinish
    exact .close start (.single hmakes hcontent) hfinish hrest

theorem Completes.content {opened : OpenTag} (hopens : token.Opens opened)
    (h : Completes source tokens (⟨opened, nodes⟩ :: stack) [] result) :
    Completes source (token :: tokens) stack nodes result := by
  cases h with
  | close start hcontent hfinish hrest =>
    cases hrest with
    | done h =>
      rw [List.reverse_cons, List.append_assoc]
      exact .done (.content start hopens hcontent hfinish h)
    | close start' hcontent' hfinish' hrest' =>
      rw [List.reverse_cons, List.append_assoc] at hfinish'
      -- The tag belongs to the content of the one around it.
      have hinner := Assembles.content start hopens hcontent hfinish hcontent'
      have hclosed := Completes.close start' hinner hfinish' hrest'
      rwa [List.cons_append, List.append_assoc, List.cons_append] at hclosed

/-- What is assembled completes the stack, and nothing failed. -/
theorem completes_of_assemble {failure : Option Failure}
    (h : assemble source failure tokens stack nodes = .ok result) :
    failure = none ∧ Completes source tokens stack nodes result := by
  induction tokens generalizing stack nodes with
  | nil =>
    unfold assemble at h
    split at h
    · cases h
    · cases h
    · obtain rfl := Except.ok.inj h
      have hdone : Completes source [] [] nodes (nodes.reverse ++ []) := .done .nil
      rw [List.append_nil] at hdone
      exact ⟨rfl, hdone⟩
  | cons token tokens ih =>
    cases token with
    | text start stop raw => exact (ih h).imp_right (.single (.text start stop raw))
    | interpolation start stop v => exact (ih h).imp_right (.single (.interpolation start stop v))
    | opening tag => exact (ih h).imp_right (.content (.tag tag))
    | leaf tag =>
      rw [assemble_leaf] at h
      obtain ⟨n, hn, h⟩ := bind_eq_ok_iff.1 h
      exact (ih h).imp_right (.single (.leaf hn))
    | verbatim tag bodyStart bodyStop body stop =>
      rw [assemble_verbatim] at h
      obtain ⟨n, hn, h⟩ := bind_eq_ok_iff.1 h
      exact (ih h).imp_right (.single (.verbatim hn))
    | directive tag selfClosing =>
      cases selfClosing with
      | true => exact (ih h).imp_right (.single (.directive tag))
      | false => exact (ih h).imp_right (.content (.directive tag))
    | closing name start stop =>
      cases stack with
      | nil => cases h
      | cons frame stack =>
        by_cases hname : frame.opened.name = name
        · obtain ⟨n, hfinish, h⟩ := bind_eq_ok_iff.1 ((assemble_closing hname).symm.trans h)
          rw [← List.append_nil nodes.reverse] at hfinish
          rw [← hname]
          exact (ih h).imp_right (.close start .nil hfinish)
        · cases (assemble_mismatched hname).symm.trans h

/-- A token that makes a node puts it in front of the nodes so far. -/
theorem Token.Makes.assemble_eq (h : token.Makes source n) (failure : Option Failure) :
    assemble source failure (token :: tokens) stack nodes =
      assemble source failure tokens stack (n :: nodes) := by
  cases h with
  | text => rfl
  | interpolation => rfl
  | leaf hn =>
    rw [assemble_leaf, hn]
    rfl
  | verbatim hn =>
    rw [assemble_verbatim, hn]
    rfl
  | directive => rfl

/-- A token that opens something starts with no nodes in it. -/
theorem Token.Opens.assemble_eq {opened : OpenTag} (h : token.Opens opened)
    (failure : Option Failure) :
    assemble source failure (token :: tokens) stack nodes =
      assemble source failure tokens (⟨opened, nodes⟩ :: stack) [] := by
  cases h with
  | tag => rfl
  | directive => rfl

/-- Tokens that make up a forest put it behind the nodes before. -/
theorem Assembles.assemble_append {before : List Token} {more : List Node}
    (h : Assembles source before more) (failure : Option Failure) (tokens : List Token)
    (stack : List Frame) (nodes : List Node) :
    assemble source failure (before ++ tokens) stack nodes =
      assemble source failure tokens stack (more.reverse ++ nodes) := by
  induction h generalizing tokens stack nodes with
  | nil => rfl
  | single hmakes _ ih =>
    rw [List.cons_append, hmakes.assemble_eq, ih, List.reverse_cons, List.append_assoc]
    rfl
  | content start hopens _ hfinish _ ihcontent ihrest =>
    rw [List.cons_append, List.append_assoc, List.cons_append, hopens.assemble_eq, ihcontent,
      assemble_closing rfl, List.append_nil, List.reverse_reverse, hfinish, List.reverse_cons,
      List.append_assoc]
    exact ihrest tokens stack (_ :: nodes)

/-- What is assembled is what has a derivation. -/
theorem assemble_eq_ok_iff {failure : Option Failure} :
    assemble source failure tokens [] [] = .ok nodes ↔
      failure = none ∧ Assembles source tokens nodes := by
  constructor
  · intro h
    obtain ⟨hfailure, hcompletes⟩ := completes_of_assemble h
    refine ⟨hfailure, ?_⟩
    cases hcompletes with
    | done hassembles => exact hassembles
  · rintro ⟨rfl, h⟩
    have happend := h.assemble_append none [] [] []
    rw [List.append_nil, List.append_nil] at happend
    rw [happend]
    simp [assemble]

/-- Tokens after one that makes a node put theirs behind that node. -/
theorem assembles_cons_iff (h : token.Makes source n) {forest : List Node} :
    Assembles source (token :: tokens) forest ↔
      ∃ nodes, Assembles source tokens nodes ∧ forest = n :: nodes := by
  constructor
  · intro hforest
    have hassemble := assemble_eq_ok_iff.2 ⟨rfl, hforest⟩
    rw [h.assemble_eq] at hassemble
    obtain ⟨-, hcompletes⟩ := completes_of_assemble hassemble
    cases hcompletes with
    | done hnodes => exact ⟨_, hnodes, rfl⟩
  · rintro ⟨nodes, hnodes, rfl⟩
    exact .single h hnodes

end Assembles

/-! ### Templates -/

section Templates

variable {component source : String}

theorem parse_eq_ok_iff_assemble {nodes : List Node} :
    parse component source = .ok nodes ↔ ∃ forest,
      assemble (Source.ofText source.toList)
      (scan source.toList).failure (scan source.toList).tokens
        [] [] = .ok forest ∧ nodes = pruneWhitespace forest := by
  unfold parse
  simp only
  split
  · rename_i forest hforest
    simp [hforest, eq_comm]
  · rename_i hfault
    simp [hfault]
  · rename_i hover
    simp [hover]

/-- The error of a template is the fault with which its tokens are put together, at its place. -/
theorem parse_eq_error_iff {e : ParseError} :
    parse component source = .error (.error e) ↔ ∃ start stop fault,
      assemble (Source.ofText source.toList)
      (scan source.toList).failure (scan source.toList).tokens
        [] [] = .error (.fault start stop fault) ∧
      e = ⟨component, (Source.ofText source.toList).span start stop, fault⟩ := by
  unfold parse
  simp only
  split
  · rename_i forest hforest
    simp [hforest]
  · rename_i start stop fault hfault
    simp only [hfault, Except.error.injEq, Rejection.error.injEq, Failure.fault.injEq]
    constructor
    · rintro rfl
      exact ⟨start, stop, fault, ⟨rfl, rfl, rfl⟩, rfl⟩
    · rintro ⟨_, _, _, ⟨rfl, rfl, rfl⟩, rfl⟩
      rfl
  · rename_i hover
    simp [hover]

theorem parse_eq_overrun_iff_assemble :
    parse component source = .error .overrun ↔
      assemble (Source.ofText source.toList)
      (scan source.toList).failure (scan source.toList).tokens
        [] [] = .error .overrun := by
  unfold parse
  simp only
  split
  · rename_i forest hforest
    simp [hforest]
  · rename_i hfault
    simp [hfault]
  · rename_i hover
    simp [hover]

/-- A template is read exactly if it is scanned without a failure and its tokens make up a forest;
then blank text is dropped from the forest. -/
theorem parse_eq_ok_iff {nodes : List Node} :
    parse component source = .ok nodes ↔ (scan source.toList).failure = none ∧ ∃ forest,
      Assembles (Source.ofText source.toList) (scan source.toList).tokens forest ∧
        nodes = pruneWhitespace forest := by
  simp only [parse_eq_ok_iff_assemble, assemble_eq_ok_iff, and_assoc, exists_and_left]

end Templates

end ViewCompiler.Template
