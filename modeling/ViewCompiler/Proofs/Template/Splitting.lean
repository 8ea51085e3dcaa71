import ViewCompiler.Proofs.Template.Joined

/-!
# Tokens for text in pieces

The tokens of a template with a token of text replaced by two, and with every other token moved,
make up a forest where the tokens before did, and the same one but for the pieces of that text
(`Around.exists_pieces`). Whether the text has structural neighbours only, and so can be dropped if
it is blank, is read off the tokens beside it (`exposed`). The content of a component has no
neighbours, and leaves nothing in the forest anyway.

`Around` leads from a forest down to one node that is a token of its own, past the siblings before
it and after it and into the tags around it. At each tag the tokens split into those in front of the
tag, those within it, and those behind. The theorem is an induction on that: at the bottom a list of
siblings gets two nodes in place of one (`exists_pieces_here`), and on the way up each tag is
finished again around its changed content, with places that have moved (`OpenTag.exists_encloses`).

Whether a tag can be finished does not depend on its content, with one exception: a component
refuses all content but blanks. So the induction has a second case at every component, where the
text is blank in one piece and in two, and the component comes out the same
(`OpenTag.exists_finish_of_isBlankText`).

A neighbour is structural if the token that it comes from ends in markup (`Token.endsMarkup`), and a
tag that has just been opened stands for the beginning of its content.
-/

namespace ViewCompiler.Template

open ViewCompiler.Text

/-! ### Completing a tag around other content -/

section Content

variable {source : Source} {children content : List Node} {stop : Nat} {n : Node}

/-- An element is finished from its bindings and what stands in it, and then wrapped by its
shorthand. -/
private theorem finishTag_of_element {tag : Tag} (hname : isComponentName tag.name = false)
    (source : Source)
    (children : List Node) (stop : Nat) :
    finishTag source tag children stop =
      bindAttributes source false tag.name none tag.attributes >>= fun x =>
        wrapped source (.element (source.span tag.start stop) tag.name x.1 children) x.2 := by
  unfold finishTag
  simp only [hname, Bool.false_eq_true, if_false]
  refine congrArg _ (funext fun x => ?_)
  obtain ⟨bindings, _ | a⟩ := x <;> rfl

/-- Whether a directive can be wrapped around a node does not depend on the node. -/
private theorem exists_wrapDirective_eq {node : Node} {a : Attribute}
    (h : wrapDirective source node a = .ok n) :
    ∃ d, ∀ node : Node, wrapDirective source node a =
      .ok (.directive node.span (trim (a.value.getD "")) (source.span a.valueStart a.valueStop) d
        [node]) := by
  unfold wrapDirective at h
  simp only at h
  split at h
  · cases h
  · rename_i d hd
    refine ⟨d, fun node => ?_⟩
    unfold wrapDirective
    simp only [hd]

/-- What an element is completed as stands around its content. -/
private theorem exists_encloses_of_completed {name : String} {attributes : List Attribute}
    (hname : isComponentName name = false) (h : completed name attributes children = some n) :
    ∃ enclose, Encloses enclose ∧
      ∀ content, completed name attributes content = some (enclose (unplacedAll content)) := by
  have hcompleted : ∀ content, completed name attributes content =
      (bindAttributes ⟨[], 0⟩ false name none attributes >>= fun x =>
        wrapped ⟨[], 0⟩ (.element (Source.span ⟨[], 0⟩ 0 0) name x.1 content) x.2).toOption.map
          Node.unplaced :=
    fun content => congrArg (fun x => x.toOption.map Node.unplaced)
      (finishTag_of_element (show isComponentName (Tag.name ⟨name, attributes, 0, 0⟩) =
        false from hname) _ _ _)
  rw [hcompleted] at h
  obtain ⟨m, hm, -⟩ := Option.map_eq_some_iff.1 h
  obtain ⟨⟨bindings, directive⟩, hbind, hwrapped⟩ := bind_eq_ok_iff.1 (toOption_eq_some_iff.1 hm)
  simp only [hcompleted, hbind]
  cases directive with
  | none => exact ⟨_, .element {} name (bindings.map Binding.unplaced), fun content => rfl⟩
  | some a =>
    obtain ⟨d, hd⟩ := exists_wrapDirective_eq hwrapped
    refine ⟨_,
      .wrapped {} (trim (a.value.getD "")) {} d (.element {} name (bindings.map Binding.unplaced)),
      fun content => ?_⟩
    exact congrArg (fun x => x.toOption.map Node.unplaced) (hd _)

/-- The blank content of a component makes no difference to it. -/
theorem completed_of_isBlankText {name : String} (hname : isComponentName name = true)
    (attributes : List Attribute) (hblank : ∀ c ∈ content, c.isBlankText = true) :
    completed name attributes content = completed name attributes [] := by
  have hnone : content.find? (!·.isBlankText) = none := by simpa using hblank
  unfold completed finishTag
  simp only [hname, if_true, hnone, List.find?_nil]

/-- Whether an open tag is that of a component. -/
def OpenTag.isComponent : OpenTag → Bool
  | .tag t => isComponentName t.name
  | .directive _ => false

/-- What is opened encloses its content in the same way, whatever the content and wherever it
stands. -/
theorem OpenTag.exists_encloses {opened : OpenTag} (hcomponent : opened.isComponent = false)
    (h : opened.finish source children stop = .ok n) :
    ∃ enclose, Encloses enclose ∧ n.unplaced = enclose (unplacedAll children) ∧
      ∀ source' k content stop', ∃ m : Node,
        (opened.shift k).finish source' content stop' = .ok m ∧
          m.unplaced = enclose (unplacedAll content) := by
  cases opened with
  | directive tag =>
    obtain rfl := Except.ok.inj h
    exact ⟨_, .directive {} tag.spec {} tag.directive, rfl, fun source' k content stop' =>
      ⟨_, rfl, rfl⟩⟩
  | tag tag =>
    have hsome := (finishTag_eq_completed rfl rfl source stop).symm.trans
      (congrArg (fun x => x.toOption.map Node.unplaced) h)
    obtain ⟨enclose, henclose, hcompleted⟩ := exists_encloses_of_completed hcomponent hsome
    refine ⟨enclose, henclose, Option.some.inj (hsome.symm.trans (hcompleted children)),
      fun source' k content stop' => ?_⟩
    have hfinish :=
      (finishTag_eq_completed (tag.written_shift k) rfl source' stop').trans (hcompleted content)
    obtain ⟨m, hm, hunplaced⟩ := Option.map_eq_some_iff.1 hfinish
    exact ⟨m, toOption_eq_some_iff.1 hm, hunplaced⟩

/-- A component is finished only around blanks. -/
theorem OpenTag.isBlankText_of_finish {opened : OpenTag} (hcomponent : opened.isComponent = true)
    (h : opened.finish source children stop = .ok n) : ∀ c ∈ children, c.isBlankText = true := by
  cases opened with
  | directive tag => cases hcomponent
  | tag tag =>
    obtain ⟨bindings, directive, node, -, hholds, -⟩ := finishes_of_finishTag h
    cases hholds with
    | component _ hblank => exact hblank
    | element hname => exact absurd (hcomponent.symm.trans hname) Bool.true_eq_false.mp

/-- A component that is finished around some blanks is finished around all blanks, to the same node
but for places. -/
theorem OpenTag.exists_finish_of_isBlankText {opened : OpenTag}
    (hcomponent : opened.isComponent = true)
    (h : opened.finish source children stop = .ok n) (hblank : ∀ c ∈ children, c.isBlankText = true)
    (source' : Source) (k : Nat) (hcontent : ∀ c ∈ content, c.isBlankText = true) (stop' : Nat) :
    ∃ m :
    Node, (opened.shift k).finish source' content stop' = .ok m ∧ m.unplaced = n.unplaced := by
  cases opened with
  | directive tag => cases hcomponent
  | tag tag =>
    have hsome := (finishTag_eq_completed rfl rfl source stop).symm.trans
      (congrArg (fun x => x.toOption.map Node.unplaced) h)
    rw [completed_of_isBlankText hcomponent _ hblank,
      ← completed_of_isBlankText hcomponent _ hcontent] at hsome
    have hfinish := (finishTag_eq_completed (tag.written_shift k) rfl source' stop').trans hsome
    obtain ⟨m, hm, hunplaced⟩ := Option.map_eq_some_iff.1 hfinish
    exact ⟨m, toOption_eq_some_iff.1 hm, hunplaced⟩

end Content

/-! ### Neighbours -/

/-- A token of running text. -/
def Token.isRunning : Token → Bool
  | .text .. | .interpolation .. => true
  | .opening _ | .leaf _ | .verbatim .. | .directive .. | .closing .. => false

/-- Text behind the token has markup before it, other than the tag of a component that it is the
content of. -/
def Token.endsMarkup : Token → Bool
  | .text .. | .interpolation .. => false
  | .opening tag => !isComponentName tag.name
  | .leaf _ | .verbatim .. | .directive .. | .closing .. => true

/-- Text between these tokens has only markup beside it, and is not the content of a component. -/
def exposed (before after : List Token) : Bool :=
  (before.getLast?.map Token.endsMarkup).getD true && after.head?.all (!·.isRunning)

section Neighbours

variable {source : Source} {tokens before after : List Token} {token : Token} {n : Node}
    {nodes : List Node}

private theorem getD_getLast?_cons {α : Type} (f : α → Bool) (flag : Bool) (x : α) (l : List α) :
    ((x :: l).getLast?.map f).getD flag = (l.getLast?.map f).getD (f x) := by
  rw [List.getLast?_cons]
  cases l.getLast? <;> rfl

private theorem getD_getLast?_append_cons {α : Type} (f : α → Bool) (flag : Bool)
    (outside : List α) (x : α) (l : List α) :
    ((outside ++ x :: l).getLast?.map f).getD flag = (l.getLast?.map f).getD (f x) := by
  rw [List.getLast?_append_cons, getD_getLast?_cons]

private theorem isBlankText_run_append (a b : String) :
    (run (a ++ b)).isBlankText = ((run a).isBlankText && (run b).isBlankText) := by
  simp only [run, Node.isBlankText, String.toList_append, List.all_append]

/-- Whether a forest ends with structure does not depend on places. -/
private theorem endsStructural_unplacedAll (flag : Bool) (nodes : List Node) :
    endsStructural flag (unplacedAll nodes) = endsStructural flag nodes := by
  induction nodes generalizing flag with
  | nil => rfl
  | cons n nodes ih => rw [unplacedAll, endsStructural, endsStructural, n.kind_unplaced, ih]

/-- Blank text does not end in markup. -/
private theorem endsStructural_of_isBlankText (hblank : ∀ n ∈ nodes, n.isBlankText = true) :
    endsStructural false nodes = false := by
  induction nodes with
  | nil => rfl
  | cons n nodes ih =>
    obtain ⟨hn, hnodes⟩ := List.forall_mem_cons.1 hblank
    rw [endsStructural, not_isStructural_of_isBlankText hn, ih hnodes]

theorem Tag.Finishes.isStructural {tag : Tag} {children : List Node} {stop : Nat}
    (h : tag.Finishes source children stop n) : n.kind.isStructural = true := by
  obtain ⟨bindings, directive, node, -, hholds, hwraps⟩ := h
  cases hwraps with
  | bare => cases hholds <;> rfl
  | wrapped => exact isStructural_directive ..

private theorem isStructural_of_finish {opened : OpenTag} {children : List Node} {stop : Nat}
    (h : opened.finish source children stop = .ok n) : n.kind.isStructural = true := by
  cases opened with
  | directive tag =>
    obtain rfl := Except.ok.inj h
    exact isStructural_directive ..
  | tag tag => exact (finishes_of_finishTag h).isStructural

/-- A token ends as markup exactly if the node that it makes is structural. -/
theorem Token.Makes.endsMarkup_eq (h : token.Makes source n) :
    token.endsMarkup = n.kind.isStructural := by
  cases h with
  | text | interpolation => rfl
  | leaf hfinish => exact (finishes_of_finishTag hfinish).isStructural.symm
  | verbatim hfinish => exact (finishes_of_finishTag hfinish).isStructural.symm
  | directive => exact (isStructural_directive ..).symm

theorem Token.Makes.isRunning_eq (h : token.Makes source n) :
    (!token.isRunning) = n.kind.isStructural := by
  rw [← h.endsMarkup_eq]
  cases h <;> rfl

theorem Token.Opens.isRunning_eq {opened : OpenTag} (h : token.Opens opened) :
    token.isRunning = false := by
  cases h <;> rfl

/-- A token that opens something ends as markup unless it opens a component. -/
theorem Token.Opens.endsMarkup_eq {opened : OpenTag} (h : token.Opens opened) :
    token.endsMarkup = !opened.isComponent := by
  cases h <;> rfl

/-- What tokens end in is what their nodes end in. -/
theorem Assembles.endsStructural_eq (h : Assembles source tokens nodes) (flag : Bool) :
    endsStructural flag nodes = (tokens.getLast?.map Token.endsMarkup).getD flag := by
  induction h generalizing flag with
  | nil => rfl
  | single hmakes _ ih => rw [endsStructural, ih, getD_getLast?_cons, hmakes.endsMarkup_eq]
  | content start hopens _ hfinish _ _ ih =>
    rw [endsStructural, ih, getD_getLast?_cons, getD_getLast?_append_cons,
      isStructural_of_finish hfinish]
    rfl

/-- Whether a forest starts with structure is told from its first token. -/
theorem Assembles.head?_eq (h : Assembles source tokens nodes) :
    nodes.head?.all (·.kind.isStructural) = tokens.head?.all (!·.isRunning) := by
  cases h with
  | nil => rfl
  | single hmakes => exact hmakes.isRunning_eq.symm
  | content start hopens _ hfinish =>
    rw [List.head?_cons, List.head?_cons, Option.all_some, Option.all_some,
      isStructural_of_finish hfinish,
      hopens.isRunning_eq]
    rfl

theorem exposed_map_shift (k : Nat) (before after : List Token) :
    exposed before (after.map (Token.shift k)) = exposed before after := by
  cases after with
  | nil => rfl
  | cons t after => cases t <;> rfl

/-- What text in the content of a tag has beside it, it has there or it is that tag. -/
private theorem exposed_within (outside rest : List Token) (token : Token)
    (before after : List Token) {closing : Token} (hclosing : closing.isRunning = false) :
    exposed (outside ++ token :: before) (after ++ closing :: rest) =
      ((before.getLast?.map Token.endsMarkup).getD token.endsMarkup &&
        after.head?.all (!·.isRunning)) := by
  rw [exposed, getD_getLast?_append_cons]
  cases after with
  | nil => simp [hclosing]
  | cons t after => rfl

end Neighbours

/-! ### Text in two pieces -/

/-- A node is made of a token of its own, between these other tokens of a template. -/
inductive Around (source : Source) (n : Node) : List Token → List Token → List Node → Prop where
  | here {before after : List Token} {nodes nodes' : List Node}
    (hbefore : Assembles source before nodes)
    (hafter : Assembles source after nodes') : Around source n before after (nodes ++ n :: nodes')
  | inside {outside before after rest : List Token} {token : Token} {opened : OpenTag} (start : Nat)
    {stop : Nat} {m : Node} {nodes children nodes' : List Node}
    (houtside : Assembles source outside nodes)
    (hopens : token.Opens opened) (hcontent : Around source n before after children)
    (hfinish : opened.finish source children stop = .ok m) (hrest : Assembles source rest nodes') :
    Around source n (outside ++ token :: before) (after ++ .closing opened.name start stop :: rest)
      (nodes ++ m :: nodes')

section Around

variable {source : Source} {tokens before after : List Token} {n : Node}
    {nodes nodes' forest : List Node}

/-- Tokens one part behind the other are put together one part behind the other. -/
theorem Assembles.append {tokens' : List Token} (h : Assembles source tokens nodes)
    (h' : Assembles source tokens' nodes') :
    Assembles source (tokens ++ tokens') (nodes ++ nodes') := by
  induction h with
  | nil => exact h'
  | single hmakes _ ih => exact .single hmakes ih
  | content start hopens hcontent hfinish _ _ ih =>
    rw [List.cons_append, List.append_assoc]
    exact .content start hopens hcontent hfinish ih

/-- What stands around a node may start further ahead. -/
theorem Around.append (h : Assembles source tokens nodes)
    (haround : Around source n before after forest) :
    Around source n (tokens ++ before) after (nodes ++ forest) := by
  cases haround with
  | here hbefore hafter =>
    rw [← List.append_assoc]
    exact .here (h.append hbefore) hafter
  | inside start houtside hopens hcontent hfinish hrest =>
    rw [← List.append_assoc, ← List.append_assoc]
    exact .inside start (h.append houtside) hopens hcontent hfinish hrest

/-- Every piece of text of a template stands somewhere in the forest. -/
theorem Assembles.around (h : Assembles source tokens forest) {start stop : Nat} {raw : String}
    (htokens : tokens = before ++ .text start stop raw :: after) :
    Around source (chunkNode source start stop raw) before after forest := by
  induction h generalizing before after with
  | nil => simp at htokens
  | single hmakes hrest ih =>
    cases before with
    | nil =>
      obtain ⟨rfl, rfl⟩ := List.cons.inj htokens
      cases hmakes
      exact .here .nil hrest
    | cons t before =>
      obtain ⟨rfl, rfl⟩ := List.cons.inj htokens
      exact (ih rfl).append (.single hmakes .nil)
  | @content token opened content tokens first last m children nodes hopens hcontent hfinish
        hrest ihcontent
      ihrest =>
    cases before with
    | nil =>
      obtain ⟨rfl, -⟩ := List.cons.inj htokens
      cases hopens
    | cons t before =>
      obtain ⟨rfl, hmore⟩ := List.cons.inj htokens
      -- The piece stands behind the tag or in its content: it is not the closing tag itself.
      rcases List.append_eq_append_iff.1 hmore with ⟨rest, rfl, hrest'⟩ | ⟨rest, rfl, hrest'⟩
      · cases rest with
        | nil => cases (List.cons.inj hrest').1
        | cons c rest =>
          obtain ⟨rfl, rfl⟩ := List.cons.inj hrest'
          have hbehind := (ihrest rfl).append (Assembles.content first hopens hcontent hfinish .nil)
          simpa using hbehind
      · cases rest with
        | nil => cases (List.cons.inj hrest').1
        | cons c rest =>
          obtain ⟨rfl, rfl⟩ := List.cons.inj hrest'
          exact .inside first .nil hopens (ihcontent rfl) hfinish hrest

/-- Two pieces of text among the siblings that make up the content of a tag, or a template. -/
theorem exists_pieces_here {before' after' : List Token} (hbefore : Assembles source before nodes)
    (hafter : Assembles source after nodes') (hbefore' : List.Forall₂ Token.Moved before' before)
    (hafter' : List.Forall₂ Token.Moved after' after) (source' : Source) (first second : String)
    (start cut restart stop : Nat) :
    ∃ forest, Assembles source'
        (before' ++ .text start cut first :: .text restart stop second :: after') forest ∧
      unplacedAll forest = unplacedAll nodes ++ ([run (CharacterReference.decode first),
        run (CharacterReference.decode second)] ++ unplacedAll nodes') := by
  obtain ⟨moved, hmoved, hsame⟩ := hbefore.exists_moved hbefore' source'
  obtain ⟨moved', hmoved', hsame'⟩ := hafter.exists_moved hafter' source'
  refine ⟨_,
    hmoved.append (.single (.text start cut first) (.single (.text restart stop second) hmoved')),
    ?_⟩
  rw [unplacedAll_append, hsame, ← hsame']
  rfl

/-- In the content of a component a piece of text stands among others, and is not exposed. -/
private theorem Around.of_isBlankText (h : Around source n before after forest)
    (hblank : ∀ c ∈ forest, c.isBlankText = true) :
    ∃ nodes nodes', Assembles source before nodes ∧ Assembles source after nodes' ∧
      forest = nodes ++ n :: nodes' := by
  cases h with
  | here hbefore hafter => exact ⟨_, _, hbefore, hafter, rfl⟩
  | inside start houtside hopens hcontent hfinish hrest =>
    have hm := hblank _ (List.mem_append_right _ List.mem_cons_self)
    rw [isBlankText_of_finish hfinish] at hm
    cases hm

/-- A piece of text may come in two pieces with other text between them that leaves no token. The
forest is the same but for that piece, and if it was the content of a component, it is the same
altogether. -/
theorem Around.exists_pieces (h : Around source n before after forest) {first second : String}
    (hn : n.unplaced = run (CharacterReference.decode first ++ CharacterReference.decode second))
    {before' after' : List Token} (hbefore' : List.Forall₂ Token.Moved before' before)
    (hafter' : List.Forall₂ Token.Moved after' after) (source' : Source)
    (start cut restart stop : Nat) :
    ∃ forest', Assembles source'
        (before' ++ .text start cut first :: .text restart stop second :: after') forest' ∧
      (unplacedAll forest' = unplacedAll forest ∧ exposed before after = false ∨
        Replaced [run (CharacterReference.decode first ++ CharacterReference.decode second)]
          [run (CharacterReference.decode first), run (CharacterReference.decode second)]
          (exposed before after) (unplacedAll forest) (unplacedAll forest')) := by
  induction h generalizing before' after' with
  | @here before after nodes nodes' hbefore hafter =>
    obtain ⟨forest', hassembles, hforest'⟩ :=
      exists_pieces_here hbefore hafter hbefore' hafter' source' first second start cut restart stop
    refine ⟨forest', hassembles, .inr ?_⟩
    have hexposed : exposed before after =
        (endsStructural true (unplacedAll nodes) &&
          (unplacedAll nodes').head?.all (·.kind.isStructural)) := by
      rw [endsStructural_unplacedAll, head?_unplacedAll, hbefore.endsStructural_eq,
        hafter.head?_eq, exposed]
    rw [unplacedAll_append, unplacedAll, hn, hforest', hexposed]
    exact .here (unplacedAll nodes) (unplacedAll nodes')
  | @inside outside before after rest token opened first' stop' m nodes children nodes' houtside
        hopens hcontent
      hfinish hrest ih =>
    obtain ⟨outside', _, rfl, houtside', hinner⟩ := exists_append_of_forall₂ hbefore'
    obtain ⟨inner, _, rfl, hinner', houter⟩ := exists_append_of_forall₂ hafter'
    obtain ⟨_, within, ⟨k, rfl⟩, hwithin, rfl⟩ := List.forall₂_cons_right_iff.1 hinner
    obtain ⟨_, rest', ⟨l, rfl⟩, hrest', rfl⟩ := List.forall₂_cons_right_iff.1 houter
    obtain ⟨moved, hmoved, hsame⟩ := houtside.exists_moved houtside' source'
    obtain ⟨moved', hmoved', hsame'⟩ := hrest.exists_moved hrest' source'
    -- Whatever the tag is completed as, its node stands among the same siblings.
    have hamong : ∀ {content : List Node} {m' : Node},
        Assembles source' (within ++ .text start cut first :: .text restart stop second :: inner)
          content →
        (opened.shift k).finish source' content (l + stop') = .ok m' →
        ∃ forest',
          Assembles source' (outside' ++ token.shift k :: within ++ .text start cut first ::
            .text restart stop
              second :: (inner ++ .closing opened.name (l + first') (l + stop') :: rest'))
            forest' ∧
          unplacedAll forest' = unplacedAll nodes ++ m'.unplaced :: unplacedAll nodes' := by
      intro content m' hcontent' hm'
      refine ⟨moved ++ m' :: moved', ?_, by rw [unplacedAll_append, unplacedAll, hsame, hsame']⟩
      have hwhole := hmoved.append (.content (l + first') (hopens.shift k) hcontent' hm' hmoved')
      rw [OpenTag.name_shift] at hwhole
      simpa using hwhole
    rw [exposed_within outside rest token before after
      (show Token.isRunning (.closing ..) = false from rfl),
      hopens.endsMarkup_eq, unplacedAll_append, unplacedAll]
    cases hcomponent : opened.isComponent with
    | true =>
      have hblank := OpenTag.isBlankText_of_finish hcomponent hfinish
      obtain ⟨siblings, siblings', hbefore, hafter, rfl⟩ := hcontent.of_isBlankText hblank
      obtain ⟨content, hcontent', hpieces⟩ :=
        exists_pieces_here hbefore hafter hwithin hinner' source' first second start
          cut restart stop
      obtain ⟨hfront, hback⟩ := List.forall_mem_append.1 hblank
      obtain ⟨hpiece, hback⟩ := List.forall_mem_cons.1 hback
      rw [← n.isBlankText_unplaced, hn, isBlankText_run_append, Bool.and_eq_true_iff] at hpiece
      have hcontent : ∀ c ∈ content, c.isBlankText = true := by
        rw [← forall_isBlankText_unplacedAll, hpieces]
        simp only [List.forall_mem_append, List.forall_mem_cons, forall_isBlankText_unplacedAll]
        exact ⟨hfront, ⟨hpiece.1, hpiece.2, by simp⟩, hback⟩
      obtain ⟨m', hm', hunplaced⟩ :=
        OpenTag.exists_finish_of_isBlankText hcomponent hfinish hblank source' k
        hcontent (l + stop')
      obtain ⟨forest', hforest', hresult⟩ := hamong hcontent' hm'
      refine ⟨forest', hforest', .inl ⟨by rw [hresult, hunplaced], ?_⟩⟩
      rw [Bool.not_true, ← hbefore.endsStructural_eq, endsStructural_of_isBlankText hfront,
        Bool.false_and]
    | false =>
      obtain ⟨enclose, henclose, hm, hfinishes⟩ := OpenTag.exists_encloses hcomponent hfinish
      obtain ⟨content, hcontent', hpieces⟩ := ih hwithin hinner'
      obtain ⟨m', hm', hunplaced⟩ := hfinishes source' k content (l + stop')
      obtain ⟨forest', hforest', hresult⟩ := hamong hcontent' hm'
      refine ⟨forest', hforest', ?_⟩
      rw [hresult, hunplaced, hm]
      refine hpieces.imp (fun ⟨heq, hexposed⟩ => ⟨by rw [heq], hexposed⟩) fun hreplaced => ?_
      exact .inside _ _ henclose hreplaced

end Around

end ViewCompiler.Template
