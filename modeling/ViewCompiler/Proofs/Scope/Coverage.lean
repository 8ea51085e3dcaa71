import Mathlib.Logic.Relation
import ViewCompiler.Proofs.Compile.Usage
import ViewCompiler.Proofs.Scope.Constancy
import ViewCompiler.Proofs.Scope.Standing

/-!
# When a tree can be built

A library covers a root when every tag that stands somewhere below it is known, no component uses
itself, what feeds a component names its properties, and every name that stands somewhere has a
nearest declaration of the right kind (`Library.Covers`). All of this is said of the templates and
not of the tree. A tree is built exactly for the roots that are covered, and its references are
those nearest declarations (`Tree.exists_build_iff_covers`, `Tree.build_resolves_nearest`).

To build a tree is to lay it out and then to resolve every name in it. Laying out fails on unknown
tags, on components without metadata and on recursion, and these are conditions on what stands where
(`Stands`). Where it succeeds, the scopes of the tree have exactly the frames in which nodes stand,
up to the numbers of the frames and the order of the scopes, and no look-up depends on either. So
every name that is resolved in the tree is one that stands in a template, in the same frames, and
the other way round.

The nearest declaration is looked for from the frame of a node outwards. What declares a name
depends on the frame: an instance declares its members, a view of a repeater its variables, and a
view of a condition nothing. Which kinds are right depends on where the name is written: a call
names a method, and an access something else.
-/

namespace ViewCompiler

open ViewCompiler.Template

/-! ### Nearest declarations -/

namespace Frames

/-- The reference goes to the first frame from the inside out that declares the name. -/
def Nearest (fs : Frames) (name : String) (r : Reference) : Prop :=
  ∃ inner f outer, fs = inner ++ f :: outer ∧ (∀ g ∈ inner, g.declares? name = none) ∧
    f.declares? name = some r.kind ∧ r.name = name ∧ r.definition = f.id

/-- What a name refers to is its nearest declaration. -/
theorem reference?_eq_some_iff {fs : Frames} {name : String} {r : Reference} :
    fs.reference? name = some r ↔ fs.Nearest name r := by
  rw [reference?, Option.map_eq_some_iff]
  constructor
  · rintro ⟨o, ho, rfl⟩
    obtain ⟨inner, hsplit, hnone, hdeclares⟩ := resolve?_eq_some_iff.1 ho
    exact ⟨inner, o.frame, o.outer, hsplit, hnone, hdeclares, rfl, rfl⟩
  · rintro ⟨inner, f, outer, hsplit, hnone, hdeclares, hname, hid⟩
    refine ⟨⟨r.kind, f, outer⟩, resolve?_eq_some_iff.2 ⟨inner, hsplit, hnone, hdeclares⟩, ?_⟩
    rw [← hname, ← hid]

/-- Every name in a value has a nearest declaration of the right kind: what is read is a property, a
getter or a loop variable, and what is called is a method. -/
structure Declares (fs : Frames) (v : Value) : Prop where
  access : ∀ path, v = .access path →
    ∃ r, fs.Nearest path.root r ∧ r.kind ∈ [.property, .getter, .item, .index]
  call : ∀ method arguments, v = .call method arguments →
    ∃ r, fs.Nearest method r ∧ r.kind = .method
  argument : ∀ method arguments path, v = .call method arguments → .access path ∈ arguments →
    ∃ r, fs.Nearest path.root r ∧ r.kind ∈ [.property, .getter, .item, .index]

private theorem reads_iff_nearest {fs : Frames} {name : String} :
    fs.Reads name ↔ ∃ r, fs.Nearest name r ∧ r.kind ∈ [.property, .getter, .item, .index] := by
  have hkind : ∀ kind : RefKind, kind ∈ [.property, .getter, .item, .index] ↔ kind ≠ .method := by
    intro kind
    cases kind <;> decide
  simp only [hkind, ← reference?_eq_some_iff, reference?, Option.map_eq_some_iff]
  constructor
  · rintro ⟨o, ho, hne⟩
    exact ⟨_, ⟨o, ho, rfl⟩, hne⟩
  · rintro ⟨_, ⟨o, ho, rfl⟩, hne⟩
    exact ⟨o, ho, hne⟩

private theorem calls_iff_nearest {fs : Frames} {name : String} :
    fs.Calls name ↔ ∃ r, fs.Nearest name r ∧ r.kind = .method := by
  simp only [← reference?_eq_some_iff, reference?, Option.map_eq_some_iff]
  constructor
  · rintro ⟨o, ho, hmethod⟩
    exact ⟨_, ⟨o, ho, rfl⟩, hmethod⟩
  · rintro ⟨_, ⟨o, ho, rfl⟩, hmethod⟩
    exact ⟨o, ho, hmethod⟩

/-- A value is admitted exactly when its names have nearest declarations of the right kind. -/
theorem admits_iff_declares {fs : Frames} {v : Value} : fs.Admits v ↔ fs.Declares v := by
  constructor
  · intro h
    refine ⟨?_, ?_, ?_⟩
    · rintro path rfl
      exact reads_iff_nearest.1 h
    · rintro method arguments rfl
      exact calls_iff_nearest.1 h.1
    · rintro method arguments path rfl hpath
      exact reads_iff_nearest.1 (h.2 _ hpath)
  · intro h
    cases v with
    | text => trivial
    | literal => trivial
    | access path => exact reads_iff_nearest.2 (h.access path rfl)
    | call method arguments =>
      refine ⟨calls_iff_nearest.2 (h.call method arguments rfl), fun a ha => ?_⟩
      cases a with
      | literal => trivial
      | access path => exact reads_iff_nearest.2 (h.argument method arguments path rfl ha)
      | payload => trivial

end Frames

/-! ### Coverage -/

/-- The bindings of a node that are read: what feeds a scope is read where one is mounted. -/
def readBindings (n : Node) : List Binding :=
  n.bindings.filter fun b => !b.kind.isSelf || n.kind.isScope

/-- A component uses another one: a tag in its template refers to it. -/
def Library.Uses (lib : Library) (d d' : Definition) : Prop :=
  ∃ tag, Mentions d.template tag ∧ lib.find? tag = some d'

/-- Everything that mounting the root leads to is known, and all names in it are declared. -/
structure Library.Covers (lib : Library) (root : Definition) : Prop where
  metadata : ∃ m, root.metadata = some m
  known : ∀ {fs span tag bindings}, Stands lib root fs (.component span tag bindings) →
    ∃ d m, lib.find? tag = some d ∧ d.metadata = some m
  acyclic : ∀ {d d'}, Relation.ReflTransGen lib.Uses root d → Relation.TransGen lib.Uses d d' →
    d'.name ≠ d.name
  targets : ∀ {fs span tag bindings d m}, Stands lib root fs (.component span tag bindings) →
    lib.find? tag = some d → d.metadata = some m →
    ∀ b ∈ bindings, b.kind = .input ∨ b.kind = .output → b.name ∈ m.properties
  names : ∀ {fs n}, Stands lib root fs n → ∀ b ∈ readBindings n, fs.Declares b.value

/-! ### Laying out what is covered -/

section Layout

variable {lib : Library} {root : Definition}

/-- A forest of a component that the root leads to can be laid out below the components that led
there. -/
private theorem Library.Covers.exists_expand (h : lib.Covers root) {entered : List String}
    {owner here : String} {index id : Nat} {nodes : List Node} {d : Definition} {fs : Frames}
    (hd : Relation.ReflTransGen lib.Uses root d)
    (hentered : ∀ name ∈ entered, ∃ d', Relation.ReflTransGen lib.Uses root d' ∧ d'.name = name ∧
      Relation.ReflTransGen lib.Uses d' d)
    (hstands : ∀ n ∈ nodes, Stands lib root fs n)
    (hmentions : ∀ tag, Mentions nodes tag → Mentions d.template tag) :
    ∃ e, expand lib entered owner here index id nodes = .ok e := by
  fun_induction expand lib entered owner here index id nodes generalizing d fs with
  | case1 => exact ⟨_, rfl⟩
  | case2 entered owner here index id span name bindings inner rest node ihInner =>
    rename_i ihRest
    obtain ⟨hnode, hrest⟩ := List.forall_mem_cons.1 hstands
    obtain ⟨content, hcontent⟩ := ihInner hd hentered (fun n hn => hnode.element hn)
      fun tag htag => hmentions tag (mentions_cons.2 (.inr (.inl htag)))
    obtain ⟨after, hafter⟩ := ihRest content hd hentered hrest
      fun tag htag => hmentions tag (mentions_cons.2 (.inr (.inr htag)))
    exact ⟨_, bind_eq_ok_iff.2 ⟨content, hcontent, bind_eq_ok_iff.2 ⟨after, hafter, rfl⟩⟩⟩
  | case3 entered owner here index id span spec specSpan directive inner rest node suffix role hrole
      frame =>
    rename_i ihInner ihRest
    obtain ⟨hnode, hrest⟩ := List.forall_mem_cons.1 hstands
    obtain ⟨content, hcontent⟩ := ihInner hd hentered
      (fun n hn => hnode.mounted (.directive owner id) hn)
      fun tag htag => hmentions tag (mentions_cons.2 (.inr (.inl htag)))
    obtain ⟨after, hafter⟩ := ihRest content hd hentered hrest
      fun tag htag => hmentions tag (mentions_cons.2 (.inr (.inr htag)))
    exact ⟨_, bind_eq_ok_iff.2 ⟨content, hcontent, bind_eq_ok_iff.2 ⟨after, hafter, rfl⟩⟩⟩
  | case4 entered owner here index id span name bindings rest hfind =>
    obtain ⟨d', m, hfind', -⟩ := h.known (List.forall_mem_cons.1 hstands).1
    rw [hfind] at hfind'
    cases hfind'
  | case5 entered owner here index id span name bindings rest d' hfind hmeta =>
    obtain ⟨d'', m, hfind', hmeta'⟩ := h.known (List.forall_mem_cons.1 hstands).1
    obtain rfl := Option.some.inj (hfind.symm.trans hfind')
    rw [hmeta] at hmeta'
    cases hmeta'
  | case6 entered owner here index id span name bindings rest d' hfind m hmeta hmem =>
    -- A component that is entered already would lead to itself.
    have huses : lib.Uses d d' :=
      ⟨name, hmentions name (mentions_cons.2 (.inl ⟨span, bindings, rfl⟩)), hfind⟩
    obtain ⟨first, hfirst, hname, hpath⟩ := hentered _ hmem
    exact absurd hname.symm (h.acyclic hfirst (.tail' hpath huses))
  | case7 entered owner here index id span name bindings rest node d' hfind m hmeta hnew _
        frame view =>
    rename_i ihInner ihRest
    have hview : view = d'.template := copyForest_eq d'.template
    rw [hview] at ihInner ⊢
    obtain ⟨hnode, hrest⟩ := List.forall_mem_cons.1 hstands
    have huses : lib.Uses d d' :=
      ⟨name, hmentions name (mentions_cons.2 (.inl ⟨span, bindings, rfl⟩)), hfind⟩
    obtain ⟨content, hcontent⟩ := ihInner (hd.tail huses)
      (List.forall_mem_cons.2 ⟨⟨d', hd.tail huses, rfl, .refl⟩, fun n hn => by
        obtain ⟨first, hfirst, hname, hpath⟩ := hentered n hn
        exact ⟨first, hfirst, hname, hpath.tail huses⟩⟩)
      (fun n hn => hnode.mounted (.component id hfind hmeta) hn) fun _ htag => htag
    obtain ⟨after, hafter⟩ := ihRest content hd hentered hrest
      fun tag htag => hmentions tag (mentions_cons.2 (.inr (.inr htag)))
    exact ⟨_, bind_eq_ok_iff.2 ⟨content, hcontent, bind_eq_ok_iff.2 ⟨after, hafter, rfl⟩⟩⟩
  | case8 entered owner here index id node rest hElement hDirective hComponent ihRest =>
    obtain ⟨-, hrest⟩ := List.forall_mem_cons.1 hstands
    obtain ⟨after, hafter⟩ := ihRest hd hentered hrest
      fun tag htag => hmentions tag (mentions_cons.2 (.inr (.inr htag)))
    exact ⟨_, bind_eq_ok_iff.2 ⟨after, hafter, rfl⟩⟩

/-- A root that is covered can be laid out. -/
private theorem Library.Covers.exists_ofDefinition (h : lib.Covers root) (firstId : Nat) :
    ∃ scope nextId, Scope.ofDefinition lib firstId (some root) = .ok (scope, nextId) := by
  obtain ⟨m, hmeta⟩ := h.metadata
  obtain ⟨content, hcontent⟩ : ∃ content, expand lib [root.name] root.name
      (Frame.text ⟨firstId, root.name, .component m, []⟩) 0 (firstId + 1) root.template =
        .ok content := by
    have hstands : ∀ n ∈ root.template, Stands lib root [⟨firstId, _, .component m, []⟩] n :=
      fun n hn => .root firstId hmeta hn
    exact h.exists_expand .refl (List.forall_mem_singleton.2 ⟨root, .refl, rfl, .refl⟩) hstands
      fun _ => id
  refine ⟨.mk ⟨firstId, root.name, .component m, []⟩ none root.template content.saved
    content.nextIndex content.children, content.nextId, ?_⟩
  simp only [Scope.ofDefinition, Option.bind_some, hmeta, Option.map_some, copyForest_eq]
  exact bind_eq_ok_iff.2 ⟨content, hcontent, rfl⟩

/-! ### What is laid out is covered -/

/-- The template of a component is laid out somewhere, below the components already entered. -/
def Library.LaysOut (lib : Library) (entered : List String) (d : Definition) : Prop :=
  ∃ owner index id e, Laid lib entered owner index id d.template e

/-- Whatever a component that is laid out uses is laid out one component further in, and was not
entered before. -/
theorem Library.LaysOut.uses {entered : List String} {d d' : Definition}
    (h : lib.LaysOut entered d) (huses : lib.Uses d d') :
    d'.name ∉ entered ∧ lib.LaysOut (d'.name :: entered) d' := by
  obtain ⟨owner, index, id, e, hlaid⟩ := h
  obtain ⟨tag, hmentions, hfind⟩ := huses
  obtain ⟨d'', id', content, hfind', hnew, hinner⟩ := hlaid.exists_of_mentions hmentions
  obtain rfl := Option.some.inj (hfind.symm.trans hfind')
  exact ⟨hnew, _, _, _, _, hinner⟩

/-- A component that is reached by using others was not entered before, and those that were entered
stay so. -/
theorem Library.LaysOut.transGen {entered : List String} {d d' : Definition}
    (h : lib.LaysOut entered d) (huses : Relation.TransGen lib.Uses d d') :
    d'.name ∉ entered ∧ ∃ between, lib.LaysOut (d'.name :: (between ++ entered)) d' := by
  induction huses with
  | single huses =>
    obtain ⟨hnew, hlays⟩ := h.uses huses
    exact ⟨hnew, [], hlays⟩
  | @tail c c' _ huses ih =>
    obtain ⟨-, between, hlays⟩ := ih
    obtain ⟨hnew, hlays'⟩ := hlays.uses huses
    refine ⟨fun hmem => hnew ?_, c.name :: between, hlays'⟩
    exact List.mem_cons_of_mem _ (List.mem_append_right _ hmem)

/-- No component leads to itself below one that is laid out after it was entered. -/
theorem Library.LaysOut.acyclic {entered : List String} (hroot : lib.LaysOut entered root)
    (hmem : root.name ∈ entered) {d d' : Definition}
    (hd : Relation.ReflTransGen lib.Uses root d) (huses : Relation.TransGen lib.Uses d d') :
    d'.name ≠ d.name := by
  obtain ⟨entered', hmem', hlays⟩ : ∃ entered', d.name ∈ entered' ∧ lib.LaysOut entered' d := by
    rcases Relation.reflTransGen_iff_eq_or_transGen.1 hd with rfl | hd
    · exact ⟨entered, hmem, hroot⟩
    · obtain ⟨-, between, hlays⟩ := hroot.transGen hd
      exact ⟨_, List.mem_cons_self, hlays⟩
  obtain ⟨hnew, -⟩ := hlays.transGen huses
  intro heq
  rw [heq] at hnew
  exact hnew hmem'

end Layout

/-! ### Building exactly what is covered -/

section Build

variable {lib : Library} {firstId : Nat} {root : Definition} {t : Tree}

/-- A root for which a tree is built is covered. -/
private theorem Library.covers_of_build (h : Tree.build lib firstId (some root) = .ok t) :
    lib.Covers root := by
  obtain ⟨hlaid, hresolves⟩ := Tree.build_eq_ok_iff.1 h
  -- The scope mounted at a node that stands somewhere, next to the frames around the node.
  have hmounted : ∀ {fs n}, Stands lib root fs n → n.kind.isScope = true →
      ∃ p ∈ t.scopes, p.frame.Mounts lib n p.scope.view ∧
        p.outer.map Frame.role = fs.map Frame.role := by
    intro fs n hn hscope
    obtain ⟨p, hp, hroles, s, hs, rfl⟩ := Scope.exists_saved_of_stands hlaid hn
    obtain ⟨c, hc, -, -, hmounts⟩ := Placed.exists_child hlaid hp hs hscope
    exact ⟨p.child c, Placed.child_mem hp hc, hmounts, hroles⟩
  refine ⟨?_, ?_, ?_, ?_, ?_⟩
  · obtain ⟨d, m, content, hd, hmeta, -, -⟩ := Scope.exists_laid_of_ofDefinition hlaid
    obtain rfl := Option.some.inj hd
    exact ⟨m, hmeta⟩
  · intro fs span tag bindings hn
    obtain ⟨p, hp, hmounts, -⟩ := hmounted hn rfl
    generalize p.frame = f, p.scope.view = view at hmounts
    cases hmounts with
    | component _ hfind hmeta => exact ⟨_, _, hfind, hmeta⟩
  · intro d d' hd huses
    obtain ⟨root', m, content, hroot, -, hcontent, -⟩ := Scope.exists_laid_of_ofDefinition hlaid
    obtain rfl := Option.some.inj hroot
    exact Library.LaysOut.acyclic ⟨_, _, _, _, hcontent⟩ List.mem_cons_self hd huses
  · intro fs span tag bindings d m hn hfind hmeta b hb hkind
    obtain ⟨p, hp, hmounts, -⟩ := hmounted hn rfl
    have hfeeds : b ∈ p.frame.feeds := by
      rw [hmounts.feeds_eq]
      exact List.mem_filter.2 ⟨hb, by rcases hkind with hkind | hkind <;> rw [hkind] <;> rfl⟩
    have hrole : p.frame.role = .component m :=
      (hmounts.role_eq (.component 0 hfind hmeta)).1
    have htargets := (hresolves p hp).targets b hfeeds hkind m (Frame.metadata?_eq_some_iff.2 hrole)
    exact Metadata.member?_eq_property_iff.1 htargets
  · intro fs n hn b hb
    obtain ⟨hb, hread⟩ := List.mem_filter.1 hb
    rw [← Frames.admits_iff_declares]
    by_cases hself : b.kind.isSelf = true
    · have hscope : n.kind.isScope = true := by simpa [hself] using hread
      obtain ⟨p, hp, hmounts, hroles⟩ := hmounted hn hscope
      have hfeeds : b ∈ p.frame.feeds := by
        rw [hmounts.feeds_eq]
        exact List.mem_filter.2 ⟨hb, hself⟩
      exact (Frames.admits_iff_of_roles_eq hroles _).1 ((hresolves p hp).fed b hfeeds)
    · obtain ⟨p, hp, hroles, s, hs, rfl⟩ := Scope.exists_saved_of_stands hlaid hn
      have hown : b ∈ p.ownBindings :=
        List.mem_flatMap.2 ⟨s, hs, List.mem_filter.2 ⟨hb, by simpa using hself⟩⟩
      exact (Frames.admits_iff_of_roles_eq hroles _).1 ((hresolves p hp).own b hown)

/-- Every name in what is laid out resolves when the root is covered. -/
theorem Library.Covers.resolves (h : lib.Covers root) {scope : Scope} {nextId : Nat}
    (hlaid : Scope.ofDefinition lib firstId (some root) = .ok (scope, nextId)) {p : Placed}
    (hp : p ∈ scope.placed) : p.Resolves := by
  -- The node that feeds a scope stands in the frames around the scope.
  have hfeeds : ∀ b ∈ p.frame.feeds, ∃ n, Stands lib root p.outer n ∧ b ∈ n.bindings ∧
      b ∈ readBindings n ∧ p.frame.Mounts lib n p.scope.view := by
    intro b hb
    rcases Placed.eq_or_exists_parent hp with rfl | ⟨q, hq, c, hc, rfl⟩
    · obtain ⟨d, m, content, -, -, -, rfl⟩ := Scope.exists_laid_of_ofDefinition hlaid
      cases hb
    · obtain ⟨s, hs, -, -, hmounts⟩ := Placed.exists_anchor hlaid hq hc
      have hfed : b ∈ feedsOf s.node := hmounts.feeds_eq ▸ hb
      obtain ⟨hmem, -⟩ := List.mem_filter.1 hfed
      refine ⟨s.node, Placed.stands_of_mem_saved hlaid hq hs, hmem, ?_, hmounts⟩
      exact List.mem_filter.2 ⟨hmem, by rw [hmounts.isScope, Bool.or_true]⟩
  refine ⟨?_, ?_, ?_⟩
  · intro b hb
    obtain ⟨s, hs, hb⟩ := List.mem_flatMap.1 hb
    obtain ⟨hmem, hself⟩ := List.mem_filter.1 hb
    refine Frames.admits_iff_declares.2 (h.names (Placed.stands_of_mem_saved hlaid hp hs) b ?_)
    exact List.mem_filter.2 ⟨hmem, by rw [hself, Bool.true_or]⟩
  · intro b hb
    obtain ⟨n, hn, -, hread, -⟩ := hfeeds b hb
    exact Frames.admits_iff_declares.2 (h.names hn b hread)
  · intro b hb hkind m hm
    obtain ⟨n, hn, hmem, -, hmounts⟩ := hfeeds b hb
    have hrole := Frame.metadata?_eq_some_iff.1 hm
    generalize p.frame = f, p.scope.view = view at hrole hmounts
    cases hmounts with
    | @directive _ _ _ _ _ directive => cases directive <;> cases hrole
    | component _ hfind hmeta =>
      cases hrole
      exact Metadata.member?_eq_property_iff.2 (h.targets hn hfind hmeta b hmem hkind)

/-- A tree is built exactly for the roots that are covered. -/
theorem Tree.exists_build_iff_covers :
    (∃ t, Tree.build lib firstId (some root) = .ok t) ↔ lib.Covers root := by
  constructor
  · rintro ⟨t, h⟩
    exact Library.covers_of_build h
  · intro h
    obtain ⟨scope, nextId, hlaid⟩ := h.exists_ofDefinition firstId
    exact ⟨⟨scope, nextId⟩, Tree.build_eq_ok_iff.2 ⟨hlaid, fun p hp => h.resolves hlaid hp⟩⟩

/-- What feeds a component of a built tree names one of its properties. -/
private theorem Tree.exists_property (h : Tree.build lib firstId (some root) = .ok t) {p : Placed}
    (hp : p ∈ t.scopes) {b : Binding} (hb : b ∈ p.frame.feeds)
    (hkind : b.kind = .input ∨ b.kind = .output) :
    ∃ m, p.frame.metadata? = some m ∧ b.name ∈ m.properties := by
  obtain ⟨hlaid, hresolves⟩ := Tree.build_eq_ok_iff.1 h
  obtain ⟨m, hm⟩ : ∃ m, p.frame.role = .component m := by
    rcases Placed.eq_or_exists_parent hp with rfl | ⟨q, hq, c, hc, rfl⟩
    · obtain ⟨d, m, content, -, -, -, hscope⟩ := Scope.exists_laid_of_ofDefinition hlaid
      rw [Placed.frame, hscope] at hb
      cases hb
    · obtain ⟨s, -, -, -, hmounts⟩ := Placed.exists_anchor hlaid hq hc
      change b ∈ c.frame.feeds at hb
      change ∃ m, c.frame.role = _
      generalize c.frame = f, c.view = view, s.node = n at hb hmounts
      cases hmounts with
      | component => exact ⟨_, rfl⟩
      | @directive _ _ _ _ _ directive =>
        -- The only binding of a directive is its condition or its source.
        obtain ⟨hmem, -⟩ := List.mem_filter.1 hb
        cases directive <;> cases List.mem_singleton.1 hmem <;> rcases hkind with hkind | hkind <;>
          cases hkind
  have hmeta := Frame.metadata?_eq_some_iff.2 hm
  exact ⟨m, hmeta, Metadata.member?_eq_property_iff.1 ((hresolves p hp).targets b hb hkind m hmeta)⟩

end Build

/-- In a built tree every name refers to its nearest declaration, which has the right kind, and what
feeds a component names its properties; and a tree is built exactly for the roots that are
covered. -/
theorem Tree.build_resolves_nearest (lib : Library) (firstId : Nat) (root : Definition) :
    (∀ t, Tree.build lib firstId (some root) = .ok t → ∀ p ∈ t.scopes, ∀ b ∈ p.bindings,
      (∀ name r, (p.readingFrames b).reference? name = some r ↔
        (p.readingFrames b).Nearest name r) ∧
      (p.readingFrames b).Declares b.value ∧
      (b.kind = .input ∨ b.kind = .output →
        ∃ m, p.frame.metadata? = some m ∧ b.name ∈ m.properties)) ∧
    ((∃ t, Tree.build lib firstId (some root) = .ok t) ↔ lib.Covers root) := by
  refine ⟨?_, Tree.exists_build_iff_covers⟩
  intro t h p hp b hb
  refine ⟨fun name r => Frames.reference?_eq_some_iff, ?_, ?_⟩
  · exact Frames.admits_iff_declares.1 (Tree.admits h hp hb).2
  · intro hkind
    rcases List.mem_append.1 hb with hown | hfed
    · obtain ⟨s, -, hown⟩ := List.mem_flatMap.1 hown
      obtain ⟨-, hself⟩ := List.mem_filter.1 hown
      rcases hkind with hkind | hkind <;> rw [hkind] at hself <;> cases hself
    · exact Tree.exists_property h hp hfed hkind

/-- The page with two inputs is covered, for it is built. -/
theorem HiddenInput.covers_page : HiddenInput.library.Covers HiddenInput.page :=
  (Tree.build_resolves_nearest HiddenInput.library 0 HiddenInput.page).2.1
    ⟨HiddenInput.tree, HiddenInput.build_page⟩

end ViewCompiler
