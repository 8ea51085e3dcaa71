import ViewCompiler.Proofs.Outcome
import ViewCompiler.Proofs.Template.Forest
import ViewCompiler.Scope.Tree

/-!
# What expansion lays out

`Laid lib entered owner index id nodes e` states, one rule per shape of the first node, what saving
the forest `nodes` adds to its scope: the saved nodes, the scopes mounted in them, and the next free
index and number. Every successful run of `expand` is such a layout (`laid_of_expand`), so facts
about built trees are proved by induction on the rules and never open the recursion of `expand`.
-/

namespace ViewCompiler

open ViewCompiler.Template

/-- The suffix of the name and the role of the scope that a directive mounts. -/
def directiveScope : Directive → String × Role
  | .conditional .. => ("If", .conditional)
  | .repeating loop => ("For", .repeating loop)

/-- The frame of the scope that a directive mounts. -/
def directiveFrame (owner : String) (id : Nat) (node : Node) (directive : Directive) : Frame :=
  ⟨id, owner ++ (directiveScope directive).1, (directiveScope directive).2, feedsOf node⟩

/-- What saving a forest adds to its scope. -/
inductive Laid (lib : Library) :
    List String → String → Nat → Nat → List Node → Expansion → Prop where
  | nil {entered owner index id} :
      Laid lib entered owner index id [] { nextIndex := index, nextId := id }
  | leaf {entered owner index id node rest after} (hn : node.kind.isStructural = false)
      (hrest : Laid lib entered owner (index + node.slots) id rest after) :
      Laid lib entered owner index id (node :: rest)
        { after with saved := ⟨index, node, none⟩ :: after.saved }
  | element {entered owner index id span name bindings inner rest content after}
      (hinner : Laid lib entered owner
        (index + (Node.element span name bindings inner).slots) id inner content)
      (hrest : Laid lib entered owner content.nextIndex content.nextId rest after) :
      Laid lib entered owner index id (.element span name bindings inner :: rest)
        { saved := ⟨index, .element span name bindings inner, none⟩ ::
            (content.saved ++ after.saved)
          children := content.children ++ after.children
          nextIndex := after.nextIndex
          nextId := after.nextId }
  | directive {entered owner index id span spec specSpan directive inner rest content after frame}
      (hframe : frame =
        directiveFrame owner id (.directive span spec specSpan directive inner) directive)
      (hinner : Laid lib entered owner 0 (id + 1) inner content)
      (hrest : Laid lib entered owner
        (index + (Node.directive span spec specSpan directive inner).slots) content.nextId rest
        after) :
      Laid lib entered owner index id (.directive span spec specSpan directive inner :: rest)
        { saved := ⟨index, .directive span spec specSpan directive inner, some id⟩ :: after.saved
          children :=
            .mk frame (some (.directive span spec specSpan directive inner)) inner content.saved
              content.nextIndex content.children :: after.children
          nextIndex := after.nextIndex
          nextId := after.nextId }
  | component {entered owner index id span name bindings rest content after frame d m}
      (hfind : lib.find? name = some d) (hmeta : d.metadata = some m) (hnew : d.name ∉ entered)
      (hframe : frame =
        ⟨id, d.name, .component m, feedsOf (.component span name bindings)⟩)
      (hinner : Laid lib (d.name :: entered) d.name 0 (id + 1) d.template content)
      (hrest : Laid lib entered owner (index + (Node.component span name bindings).slots)
        content.nextId rest after) :
      Laid lib entered owner index id (.component span name bindings :: rest)
        { saved := ⟨index, .component span name bindings, some id⟩ :: after.saved
          children :=
            .mk frame (some (.component span name bindings)) d.template content.saved
              content.nextIndex content.children :: after.children
          nextIndex := after.nextIndex
          nextId := after.nextId }

/-- A successful expansion is a layout. -/
theorem laid_of_expand {lib : Library} {entered : List String} {owner here : String}
    {index id : Nat} {nodes : List Node} {e : Expansion}
    (h : expand lib entered owner here index id nodes = .ok e) :
    Laid lib entered owner index id nodes e := by
  fun_induction expand lib entered owner here index id nodes generalizing e with
  | case1 =>
    obtain rfl : _ = e := Except.ok.inj h
    exact .nil
  | case2 entered owner here index id span name bindings inner rest node ihInner =>
    rename_i ihRest
    obtain ⟨content, hinner, h⟩ := bind_eq_ok_iff.1 h
    obtain ⟨after, hrest, h⟩ := bind_eq_ok_iff.1 h
    obtain rfl : _ = e := Except.ok.inj h
    exact .element (ihInner hinner) (ihRest content hrest)
  | case3 entered owner here index id span spec specSpan directive inner rest node suffix role hrole
      frame ihInner =>
    rename_i ihRest
    obtain ⟨content, hinner, h⟩ := bind_eq_ok_iff.1 h
    obtain ⟨after, hrest, h⟩ := bind_eq_ok_iff.1 h
    obtain rfl : _ = e := Except.ok.inj h
    refine .directive ?_ (ihInner hinner) (ihRest content hrest)
    cases directive <;> cases hrole <;> rfl
  | case4 => cases h
  | case5 => cases h
  | case6 => cases h
  | case7 entered owner here index id span name bindings rest node d hfind m hmeta hnew _ frame
      view ihInner =>
    rename_i ihRest
    obtain ⟨content, hinner, h⟩ := bind_eq_ok_iff.1 h
    obtain ⟨after, hrest, h⟩ := bind_eq_ok_iff.1 h
    obtain rfl : _ = e := Except.ok.inj h
    have hview : view = d.template := copyForest_eq d.template
    rw [hview] at ihInner hinner ⊢
    exact .component hfind hmeta hnew rfl (ihInner hinner) (ihRest content hrest)
  | case8 entered owner here index id node rest hElement hDirective hComponent ihRest =>
    obtain ⟨after, hrest, h⟩ := bind_eq_ok_iff.1 h
    obtain rfl : _ = e := Except.ok.inj h
    refine .leaf ?_ (ihRest hrest)
    cases node with
    | text => rfl
    | interpolation => rfl
    | element => exact (hElement _ _ _ _ rfl).elim
    | component => exact (hComponent _ _ _ rfl).elim
    | directive => exact (hDirective _ _ _ _ _ rfl).elim

/-- A root that is laid out has metadata, and its template is laid out below it, up to the next free
number. -/
theorem Scope.exists_content_of_ofDefinition {lib : Library} {firstId nextId : Nat}
    {root : Option Definition} {scope : Scope}
    (h : Scope.ofDefinition lib firstId root = .ok (scope, nextId)) :
    ∃ d m content, root = some d ∧ d.metadata = some m ∧
      Laid lib [d.name] d.name 0 (firstId + 1) d.template content ∧ content.nextId = nextId ∧
      scope = .mk ⟨firstId, d.name, .component m, []⟩ none d.template content.saved
        content.nextIndex content.children := by
  unfold Scope.ofDefinition at h
  split at h
  · cases h
  · rename_i d m hroot
    obtain ⟨d', hd', hm⟩ := Option.bind_eq_some_iff.1 hroot
    obtain ⟨m', hm', heq⟩ := Option.map_eq_some_iff.1 hm
    obtain ⟨rfl, rfl⟩ := Prod.mk.inj heq
    rw [copyForest_eq] at h
    obtain ⟨content, hexpand, h⟩ := bind_eq_ok_iff.1 h
    obtain ⟨hscope, hnext⟩ := Prod.mk.inj (Except.ok.inj h)
    exact ⟨d', m', content, hd', hm', laid_of_expand hexpand, hnext, hscope.symm⟩

theorem Scope.exists_laid_of_ofDefinition {lib : Library} {firstId nextId : Nat}
    {root : Option Definition} {scope : Scope}
    (h : Scope.ofDefinition lib firstId root = .ok (scope, nextId)) :
    ∃ d m content, root = some d ∧ d.metadata = some m ∧
      Laid lib [d.name] d.name 0 (firstId + 1) d.template content ∧
      scope = .mk ⟨firstId, d.name, .component m, []⟩ none d.template content.saved
        content.nextIndex content.children := by
  obtain ⟨d, m, content, hd, hmeta, hlaid, -, hscope⟩ := Scope.exists_content_of_ofDefinition h
  exact ⟨d, m, content, hd, hmeta, hlaid, hscope⟩

end ViewCompiler
