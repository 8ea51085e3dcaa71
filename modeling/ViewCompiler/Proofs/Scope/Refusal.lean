import ViewCompiler.Proofs.Scope.Coverage

/-!
# Why a build fails

Below a root that has metadata, a layout is refused for one of three reasons (`Library.Refuses`): a
tag that stands in the template of a component below the root is not known, a component used below
it has no metadata, or a component uses itself. In the last case the problem names the components
that were entered, from the root on, each one using the next, up to one that was entered before.
What is laid out fails only at a name, and the problem gives the place of the binding that holds it
(`Tree.refused_or_blamed_of_build`).

A problem denies a tag when it says that the tag is not that of a registered component. Building a
tree denies only tags that the library does not know and that occur in a template which the build
came to (`Tree.denied_of_build`). Names that fail to resolve give other reasons.
-/

namespace ViewCompiler

open ViewCompiler.Template

/-- The names start with `first`, follow the relation, and end with one that occurred before. -/
structure LeadsBack (uses : String → String → Prop) (first : String) (names : List String) :
    Prop where
  head : names.head? = some first
  chain : names.IsChain uses
  again : ∃ before last, names = before ++ [last] ∧ last ∈ before

/-- Of two components below the root, the first one uses the second one. -/
def Library.Leads (lib : Library) (root : Definition) (a b : String) : Prop :=
  ∃ d d', Relation.ReflTransGen lib.Uses root d ∧ lib.Uses d d' ∧ d.name = a ∧ d'.name = b

/-- The reasons for which a layout below the root is refused. -/
inductive Library.Refuses (lib : Library) (root : Definition) : Problem → Prop where
  | unknown {d : Definition} {span : Span} {tag here : String} {bindings : List Binding}
      (hd : Relation.ReflTransGen lib.Uses root d)
      (hnode : .component span tag bindings ∈ preorderForest d.template)
      (hfind : lib.find? tag = none) :
      Refuses lib root (.unresolved {
        component := d.name, name := tag, path := tag, reason := "is not a registered component"
        scope := here, span })
  | bare {d used : Definition} (hd : Relation.ReflTransGen lib.Uses root d)
      (huses : lib.Uses d used) (hmeta : used.metadata = none) :
      Refuses lib root (.ofCode {
        category := .validation, code := "missing_metadata", component := used.name
        message := s!"component {used.name} has no metadata" })
  | recursive {names : List String} (h : LeadsBack (lib.Leads root) root.name names) :
      Refuses lib root (.recursive names)

/-! ### Components that were entered -/

section Layout

variable {lib : Library} {root : Definition}

/-- The components that were entered lead from the one that is laid out now back to the root. -/
structure Library.Entered (lib : Library) (root d : Definition) (entered : List String) : Prop where
  below : Relation.ReflTransGen lib.Uses root d
  head : entered.head? = some d.name
  chain : entered.reverse.IsChain (lib.Leads root)
  last : entered.reverse.head? = some root.name

namespace Library.Entered

variable {d d' : Definition} {entered : List String}

theorem start : lib.Entered root root [root.name] where
  below := .refl
  head := rfl
  chain := .singleton _
  last := rfl

/-- A component that is used is entered next. -/
theorem push (h : lib.Entered root d entered) (huses : lib.Uses d d') :
    lib.Entered root d' (d'.name :: entered) where
  below := h.below.tail huses
  head := rfl
  chain := by
    rw [List.reverse_cons]
    refine h.chain.append (.singleton _) fun a ha b hb => ?_
    rw [List.getLast?_reverse, h.head] at ha
    obtain rfl := Option.some.inj ha
    obtain rfl := Option.some.inj hb
    exact ⟨d, d', h.below, huses, rfl, rfl⟩
  last := by
    rw [List.reverse_cons, List.head?_append, h.last]
    rfl

/-- A component that is used and was entered before leads back. -/
private theorem leadsBack (h : lib.Entered root d entered) (huses : lib.Uses d d')
    (hmem : d'.name ∈ entered) :
    LeadsBack (lib.Leads root) root.name (entered.reverse ++ [d'.name]) := by
  have hpush := h.push huses
  rw [← List.reverse_cons]
  refine ⟨hpush.last, hpush.chain, entered.reverse, d'.name, List.reverse_cons, ?_⟩
  exact List.mem_reverse.2 hmem

end Library.Entered

/-! ### Refusals -/

private theorem preorderForest_cons_subset {n : Node} {nodes ms : List Node} :
    preorderForest (n :: nodes) ⊆ ms ↔
      n ∈ ms ∧ preorderForest n.children ⊆ ms ∧ preorderForest nodes ⊆ ms := by
  rw [preorderForest, Node.preorder_eq, List.cons_append, List.cons_subset, List.append_subset]

/-- A forest of a component that was entered is laid out or refused. -/
private theorem Library.refuses_of_expand {entered : List String} {owner here : String}
    {index id : Nat}
    {nodes : List Node} {d : Definition} {p : Problem} (hentered : lib.Entered root d entered)
    (howner : owner = d.name) (hnodes : preorderForest nodes ⊆ preorderForest d.template)
    (h : expand lib entered owner here index id nodes = .error p) : lib.Refuses root p := by
  -- What is refused is the node that stands here, something below it, or something behind it.
  fun_induction expand lib entered owner here index id nodes generalizing d with
  | case1 => cases h
  | case2 entered owner here index id span name bindings inner rest node ihInner =>
    rename_i ihRest
    obtain ⟨-, hinner, hrest⟩ := preorderForest_cons_subset.1 hnodes
    rcases bind_eq_error_iff.1 h with h | ⟨content, -, h⟩
    · exact ihInner hentered howner hinner h
    · rcases bind_eq_error_iff.1 h with h | ⟨after, -, h⟩
      · exact ihRest content hentered howner hrest h
      · cases h
  | case3 entered owner here index id span spec specSpan directive inner rest node suffix role hrole
      frame ihInner =>
    rename_i ihRest
    obtain ⟨-, hinner, hrest⟩ := preorderForest_cons_subset.1 hnodes
    rcases bind_eq_error_iff.1 h with h | ⟨content, -, h⟩
    · exact ihInner hentered howner hinner h
    · rcases bind_eq_error_iff.1 h with h | ⟨after, -, h⟩
      · exact ihRest content hentered howner hrest h
      · cases h
  | case4 entered owner here index id span name bindings rest hfind =>
    obtain rfl := Except.error.inj h
    rw [howner]
    exact .unknown hentered.below (preorderForest_cons_subset.1 hnodes).1 hfind
  | case5 entered owner here index id span name bindings rest d' hfind hmeta =>
    obtain rfl := Except.error.inj h
    have hnode := (preorderForest_cons_subset.1 hnodes).1
    exact .bare hentered.below ⟨name, ⟨span, bindings, hnode⟩, hfind⟩ hmeta
  | case6 entered owner here index id span name bindings rest d' hfind m hmeta hmem =>
    obtain rfl := Except.error.inj h
    have hnode := (preorderForest_cons_subset.1 hnodes).1
    exact .recursive (hentered.leadsBack ⟨name, ⟨span, bindings, hnode⟩, hfind⟩ hmem)
  | case7 entered owner here index id span name bindings rest node d' hfind m hmeta hnew _ frame
      view ihInner =>
    rename_i ihRest
    have hview : view = d'.template := copyForest_eq d'.template
    rw [hview] at ihInner h
    obtain ⟨hnode, -, hrest⟩ := preorderForest_cons_subset.1 hnodes
    rcases bind_eq_error_iff.1 h with h | ⟨content, -, h⟩
    · have huses : lib.Uses d d' := ⟨name, ⟨span, bindings, hnode⟩, hfind⟩
      exact ihInner (hentered.push huses) rfl (List.Subset.refl _) h
    · rcases bind_eq_error_iff.1 h with h | ⟨after, -, h⟩
      · exact ihRest content hentered howner hrest h
      · cases h
  | case8 entered owner here index id node rest hElement hDirective hComponent ihRest =>
    obtain ⟨-, -, hrest⟩ := preorderForest_cons_subset.1 hnodes
    rcases bind_eq_error_iff.1 h with h | ⟨after, -, h⟩
    · exact ihRest hentered howner hrest h
    · cases h

/-- A root with metadata is laid out or refused. -/
private theorem Scope.refuses_of_ofDefinition {firstId : Nat} {m : Metadata} {p : Problem}
    (hmeta : root.metadata = some m) (h : Scope.ofDefinition lib firstId (some root) = .error p) :
    lib.Refuses root p := by
  simp only [Scope.ofDefinition, Option.bind_some, hmeta, Option.map_some, copyForest_eq] at h
  rcases bind_eq_error_iff.1 h with hexpand | ⟨content, -, h⟩
  · exact Library.refuses_of_expand .start rfl (List.Subset.refl _) hexpand
  · cases h

end Layout

/-! ### Names -/

/-- The problem is an unresolved reference at a binding that is read in the given frames, for
another reason than that of a tag that is not known. -/
def Problem.Blames (p : Problem) (b : Binding) (fs : Frames) : Prop :=
  ∃ reference, p = .unresolved reference ∧ reference.component = fs.ownerName ∧
    reference.span = b.span ∧ reference.reason ≠ "is not a registered component"

/-- A mention that is refused is blamed itself. -/
theorem Mention.blames_of_check {m : Mention} {accept : RefKind → Option String} {p : Problem}
    (haccept : ∀ kind reason, accept kind = some reason → reason ≠ "is not a registered component")
    (h : m.check accept = .error p) : p.Blames m.binding m.frames := by
  have hempty : "" ≠ "is not a registered component" := by decide
  unfold Mention.check at h
  split at h
  · obtain rfl := Except.error.inj h
    exact ⟨_, rfl, rfl, rfl, hempty⟩
  · split at h
    · rename_i reason hreason
      obtain rfl := Except.error.inj h
      exact ⟨_, rfl, rfl, rfl, haccept _ _ hreason⟩
    · cases h

private theorem Mention.blames_of_checkAccess {m : Mention} {p : Problem}
    (h : m.checkAccess = .error p) :
    p.Blames m.binding m.frames := by
  refine Mention.blames_of_check (fun kind reason hreason => ?_) h
  split at hreason
  · obtain rfl := Option.some.inj hreason
    decide
  · cases hreason

private theorem Mention.blames_of_checkCall {m : Mention} {p : Problem}
    (h : m.checkCall = .error p) :
    p.Blames m.binding m.frames := by
  refine Mention.blames_of_check (fun kind reason hreason => ?_) h
  split at hreason
  · cases hreason
  · obtain rfl := Option.some.inj hreason
    cases kind <;> decide

/-- A value that is refused is blamed at its binding. -/
theorem blames_of_checkValue {b : Binding} {fs : Frames} {p : Problem}
    (h : checkValue b fs = .error p) : p.Blames b fs := by
  unfold checkValue at h
  split at h
  · cases h
  · cases h
  · exact Mention.blames_of_checkAccess h
  · rcases bind_eq_error_iff.1 h with hcall | ⟨-, -, harguments⟩
    · exact Mention.blames_of_checkCall hcall
    · obtain ⟨a, -, ha⟩ := exists_error_of_forM_eq_error harguments
      cases a with
      | access path => exact Mention.blames_of_checkAccess ha
      | literal => cases ha
      | payload => cases ha

/-- A target that is refused is blamed at its binding, outside of what it feeds. -/
private theorem blames_of_checkTarget {q : Placed} {b : Binding} {p : Problem}
    (h : checkTarget q b = .error p) : p.Blames b q.outer := by
  have hreason : s!"is not a property of {q.frame.name}" ≠ "is not a registered component" := by
    intro heq
    have hlist := congrArg String.toList heq
    simp [toString] at hlist
  unfold checkTarget at h
  split at h
  case h_3 => cases h
  -- Inputs and outputs are checked alike.
  all_goals
    split at h
    · cases h
    · obtain rfl := Except.error.inj h
      exact ⟨_, rfl, rfl, rfl, hreason⟩

/-- A check of a scope fails at one of the bindings that it reads, in the frames in which it reads
it. -/
theorem Placed.blames_of_check {q : Placed} {p : Problem} (h : q.check = .error p) :
    (∃ b ∈ q.ownBindings, p.Blames b q.frames) ∨ ∃ b ∈ q.frame.feeds, p.Blames b q.outer := by
  rcases bind_eq_error_iff.1 h with hown | ⟨-, -, hfed⟩
  · obtain ⟨b, hmem, hb⟩ := exists_error_of_forM_eq_error hown
    exact .inl ⟨b, hmem, blames_of_checkValue hb⟩
  · obtain ⟨b, hmem, hb⟩ := exists_error_of_forM_eq_error hfed
    rcases bind_eq_error_iff.1 hb with htarget | ⟨-, -, hvalue⟩
    · exact .inr ⟨b, hmem, blames_of_checkTarget htarget⟩
    · exact .inr ⟨b, hmem, blames_of_checkValue hvalue⟩

/-- Nothing is built below a root without metadata. -/
theorem Tree.eq_of_build_of_metadata_eq_none {lib : Library} {firstId : Nat}
    {root : Option Definition} {p : Problem} (h : build lib firstId root = .error p)
    (hmeta : root.bind Definition.metadata = none) :
    p = .ofCode {
      category := .validation, code := "missing_metadata"
      message := "root definition requires metadata" } := by
  have hnone : (root.bind fun d => d.metadata.map (d, ·)) = none := by
    cases root with
    | none => rfl
    | some d => exact Option.map_eq_none_iff.2 hmeta
  simp only [build, Scope.ofDefinition, hnone] at h
  exact (Except.error.inj h).symm

/-- A build below a root with metadata fails because the layout is refused, or because a name in
what was laid out does not resolve. -/
theorem Tree.refused_or_blamed_of_build {lib : Library} {firstId : Nat} {root : Definition}
    {m : Metadata} {p : Problem} (hmeta : root.metadata = some m)
    (h : build lib firstId (some root) = .error p) :
    lib.Refuses root p ∨
      ∃ scope nextId, Scope.ofDefinition lib firstId (some root) = .ok (scope, nextId) ∧
        ∃ q ∈ scope.placed,
          (∃ b ∈ q.ownBindings, p.Blames b q.frames) ∨ ∃ b ∈ q.frame.feeds, p.Blames b q.outer := by
  rcases bind_eq_error_iff.1 h with hlayout | ⟨⟨scope, nextId⟩, hlaid, h⟩
  · exact .inl (Scope.refuses_of_ofDefinition hmeta hlayout)
  · rcases bind_eq_error_iff.1 h with hcheck | ⟨-, -, h⟩
    · obtain ⟨q, hq, hcheck⟩ := exists_error_of_forM_eq_error hcheck
      exact .inr ⟨scope, nextId, hlaid, q, hq, Placed.blames_of_check hcheck⟩
    · cases h

/-! ### Tags that are denied -/

/-- The problem says that the tag is not that of a registered component. -/
def Problem.Denies (p : Problem) (tag : String) : Prop :=
  ∃ reference, p.unresolved? = some reference ∧ reference.name = tag ∧
    reference.reason = "is not a registered component"

namespace Problem

/-- What is not about a name denies no tag. -/
theorem not_denies_of_unresolved? {p : Problem} (h : p.unresolved? = none) (tag : String) :
    ¬p.Denies tag := by
  rintro ⟨reference, href, -⟩
  rw [h] at href
  cases href

/-- A tag is denied by the reference to it as a component. -/
theorem denies_unresolved_iff {reference : UnresolvedReference} {tag : String} :
    (unresolved reference).Denies tag ↔
      reference.name = tag ∧ reference.reason = "is not a registered component" := by
  constructor
  · rintro ⟨found, hfound, hname, hreason⟩
    obtain rfl : reference = found := Option.some.inj hfound
    exact ⟨hname, hreason⟩
  · rintro ⟨hname, hreason⟩
    exact ⟨reference, rfl, hname, hreason⟩

private theorem unresolved?_ofCode (detail : CodedProblem) :
    (ofCode detail).unresolved? = none := by
  rw [ofCode, ite_self]
  rfl

private theorem unresolved?_recursive (names : List String) :
    (recursive names).unresolved? = none := by
  cases names with
  | nil => rfl
  | cons name names => exact unresolved?_ofCode _

end Problem

/-- A name that fails to resolve denies nothing. -/
theorem Problem.Blames.not_denies {p : Problem} {b : Binding} {fs : Frames} (h : p.Blames b fs)
    (tag : String) : ¬p.Denies tag := by
  obtain ⟨reference, rfl, -, -, hreason⟩ := h
  rw [Problem.denies_unresolved_iff]
  exact fun hdenies => hreason hdenies.2

/-- Building a tree denies only unknown tags, from the templates that the root leads to. -/
theorem Tree.denied_of_build {lib : Library} {P : String → Prop}
    (hlib : ∀ tag d, P tag → lib.find? tag = some d → ∀ inner, Mentions d.template inner → P inner)
    {firstId : Nat} {d : Definition} {p : Problem} {tag : String}
    (hroot : ∀ inner, Mentions d.template inner → P inner)
    (h : Tree.build lib firstId (some d) = .error p) (hp : p.Denies tag) :
    P tag ∧ lib.find? tag = none := by
  have hcoded : ∀ detail, p = .ofCode detail → P tag ∧ lib.find? tag = none := by
    rintro detail rfl
    exact absurd hp (Problem.not_denies_of_unresolved? (Problem.unresolved?_ofCode _) tag)
  cases hmeta : d.metadata with
  | none => exact hcoded _ (Tree.eq_of_build_of_metadata_eq_none h hmeta)
  | some m =>
    -- The tags that `P` holds of are closed under usage, so the root leads to no others.
    have hbelow : ∀ d', Relation.ReflTransGen lib.Uses d d' →
        ∀ inner, Mentions d'.template inner → P inner := by
      intro d' hd'
      induction hd' with
      | refl => exact hroot
      | tail _ huses ih =>
        obtain ⟨used, hused, hfind⟩ := huses
        exact hlib used _ (ih used hused) hfind
    rcases Tree.refused_or_blamed_of_build hmeta h with hrefused | ⟨-, -, -, q, -, hblamed⟩
    · cases hrefused with
      | unknown hd hnode hfind =>
        obtain ⟨rfl, -⟩ := Problem.denies_unresolved_iff.1 hp
        exact ⟨hbelow _ hd _ ⟨_, _, hnode⟩, hfind⟩
      | bare => exact hcoded _ rfl
      | recursive =>
        exact absurd hp (Problem.not_denies_of_unresolved? (Problem.unresolved?_recursive _) tag)
    · rcases hblamed with ⟨b, -, hblames⟩ | ⟨b, -, hblames⟩
      · exact absurd hp (hblames.not_denies tag)
      · exact absurd hp (hblames.not_denies tag)

end ViewCompiler
