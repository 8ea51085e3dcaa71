import ViewCompiler.Proofs.Registry

/-!
# Registries by their history

Three operations change which components are registered. Each drops some components and may add one
(`Operation.Drops`, `Operation.added?`), and nothing else happens to the components
(`Registry.mem_components_apply`). A tag is then given to the component that is added, the tags of
those that are dropped are freed, and all others stand for what they stood for
(`Registry.lookup_tags_apply_iff`). Facts about registries follow from these two lemmas by going
through the history.

Components are kept in order of their names. Registering one takes out what has its name, and
removing by name or by path takes out what it says. The index of tags is changed along with that,
but for each component on its own: freeing the tag of a component that goes does not ask whether
another one has the same tag. So the index can lack a tag that a registered component has, and this
is why the two lemmas are separate. What the index says is always true of some registered component;
what is true is not always in the index.

A registry that has come about is `Registry.ofHistory` of some operations, and what is said of all
registries is said of these.
-/

namespace ViewCompiler

open ViewCompiler.Text

theorem Component.name_withTag (c : Component) : c.withTag.name = c.name := by
  unfold withTag
  split
  · rfl
  · rfl

theorem Component.file_withTag (c : Component) : c.withTag.file = c.file := by
  unfold withTag
  split
  · rfl
  · rfl

namespace Registry

/-! ### Operations -/

/-- A change of what is registered. -/
inductive Operation where
  | register (c : Component)
  | remove (name : String)
  | removeAt (path : String)

namespace Operation

/-- Carries an operation out. -/
def apply (r : Registry) : Operation → Registry
  | register c => r.register c
  | remove name => r.remove name
  | removeAt path => (r.removeAt path).2

/-- The component that an operation adds. -/
def added? : Operation → Option Component
  | register c => some c.withTag
  | remove _ | removeAt _ => none

/-- A component that was registered before has to go. -/
def Drops : Operation → Component → Prop
  | register c, d => d.name = c.name
  | remove name, d => d.name = name
  | removeAt path, d => d.livesAt path = true

/-- The tag is given to the component that is added. -/
def Gives (op : Operation) (tag : String) : Prop := ∃ c, op.added? = some c ∧ c.tag = tag

/-- The tag is freed on behalf of a component that has to go. -/
def Frees (op : Operation) (r : Registry) (tag : String) : Prop :=
  ∃ d ∈ r.components, op.Drops d ∧ d.tag = tag

end Operation

/-- The registry after some operations, the earliest first. -/
def ofHistory (ops : List Operation) : Registry := ops.foldl Operation.apply {}

/-- The last operation is applied to what the ones before it lead to. -/
theorem ofHistory_concat (ops : List Operation) (op : Operation) :
    ofHistory (ops ++ [op]) = op.apply (ofHistory ops) := by
  rw [ofHistory, List.foldl_append]
  rfl

/-- Components stay sorted through an operation. -/
theorem Sorted.apply {r : Registry} (h : r.Sorted) (op : Operation) : (op.apply r).Sorted := by
  cases op with
  | register c => exact h.register c
  | remove name => exact h.remove name
  | removeAt path => exact h.removeAt path

theorem sorted_ofHistory (ops : List Operation) : (ofHistory ops).Sorted := by
  induction ops using List.reverseRecOn with
  | nil => exact List.Pairwise.nil
  | append_singleton ops op ih =>
    rw [ofHistory_concat]
    exact ih.apply op

variable {r : Registry}

/-! ### Components -/

/-- A component takes the place of the one with its name. -/
theorem mem_place {c d : Component} {cs : List Component}
    (h : (cs.map Component.name).Pairwise (· < ·)) :
    d ∈ place c cs ↔ d = c ∨ d ∈ cs ∧ d.name ≠ c.name := by
  rw [place_eq_placeBy]
  exact mem_placeBy (List.pairwise_map.1 h)

theorem mem_components_remove {name : String} {d : Component} :
    d ∈ (r.remove name).components ↔ d ∈ r.components ∧ d.name ≠ name := by
  unfold remove
  split
  · rename_i hget
    have hnone := List.find?_eq_none.1 hget
    simp only [decide_eq_true_eq] at hnone
    exact ⟨fun hd => ⟨hd, hnone d hd⟩, And.left⟩
  · change d ∈ r.components.filter (·.name ≠ name) ↔ _
    rw [List.mem_filter, decide_eq_true_eq]

theorem mem_components_foldl_remove {names : List String} {d : Component} :
    d ∈ (names.foldl remove r).components ↔ d ∈ r.components ∧ d.name ∉ names := by
  induction names generalizing r with
  | nil => simp
  | cons n ns ih =>
    rw [List.foldl_cons, ih, mem_components_remove, List.mem_cons, not_or, and_assoc]

/-- A component is named at a path exactly if it lives there. -/
theorem mem_namesAt {path : String} {d : Component} (h : r.Sorted) (hd : d ∈ r.components) :
    d.name ∈ r.namesAt path ↔ d.livesAt path = true := by
  unfold namesAt
  rw [List.mem_map]
  constructor
  · rintro ⟨e, he, hname⟩
    obtain ⟨he, hlives⟩ := List.mem_filter.1 he
    have hget := get?_name h he
    rw [hname, get?_name h hd] at hget
    obtain rfl := Option.some.inj hget
    exact hlives
  · intro hlives
    exact ⟨d, List.mem_filter.2 ⟨hd, hlives⟩, rfl⟩

/-- An operation drops what it drops, adds what it adds, and changes nothing else. -/
theorem mem_components_apply (h : r.Sorted) (op : Operation) {d : Component} :
    d ∈ (op.apply r).components ↔ op.added? = some d ∨ d ∈ r.components ∧ ¬op.Drops d := by
  cases op with
  | register c =>
    change d ∈ (r.register c).components ↔ some c.withTag = some d ∨ _ ∧ ¬d.name = c.name
    rw [components_register, mem_place h, Component.name_withTag, Option.some.injEq, eq_comm]
  | remove name =>
    change d ∈ (r.remove name).components ↔ none = some d ∨ _ ∧ ¬d.name = name
    rw [mem_components_remove]
    simp
  | removeAt path =>
    change d ∈ ((r.namesAt path).foldl remove r).components ↔
      none = some d ∨ _ ∧ ¬d.livesAt path = true
    rw [mem_components_foldl_remove]
    simp only [reduceCtorEq, false_or]
    exact and_congr_right fun hd => not_congr (mem_namesAt h hd)

/-! ### Tags -/

private theorem lookup_filter_ne_iff {tags : List (String × String)} {t u n : String} :
    (tags.filter (·.1 ≠ u)).lookup t = some n ↔ u ≠ t ∧ tags.lookup t = some n := by
  induction tags with
  | nil => simp
  | cons e es ih =>
    obtain ⟨k, v⟩ := e
    by_cases hk : k = u
    · rw [List.filter_cons_of_neg (by simpa using hk), ih, List.lookup_cons]
      refine and_congr_right fun hu => ?_
      rw [beq_false_of_ne (hk ▸ Ne.symm hu)]
    · rw [List.filter_cons_of_pos (by simpa using hk), List.lookup_cons, List.lookup_cons]
      by_cases ht : t = k
      · simp [ht, Ne.symm hk]
      · simp only [beq_false_of_ne ht]
        exact ih

/-- A component is the one found under its name. -/
theorem get?_eq_some_iff (h : r.Sorted) {name : String} {c : Component} :
    r.get? name = some c ↔ c ∈ r.components ∧ c.name = name := by
  constructor
  · exact mem_of_get?
  · rintro ⟨hc, rfl⟩
    exact get?_name h hc

/-- After a registration a tag leads to the new component, or to where it led before, unless it was
freed. -/
theorem lookup_tags_register_iff {c : Component} {t n : String} :
    (r.register c).tags.lookup t = some n ↔
      c.withTag.tag = t ∧ c.name = n ∨ c.withTag.tag ≠ t ∧
        (∀ o, r.get? c.name = some o → o.tag ≠ t) ∧ r.tags.lookup t = some n := by
  have htags : (r.register c).tags = (c.withTag.tag, c.withTag.name) ::
      ((r.get? c.withTag.name).elim r fun o => r.releaseTag o.tag).tags.filter
        (·.1 ≠ c.withTag.tag) := rfl
  rw [htags, List.lookup_cons, Component.name_withTag]
  by_cases ht : c.withTag.tag = t
  · simp [ht]
  · rw [beq_false_of_ne (Ne.symm ht)]
    simp only [ht, false_and, false_or, ne_eq, not_false_eq_true, true_and]
    rw [lookup_filter_ne_iff, and_iff_right ht]
    cases r.get? c.name with
    | none => simp
    | some o =>
      rw [Option.elim_some, releaseTag, lookup_filter_ne_iff]
      simp

/-- After a removal a tag leads where it did, unless it was the tag of what is removed. -/
theorem lookup_tags_remove_iff {name t n : String} :
    (r.remove name).tags.lookup t = some n ↔
      (∀ o, r.get? name = some o → o.tag ≠ t) ∧ r.tags.lookup t = some n := by
  unfold remove
  cases r.get? name with
  | none => simp
  | some o =>
    change (r.tags.filter (·.1 ≠ o.tag)).lookup t = some n ↔ _
    rw [lookup_filter_ne_iff]
    simp

/-- After several removals a tag leads where it did, unless it was the tag of something removed. -/
theorem lookup_tags_foldl_remove_iff (h : r.Sorted) {names : List String} {t n : String} :
    (names.foldl remove r).tags.lookup t = some n ↔
      (∀ o ∈ r.components, o.name ∈ names → o.tag ≠ t) ∧ r.tags.lookup t = some n := by
  induction names generalizing r with
  | nil => simp
  | cons m ms ih =>
    rw [List.foldl_cons, ih (h.remove m), lookup_tags_remove_iff, ← and_assoc]
    refine and_congr_left fun _ => ?_
    simp only [mem_components_remove, get?_eq_some_iff h, List.mem_cons]
    constructor
    · rintro ⟨hlater, hfirst⟩ o ho hmem
      by_cases heq : o.name = m
      · exact hfirst o ⟨ho, heq⟩
      · exact hlater o ⟨ho, heq⟩ (hmem.resolve_left heq)
    · intro hall
      exact ⟨fun o ho hmem => hall o ho.1 (.inr hmem), fun o ho => hall o ho.1 (.inl ho.2)⟩

/-- What a tag stands for after an operation: the component that is added if the tag is given to it,
and otherwise what it stood for before, unless the tag is freed. -/
theorem lookup_tags_apply_iff (h : r.Sorted) (op : Operation) {t n : String} :
    (op.apply r).tags.lookup t = some n ↔
      (∃ c, op.added? = some c ∧ c.tag = t ∧ c.name = n) ∨
        ¬op.Gives t ∧ ¬op.Frees r t ∧ r.tags.lookup t = some n := by
  have hfrees : ¬op.Frees r t ↔ ∀ o ∈ r.components, op.Drops o → o.tag ≠ t := by
    simp [Operation.Frees]
  rw [hfrees]
  cases op with
  | register c =>
    change (r.register c).tags.lookup t = some n ↔ _
    rw [lookup_tags_register_iff]
    simp only [get?_eq_some_iff h, Operation.Gives, Operation.added?, Operation.Drops,
      Option.some.injEq, exists_eq_left', Component.name_withTag, and_imp]
  | remove name =>
    change (r.remove name).tags.lookup t = some n ↔ _
    rw [lookup_tags_remove_iff]
    simp [get?_eq_some_iff h, Operation.Gives, Operation.added?, Operation.Drops]
  | removeAt path =>
    change ((r.namesAt path).foldl remove r).tags.lookup t = some n ↔ _
    rw [lookup_tags_foldl_remove_iff h]
    have hlives : ∀ o ∈ r.components, o.name ∈ r.namesAt path ↔ o.livesAt path = true :=
      fun o ho => mem_namesAt h ho
    simp +contextual [hlives, Operation.Gives, Operation.added?, Operation.Drops]

end Registry

end ViewCompiler
