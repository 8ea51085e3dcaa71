import ViewCompiler.Proofs.Registry.History

/-!
# What the tag index finds

Whatever a registry finds under a name or tag is registered and has that name or, where no component
has it as a name, that tag (`Registry.of_lookup?_eq_some`). The index holds one name for each tag,
though several components may share a tag, and the tag is freed with any of them. It then refers to
nothing, although another component still has it, until a component with that tag is registered
again. This is the only way in which a component is missed (`Registry.lookup?_complete_iff`).
-/

namespace ViewCompiler.Registry

variable {r : Registry} {ops : List Operation} {t : String}

/-! ### Soundness -/

/-- What the index holds for a tag is the name of a registered component with that tag. -/
def IndexSound (r : Registry) : Prop :=
  ∀ t n, r.tags.lookup t = some n → ∃ c ∈ r.components, c.name = n ∧ c.tag = t

/-- No operation leaves a stale entry in the index. -/
theorem IndexSound.apply (h : r.IndexSound) (hsorted : r.Sorted) (op : Operation) :
    (op.apply r).IndexSound := by
  intro t n hlookup
  rcases (lookup_tags_apply_iff hsorted op).1 hlookup with
    ⟨c, hadded, htag, hname⟩ | ⟨-, hfrees, hbefore⟩
  · exact ⟨c, (mem_components_apply hsorted op).2 (.inl hadded), hname, htag⟩
  · obtain ⟨c, hc, hname, htag⟩ := h t n hbefore
    -- A component that is dropped takes its tag along.
    have hkept : ¬op.Drops c := fun hdrops => hfrees ⟨c, hc, hdrops, htag⟩
    exact ⟨c, (mem_components_apply hsorted op).2 (.inr ⟨hc, hkept⟩), hname, htag⟩

theorem indexSound_ofHistory (ops : List Operation) : (ofHistory ops).IndexSound := by
  induction ops using List.reverseRecOn with
  | nil => exact fun t n hlookup => by cases hlookup
  | append_singleton ops op ih =>
    rw [ofHistory_concat]
    exact ih.apply (sorted_ofHistory ops) op

/-- Where the index answers, the component it names is there. -/
theorem exists_get?_of_lookup_tags {n : String} (h : (ofHistory ops).tags.lookup t = some n) :
    ∃ c, (ofHistory ops).get? n = some c ∧ c.tag = t := by
  obtain ⟨c, hc, rfl, htag⟩ := indexSound_ofHistory ops t n h
  exact ⟨c, get?_name (sorted_ofHistory ops) hc, htag⟩

theorem get?_eq_none_iff {name : String} :
    r.get? name = none ↔ ∀ d ∈ r.components, d.name ≠ name := by
  rw [get?, List.find?_eq_none]
  simp only [decide_eq_true_eq]

/-- What is found under a name or tag is registered and has that name or, where no component has it
as a name, that tag. -/
theorem of_lookup?_eq_some (h : r.IndexSound) (hsorted : r.Sorted) {c : Component}
    (hc : r.lookup? t = some c) :
    c ∈ r.components ∧ (c.name = t ∨ (∀ d ∈ r.components, d.name ≠ t) ∧ c.tag = t) := by
  rw [lookup?, Option.or_eq_some_iff, get?_eq_none_iff, Option.bind_eq_some_iff] at hc
  rcases hc with hnamed | ⟨hnone, n, hlookup, hget⟩
  · obtain ⟨hmem, hname⟩ := mem_of_get? hnamed
    exact ⟨hmem, .inl hname⟩
  · obtain ⟨d, hd, rfl, htag⟩ := h t n hlookup
    rw [get?_name hsorted hd] at hget
    obtain rfl := Option.some.inj hget
    exact ⟨hd, .inr ⟨hnone, htag⟩⟩

/-- Something is found exactly when a component has the name or the index holds the tag. -/
theorem exists_lookup?_iff (h : r.IndexSound) (hsorted : r.Sorted) :
    (∃ c, r.lookup? t = some c) ↔
      (∃ d ∈ r.components, d.name = t) ∨ r.tags.lookup t ≠ none := by
  constructor
  · rintro ⟨c, hc⟩
    rw [lookup?, Option.or_eq_some_iff, Option.bind_eq_some_iff] at hc
    rcases hc with hnamed | ⟨-, n, hlookup, -⟩
    · exact .inl ⟨c, mem_of_get? hnamed⟩
    · exact .inr (Option.ne_none_iff_exists'.2 ⟨n, hlookup⟩)
  · rintro (⟨d, hd, rfl⟩ | hlookup)
    · exact ⟨d, lookup?_of_get? (get?_name hsorted hd)⟩
    · obtain ⟨n, hn⟩ := Option.ne_none_iff_exists'.1 hlookup
      obtain ⟨d, hd, rfl, -⟩ := h t n hn
      have hsome : (r.lookup? t).isSome = true := by
        rw [lookup?, hn, Option.bind_some, get?_name hsorted hd, Option.isSome_or]
        exact Bool.or_true _
      exact Option.isSome_iff_exists.1 hsome

/-! ### Completeness -/

/-- The tag was freed with some component, and has not been given to any since. -/
inductive Freed (t : String) : List Operation → Prop where
  | frees {ops op} (hfrees : op.Frees (ofHistory ops) t) (hgives : ¬op.Gives t) :
      Freed t (ops ++ [op])
  | later {ops op} (h : Freed t ops) (hgives : ¬op.Gives t) : Freed t (ops ++ [op])

private theorem freed_concat_iff {op : Operation} :
    Freed t (ops ++ [op]) ↔ ¬op.Gives t ∧ (op.Frees (ofHistory ops) t ∨ Freed t ops) := by
  constructor
  · generalize hops : ops ++ [op] = history
    intro h
    cases h with
    | frees hfrees hgives =>
      obtain ⟨rfl, heq⟩ := List.append_inj' hops rfl
      obtain rfl := List.singleton_inj.1 heq
      exact ⟨hgives, .inl hfrees⟩
    | later h hgives =>
      obtain ⟨rfl, heq⟩ := List.append_inj' hops rfl
      obtain rfl := List.singleton_inj.1 heq
      exact ⟨hgives, .inr h⟩
  · rintro ⟨hgives, hfrees | h⟩
    · exact .frees hfrees hgives
    · exact .later h hgives

/-- A tag that a component has is in the index, unless it was freed. -/
theorem lookup_tags_eq_none_iff {c : Component} (hc : c ∈ (ofHistory ops).components)
    (htag : c.tag = t) : (ofHistory ops).tags.lookup t = none ↔ Freed t ops := by
  induction ops using List.reverseRecOn generalizing c with
  | nil => cases hc
  | append_singleton ops op ih =>
    have hsorted := sorted_ofHistory ops
    rw [ofHistory_concat] at hc ⊢
    rw [freed_concat_iff, Option.eq_none_iff_forall_ne_some]
    simp only [ne_eq, lookup_tags_apply_iff hsorted op, not_or, not_exists]
    by_cases hgives : op.Gives t
    · obtain ⟨d, hd, hdtag⟩ := hgives
      refine iff_of_false (fun h => (h d.name).1 d ⟨hd, hdtag, rfl⟩) ?_
      exact fun h => h.1 ⟨d, hd, hdtag⟩
    · have hadded : ∀ n d, ¬(op.added? = some d ∧ d.tag = t ∧ d.name = n) :=
        fun n d hd => hgives ⟨d, hd.1, hd.2.1⟩
      by_cases hfrees : op.Frees (ofHistory ops) t
      · exact iff_of_true (fun n => ⟨hadded n, fun h => h.2.1 hfrees⟩) ⟨hgives, .inl hfrees⟩
      · -- The component was there before, so the index is as it was.
        have hbefore : c ∈ (ofHistory ops).components := by
          rcases (mem_components_apply hsorted op).1 hc with hadd | hkept
          · exact (hgives ⟨c, hadd, htag⟩).elim
          · exact hkept.1
        rw [and_iff_right hgives, or_iff_right hfrees, ← ih hbefore htag,
          Option.eq_none_iff_forall_ne_some]
        refine forall_congr' fun n => ?_
        rw [and_iff_right (hadded n), and_iff_right hgives, and_iff_right hfrees]

/-- Some component has the tag, but the tag was freed with another one. -/
def Stranded (ops : List Operation) (t : String) : Prop :=
  (∀ d ∈ (ofHistory ops).components, d.name ≠ t) ∧ (∃ c ∈ (ofHistory ops).components, c.tag = t) ∧
    Freed t ops

/-- What a registry finds under a name or tag is registered and has that name or, where no component
has it as a name, that tag. It finds something whenever a component has the name or tag, except
under a stranded tag. -/
theorem lookup?_complete_iff (ops : List Operation) (t : String) :
    (∀ c, (ofHistory ops).lookup? t = some c → c ∈ (ofHistory ops).components ∧
      (c.name = t ∨ (∀ d ∈ (ofHistory ops).components, d.name ≠ t) ∧ c.tag = t)) ∧
    (((∃ c, (ofHistory ops).lookup? t = some c) ↔
        ∃ c ∈ (ofHistory ops).components, c.name = t ∨ c.tag = t) ↔
      ¬Stranded ops t) := by
  have hsound := indexSound_ofHistory ops
  have hsorted := sorted_ofHistory ops
  refine ⟨fun c hc => of_lookup?_eq_some hsound hsorted hc, ?_⟩
  rw [exists_lookup?_iff hsound hsorted]
  -- A component of that name is found whatever the index says, so a stranded tag is no name.
  by_cases hnamed : ∃ d ∈ (ofHistory ops).components, d.name = t
  · obtain ⟨d, hd, hname⟩ := hnamed
    refine iff_of_true (iff_of_true (.inl ⟨d, hd, hname⟩) ⟨d, hd, .inl hname⟩) ?_
    exact fun hstranded => hstranded.1 d hd hname
  · have hnone : ∀ d ∈ (ofHistory ops).components, d.name ≠ t :=
      fun d hd hname => hnamed ⟨d, hd, hname⟩
    rw [or_iff_right hnamed]
    by_cases htagged : ∃ c ∈ (ofHistory ops).components, c.tag = t
    · obtain ⟨c, hc, htag⟩ := htagged
      have hindex := lookup_tags_eq_none_iff hc htag
      have hstranded : Stranded ops t ↔ Freed t ops :=
        ⟨fun h => h.2.2, fun h => ⟨hnone, ⟨c, hc, htag⟩, h⟩⟩
      have hsome : ∃ d ∈ (ofHistory ops).components, d.name = t ∨ d.tag = t := ⟨c, hc, .inr htag⟩
      rw [iff_true_right hsome, hstranded, ne_eq, hindex]
    · refine iff_of_true (iff_of_false ?_ ?_) fun hstranded => htagged hstranded.2.1
      · intro hlookup
        obtain ⟨n, hn⟩ := Option.ne_none_iff_exists'.1 hlookup
        obtain ⟨d, hd, -, hdtag⟩ := hsound t n hn
        exact htagged ⟨d, hd, hdtag⟩
      · rintro ⟨c, hc, hname | htag⟩
        · exact hnone c hc hname
        · exact htagged ⟨c, hc, htag⟩

/-- A tag that two components share is lost with one of them, although the other one stays. -/
theorem exists_tag_not_found : ¬∀ (ops : List Operation) (t : String),
    (∃ c, (ofHistory ops).lookup? t = some c) ↔
      ∃ c ∈ (ofHistory ops).components, c.name = t ∨ c.tag = t := by
  intro h
  have hcard := (h [.register { name := "Card", tag := "x-card" },
    .register { name := "Badge", tag := "x-card" }, .remove "Badge"] "x-card").2
    ⟨{ name := "Card", tag := "x-card" }, by decide, .inr rfl⟩
  obtain ⟨c, hc⟩ := hcard
  cases hc

end ViewCompiler.Registry
