import Mathlib.Data.List.Nodup
import ViewCompiler.Proofs.Compile.Usage

/-!
# Reading with a cache

A cache is faithful to some components when what it keeps under their names and digests is what
their templates read as. As long as a name and a digest stand for one template (`Consistent`), what
a faithful cache answers is what the parser would read (`Reading.lookup_of_faithful`), and keeping
what the parser has read leaves it faithful (`ParseCache.Faithful.set`). Reading with a faithful
cache therefore gives the templates and failures that the parser gives, and leaves a faithful cache
behind (`Reading.step_of_faithful`, `Reading.all_of_faithful`).

The cache is asked before the parser, by name and by the digest of the template as it was scanned.
It answers with a forest if it keeps one under both. A component whose digest is not known is never
answered. So nothing is assumed of digests but that two templates under one name do not share one,
and this is needed of the components that are read only.

The order in which templates are read, and what else was looked up between, change what the cache
keeps and what it has given way to, but not that it is faithful. Nothing here depends on the order,
so the results are used for readers that take turns as well (`Compile/Workers`).
-/

namespace ViewCompiler

/-! ### Components that share a template -/

/-- Of the given components, those with the same name and the same digest have the same template,
unless the digest is not known. -/
def Consistent (cs : List Component) : Prop :=
  ∀ c ∈ cs, ∀ d ∈ cs, c.name = d.name → c.hash = d.hash → c.hash ≠ "" → c.template = d.template

/-- Components with names of their own are consistent. -/
theorem Consistent.of_nodup {cs : List Component} (h : (cs.map Component.name).Nodup) :
    Consistent cs := by
  intro c hc d hd hname _ _
  rw [List.inj_on_of_nodup_map h hc hd hname]

/-- One of the given components has the name, digest and template of the component. -/
def Component.IsKnown (c : Component) (cs : List Component) : Prop :=
  ∃ d ∈ cs, d.name = c.name ∧ d.hash = c.hash ∧ d.template = c.template

theorem Component.isKnown_of_mem {c : Component} {cs : List Component} (h : c ∈ cs) :
    c.IsKnown cs :=
  ⟨c, h, rfl, rfl, rfl⟩

/-- What a template reads as depends on the name and the template alone. -/
theorem Reading.parseTemplate_eq_ok_iff {c : Component} {nodes : List Template.Node} :
    parseTemplate c = .ok nodes ↔ Template.parse c.name c.template = .ok nodes := by
  unfold parseTemplate
  split
  · rename_i h
    rw [h, Except.ok.injEq, Except.ok.injEq]
  · rename_i h
    rw [h]
    exact iff_of_false (fun h => by cases h) (fun h => by cases h)
  · rename_i h
    rw [h]
    exact iff_of_false (fun h => by cases h) (fun h => by cases h)

/-! ### Faithful caches -/

/-- What is kept for the components, under their digests, is what their templates read as. -/
def ParseCache.Faithful (cache : ParseCache) (cs : List Component) : Prop :=
  ∀ e ∈ cache.entries, ∀ c ∈ cs, c.name = e.name → c.hash = e.hash →
    Reading.parseTemplate c = .ok e.nodes

namespace ParseCache

theorem faithful_ofSize (size : Int) (cs : List Component) : (ofSize size).Faithful cs :=
  fun _ he => nomatch he

variable {cache : ParseCache} {name hash : String} {cs : List Component}

/-- A hit is an entry of the name with the digest. -/
theorem mem_of_hit? {e : Entry} (h : cache.hit? name hash = some e) :
    e ∈ cache.entries ∧ e.name = name ∧ e.hash = hash := by
  obtain ⟨hentry, hhash⟩ := Option.filter_eq_some_iff.1 h
  have hname := List.find?_some hentry
  rw [Bool.and_eq_true] at hhash
  exact ⟨List.mem_of_find?_eq_some hentry, of_decide_eq_true hname, of_decide_eq_true hhash.2⟩

private theorem Faithful.of_subset {cache' : ParseCache} (h : cache.Faithful cs)
    (hsub : cache'.entries ⊆ cache.entries) : cache'.Faithful cs :=
  fun e he => h e (hsub he)

/-- Looking something up changes no entry. -/
theorem Faithful.get (h : cache.Faithful cs) : (cache.get name hash).2.Faithful cs := by
  unfold ParseCache.get
  split
  · rename_i e hhit
    refine h.of_subset (List.cons_subset.2 ⟨(mem_of_hit? hhit).1, ?_⟩)
    exact List.filter_sublist.subset
  · exact h

/-- Keeping what the template of a component reads as leaves the cache faithful. -/
theorem Faithful.set (h : cache.Faithful cs) (hcs : Consistent cs) {c : Component}
    (hc : c.IsKnown cs) {nodes : List Template.Node}
    (hnodes : Reading.parseTemplate c = .ok nodes) :
    (cache.set c.name c.hash nodes).Faithful cs := by
  unfold ParseCache.set
  split
  · exact h
  rename_i hhash
  have hnew :
      ∀ d ∈ cs, d.name = c.name → d.hash = c.hash → Reading.parseTemplate d = .ok nodes := by
    intro d hd hname hdhash
    obtain ⟨e, he, hename, hehash, hetemplate⟩ := hc
    have htemplate := hcs e he d hd (hename.trans hname.symm) (hehash.trans hdhash.symm)
      (hehash ▸ hhash)
    rw [Reading.parseTemplate_eq_ok_iff] at hnodes ⊢
    rw [hname, ← htemplate, hetemplate]
    exact hnodes
  have hentries : ∀ rest : List Entry, rest ⊆ cache.entries →
      ∀ e ∈ ⟨c.name, c.hash, nodes⟩ :: rest, ∀ d ∈ cs, d.name = e.name → d.hash = e.hash →
        Reading.parseTemplate d = .ok e.nodes := by
    intro rest hsub e he d hd hname hdhash
    rcases List.mem_cons.1 he with rfl | he
    · exact hnew d hd hname hdhash
    · exact h e (hsub he) d hd hname hdhash
  split
  · exact hentries _ List.filter_sublist.subset
  · exact hentries _ (List.take_subset _ _)

end ParseCache

namespace Reading

/-- The template of a component by its name, if it can be read. -/
def templateOf (c : Component) : List (String × List Template.Node) :=
  match parseTemplate c with
  | .ok nodes => [(c.name, nodes)]
  | .error _ => []

/-- The problem of a component by its name, if its template cannot be read. -/
def failureOf (c : Component) : List (String × Problem) :=
  match parseTemplate c with
  | .ok _ => []
  | .error p => [(c.name, p)]

theorem parseTemplate_of_mem_failureOf {c : Component} {f : String × Problem}
    (h : f ∈ failureOf c) : parseTemplate c = .error f.2 := by
  unfold failureOf at h
  split at h
  · cases h
  · rename_i p hp
    obtain rfl := List.mem_singleton.1 h
    exact hp

/-- The cache of a reading, if it has one, is faithful. -/
def Faithful (r : Reading) (cs : List Component) : Prop := ∀ cache ∈ r.cache, cache.Faithful cs

variable {r : Reading} {cs : List Component} {c : Component}

/-- What a faithful cache answers is what the parser reads, and it stays faithful. -/
theorem lookup_of_faithful (h : r.Faithful cs) (hc : c.IsKnown cs) :
    (∀ cache ∈ (r.lookup c).2, cache.Faithful cs) ∧
      ∀ nodes, (r.lookup c).1 = some nodes → parseTemplate c = .ok nodes := by
  unfold Reading.lookup
  cases hcache : r.cache with
  | none => exact ⟨fun _ hk => (nomatch hk), fun _ hk => (nomatch hk)⟩
  | some cache =>
    have hfaithful := h cache hcache
    refine ⟨fun k hk => Option.some.inj hk ▸ hfaithful.get, fun nodes hnodes => ?_⟩
    change (cache.get c.name c.hash).1 = some nodes at hnodes
    unfold ParseCache.get at hnodes
    split at hnodes
    · rename_i e hhit
      obtain ⟨hmem, hname, hhash⟩ := ParseCache.mem_of_hit? hhit
      obtain rfl := Option.some.inj hnodes
      obtain ⟨d, hd, hdname, hdhash, hdtemplate⟩ := hc
      have hkept := hfaithful e hmem d hd (hdname.trans hname.symm) (hdhash.trans hhash.symm)
      rw [parseTemplate_eq_ok_iff] at hkept ⊢
      rw [← hdname, ← hdtemplate]
      exact hkept
    · cases hnodes

/-- Keeping what the parser reads leaves the cache faithful. -/
theorem faithful_map_set {cache : Option ParseCache} (h : ∀ k ∈ cache, k.Faithful cs)
    (hcs : Consistent cs) (hc : c.IsKnown cs) {nodes : List Template.Node}
    (hparse : parseTemplate c = .ok nodes) :
    ∀ k ∈ cache.map (·.set c.name c.hash nodes), k.Faithful cs := by
  intro k hk
  obtain ⟨k', hk', rfl⟩ := Option.map_eq_some_iff.1 hk
  exact (h k' hk').set hcs hc hparse

/-- One step with a faithful cache reads what the parser reads, and leaves a faithful cache. -/
theorem step_of_faithful (h : r.Faithful cs) (hcs : Consistent cs) (hc : c.IsKnown cs) :
    (r.step c).Faithful cs ∧ (r.step c).templates = r.templates ++ templateOf c ∧
      (r.step c).failures = r.failures ++ failureOf c := by
  obtain ⟨hkept, hread⟩ := lookup_of_faithful h hc
  unfold step
  split
  · rename_i nodes cache heq
    rw [heq] at hkept hread
    rw [templateOf, failureOf, hread nodes rfl]
    exact ⟨hkept, rfl, (List.append_nil _).symm⟩
  · rename_i cache heq
    rw [heq] at hkept
    rw [templateOf, failureOf]
    cases hparse : parseTemplate c with
    | ok nodes => exact ⟨faithful_map_set hkept hcs hc hparse, rfl, (List.append_nil _).symm⟩
    | error p => exact ⟨hkept, (List.append_nil _).symm, rfl⟩

/-- Reading with a faithful cache reads what the parser reads, and leaves a faithful cache. -/
theorem all_of_faithful (h : r.Faithful cs) (hcs : Consistent cs) {ds : List Component}
    (hds : ∀ d ∈ ds, d.IsKnown cs) :
    (r.all ds).Faithful cs ∧ (r.all ds).templates = r.templates ++ ds.flatMap templateOf ∧
      (r.all ds).failures = r.failures ++ ds.flatMap failureOf := by
  induction ds generalizing r with
  | nil => simp [all, h]
  | cons d ds ih =>
    obtain ⟨hd, hds⟩ := List.forall_mem_cons.1 hds
    obtain ⟨hstep, htemplates, hfailures⟩ := step_of_faithful h hcs hd
    obtain ⟨hall, htemplates', hfailures'⟩ := ih hstep hds
    rw [all_cons, List.flatMap_cons, List.flatMap_cons, ← List.append_assoc, ← List.append_assoc,
      ← htemplates, ← hfailures]
    exact ⟨hall, htemplates', hfailures'⟩

/-- What is read with a faithful cache, or without any, is what the parser reads. -/
theorem parseTemplate_of_lookup_all {cache : Option ParseCache}
    (hcache : ∀ k ∈ cache, k.Faithful cs) (hnodup : (cs.map Component.name).Nodup) (hc : c ∈ cs)
    {nodes : List Template.Node}
    (h : (Reading.all { cache } cs).templates.lookup c.name = some nodes) :
    parseTemplate c = .ok nodes := by
  have hstart : Reading.Faithful { cache } cs := hcache
  obtain ⟨-, htemplates, -⟩ :=
    all_of_faithful hstart (.of_nodup hnodup) fun d hd => Component.isKnown_of_mem hd
  obtain ⟨before, after, hsplit, -⟩ := List.lookup_eq_some_iff.1 h
  have hmem : (c.name, nodes) ∈ cs.flatMap templateOf := by
    rw [htemplates, List.nil_append] at hsplit
    rw [hsplit]
    exact List.mem_append_right _ List.mem_cons_self
  obtain ⟨d, hd, hparse⟩ := List.mem_flatMap.1 hmem
  unfold templateOf at hparse
  split at hparse
  · rename_i nodes' hnodes'
    obtain ⟨hname, rfl⟩ := Prod.mk.inj (List.mem_singleton.1 hparse)
    obtain rfl := List.inj_on_of_nodup_map hnodup hc hd hname
    exact hnodes'
  · cases hparse

end Reading

end ViewCompiler
