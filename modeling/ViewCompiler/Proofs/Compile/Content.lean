import ViewCompiler.Proofs.Compile.Agreement
import ViewCompiler.Proofs.Compile.Workers
import ViewCompiler.Proofs.Registry.History

/-!
# What is registered decides what comes out

Registries in which the same is registered answer alike, whatever their compilers have in their
caches. Their workers can come back in the same orders, and with the same templates and problems in
the same order (`Reads.sameAs`); in different orders they still come back with the same, unless
reading is given up on the way (`Reads.alike`). Readings that differ only in the order are laid out
alike (`Registry.Alike.layOut_eq`). So compiling comes to the same, except that where some templates
cannot be read it may be another one of them that is refused when the workers come back in another
order (`Counterparts.compilesTo_agree`); checking comes to the same in any order
(`Counterparts.checksTo_agree`).

As long as no two components carry one tag at the same time, it therefore does not matter how a
registry came about, nor which compilers worked on it meanwhile (`Registry.outcomes_eq_of_content`).
The exception is a real one (`Registry.not_outcomes_eq_of_content`): of two templates that cannot be
read, two workers may come back with either first.
-/

namespace ViewCompiler

open ViewCompiler.Template

/-! ### Readings -/

private theorem lookup_eq_of_perm {β : Type} {xs ys : List (String × β)} (h : xs.Perm ys)
    (hnodup : (xs.map Prod.fst).Nodup) (k : String) : xs.lookup k = ys.lookup k := by
  induction h with
  | nil => rfl
  | cons x _ ih =>
    rw [List.lookup_cons, List.lookup_cons, ih (List.nodup_cons.1 hnodup).2]
  | swap x y l =>
    have hne : y.1 ≠ x.1 := fun heq => (List.nodup_cons.1 hnodup).1 (heq ▸ List.mem_cons_self)
    rw [List.lookup_cons, List.lookup_cons, List.lookup_cons, List.lookup_cons]
    by_cases hy : k = y.1
    · rw [hy, beq_self_eq_true, beq_false_of_ne hne]
    · rw [beq_false_of_ne hy]
  | trans h _ ih ih' =>
    exact (ih hnodup).trans (ih' ((h.map Prod.fst).nodup_iff.1 hnodup))

namespace Reading

variable {r r' : Reading} {cs ds ds' : List Component}

/-- Two readings that have read the same, in some order. -/
structure Alike (r r' : Reading) : Prop where
  templates : r.templates.Perm r'.templates
  failures : r.failures.Perm r'.failures
  nodup_templates : (r.templates.map Prod.fst).Nodup
  nodup_failures : (r.failures.map Prod.fst).Nodup

/-- Readings that are alike have the same template under every name. -/
theorem Alike.lookup_templates_eq (h : r.Alike r') (name : String) :
    r.templates.lookup name = r'.templates.lookup name :=
  lookup_eq_of_perm h.templates h.nodup_templates name

/-- Readings that are alike have the same failure under every name. -/
private theorem Alike.lookup_failures_eq (h : r.Alike r') (name : String) :
    r.failures.lookup name = r'.failures.lookup name :=
  lookup_eq_of_perm h.failures h.nodup_failures name

private theorem flatMap_templateOf_content (ds : List Component) :
    (ds.map Component.content).flatMap templateOf = ds.flatMap templateOf :=
  List.flatMap_map ..

private theorem flatMap_failureOf_content (ds : List Component) :
    (ds.map Component.content).flatMap failureOf = ds.flatMap failureOf :=
  List.flatMap_map ..

/-- Readings that are alike have templates of the same components. -/
private theorem Alike.has_eq (h : r.Alike r') : r.has = r'.has := by
  funext name
  rw [Bool.eq_iff_iff, has_eq_true_iff, has_eq_true_iff, h.lookup_templates_eq]

/-- Components of one content have the same definition in readings that are alike. -/
theorem Alike.definition?_eq (h : r.Alike r') {c c' : Component} (hc : c.content = c'.content) :
    r.definition? c = r'.definition? c' := by
  obtain ⟨hname, -, -, -, hmetadata, -, -, -⟩ := Component.content_eq_iff.1 hc
  rw [definition?, definition?, h.lookup_templates_eq, hname, hmetadata]

/-- Where every component contributes at most an entry under its own name, no name occurs twice. -/
theorem nodup_map_flatMap {β : Type} {f : Component → List (String × β)}
    (hf : ∀ c, ((f c).map Prod.fst).Sublist [c.name]) (hnodup : (ds.map Component.name).Nodup) :
    ((ds.flatMap f).map Prod.fst).Nodup := by
  have hsublist : ((ds.flatMap f).map Prod.fst).Sublist (ds.map Component.name) := by
    clear hnodup
    induction ds with
    | nil => exact .slnil
    | cons d ds ih =>
      rw [List.flatMap_cons, List.map_append, List.map_cons]
      exact (hf d).append ih
  exact hsublist.nodup hnodup

/-- A component has at most one template, under its own name. -/
private theorem map_templateOf_sublist (c : Component) :
    ((templateOf c).map Prod.fst).Sublist [c.name] := by
  unfold templateOf
  split
  · exact .refl _
  · exact List.nil_sublist _

/-- A component fails at most once, under its own name. -/
private theorem map_failureOf_sublist (c : Component) :
    ((failureOf c).map Prod.fst).Sublist [c.name] := by
  unfold failureOf
  split
  · exact List.nil_sublist _
  · exact .refl _

end Reading

/-- Components of the same names have the same contents, where these go by the names. -/
private theorem map_content_eq_of_names {ds ds' told told' : List Component} (hds : told ⊆ ds)
    (hds' : told' ⊆ ds') (hcontent : ds.map Component.content = ds'.map Component.content)
    (hnodup : (ds'.map Component.name).Nodup)
    (hnames : told.map Component.name = told'.map Component.name) :
    told.map Component.content = told'.map Component.content := by
  induction told generalizing told' with
  | nil =>
    obtain rfl := List.map_eq_nil_iff.1 hnames.symm
    rfl
  | cons c told ih =>
    obtain ⟨c', rest, rfl, hname, hrest⟩ := List.map_eq_cons_iff.1 hnames.symm
    obtain ⟨hc, htold⟩ := List.cons_subset.1 hds
    obtain ⟨hc', hrest'⟩ := List.cons_subset.1 hds'
    obtain ⟨d, hd, hdc⟩ := List.mem_map.1 (hcontent ▸ List.mem_map_of_mem hc)
    have hdname : d.name = c.name := (Component.content_eq_iff.1 hdc).1
    obtain rfl : d = c' := List.inj_on_of_nodup_map hnodup hd hc' (hdname.trans hname.symm)
    rw [List.map_cons, List.map_cons, hdc, ih htold hrest' hrest.symm]

section Reads

variable {workers workers' : Nat} {failFast : Bool} {cache cache' : Option ParseCache}
  {cs cs' ds ds' : List Component} {order order' : List String} {r r' : Reading}
  (h : Reads workers failFast cache ds order r) (hcs : Consistent cs)
  (hds : ∀ d ∈ ds, d.IsKnown cs) (hcache : ∀ k ∈ cache, k.Faithful cs)

section One

include h hcs hds hcache

/-- The cache that is left behind is faithful. -/
theorem Reads.faithful : r.Faithful cs := by
  obtain ⟨told, dropped, haccounts⟩ := h.exists_told hcs hds hcache
  exact haccounts.faithful

/-- Unless reading is given up, the workers come back with every component. -/
theorem Reads.exists_perm (hcomplete : failFast = false ∨ r.failures = []) :
    ∃ told : List Component, told.Perm ds ∧ r.templates = told.flatMap Reading.templateOf ∧
      r.failures = told.flatMap Reading.failureOf := by
  obtain ⟨told, dropped, haccounts⟩ := h.exists_told hcs hds hcache
  have hnone : dropped = [] := by
    by_contra hne
    have hgiven := haccounts.givenUp hne
    rw [Reading.givenUp, Bool.and_eq_true, Bool.not_eq_true', List.isEmpty_eq_false_iff] at hgiven
    rcases hcomplete with hoff | hread
    · exact Bool.false_ne_true (hoff ▸ hgiven.1)
    · exact hgiven.2 hread
  have hperm := haccounts.perm
  rw [hnone, List.append_nil, List.append_nil, List.map_nil, List.append_nil] at hperm
  exact ⟨told, hperm, haccounts.templates, haccounts.failures⟩

/-- A failure is that of one of the templates. -/
theorem Reads.mem_failures {f : String × Problem} (hf : f ∈ r.failures) :
    f ∈ ds.flatMap Reading.failureOf := by
  obtain ⟨told, dropped, haccounts⟩ := h.exists_told hcs hds hcache
  obtain ⟨c, hc, hcf⟩ := List.mem_flatMap.1 (haccounts.failures ▸ hf)
  refine List.mem_flatMap.2 ⟨c, haccounts.perm.subset ?_, hcf⟩
  simp only [List.append_assoc]
  exact List.mem_append_left _ hc

/-- Something fails exactly when one of the templates cannot be read. -/
theorem Reads.failures_eq_nil_iff : r.failures = [] ↔ ds.flatMap Reading.failureOf = [] := by
  constructor
  · intro hread
    obtain ⟨told, hperm, -, hfailures⟩ := h.exists_perm hcs hds hcache (.inr hread)
    rw [hread] at hfailures
    have hflat := hperm.flatMap_right Reading.failureOf
    rw [← hfailures] at hflat
    exact List.nil_perm.1 hflat
  · intro hread
    rw [List.eq_nil_iff_forall_not_mem]
    intro f hf
    have hmem := h.mem_failures hcs hds hcache hf
    rw [hread] at hmem
    exact List.not_mem_nil hmem

end One

variable (h' : Reads workers' failFast cache' ds' order' r') (hcs' : Consistent cs')
  (hds' : ∀ d ∈ ds', d.IsKnown cs') (hcache' : ∀ k ∈ cache', k.Faithful cs')
  (hcontent : ds.map Component.content = ds'.map Component.content)
include h hcs hds hcache h' hcs' hds' hcache' hcontent

/-- Workers that come back in the same order come back with the same. -/
theorem Reads.sameAs (hnodup : (ds'.map Component.name).Nodup) (horder : order = order') :
    r.SameAs r' := by
  obtain ⟨told, dropped, haccounts⟩ := h.exists_told hcs hds hcache
  obtain ⟨told', dropped', haccounts'⟩ := h'.exists_told hcs' hds' hcache'
  have hsub : told ⊆ ds := fun c hc => haccounts.perm.subset (by simp [hc])
  have hsub' : told' ⊆ ds' := fun c hc => haccounts'.perm.subset (by simp [hc])
  have hsame : told.map Component.content = told'.map Component.content := by
    refine map_content_eq_of_names hsub hsub' hcontent hnodup ?_
    exact haccounts.back.symm.trans (horder.trans haccounts'.back)
  refine ⟨haccounts.templates.trans (Eq.trans ?_ haccounts'.templates.symm),
    haccounts.failures.trans (Eq.trans ?_ haccounts'.failures.symm)⟩
  · rw [← Reading.flatMap_templateOf_content told, hsame, Reading.flatMap_templateOf_content]
  · rw [← Reading.flatMap_failureOf_content told, hsame, Reading.flatMap_failureOf_content]

/-- Unless reading is given up, workers come back with the same in any order. -/
theorem Reads.alike (hnodup : (ds.map Component.name).Nodup)
    (hcomplete : failFast = false ∨ r.failures = [] ∧ r'.failures = []) : r.Alike r' := by
  obtain ⟨told, hperm, htemplates, hfailures⟩ :=
    h.exists_perm hcs hds hcache (hcomplete.imp_right And.left)
  obtain ⟨told', hperm', htemplates', hfailures'⟩ :=
    h'.exists_perm hcs' hds' hcache' (hcomplete.imp_right And.right)
  have hcontents : (told.map Component.content).Perm (told'.map Component.content) :=
    (hperm.map _).trans (hcontent ▸ (hperm'.map _).symm)
  have hnodup' : (told.map Component.name).Nodup := (hperm.map _).nodup_iff.2 hnodup
  refine ⟨?_, ?_, ?_, ?_⟩
  · rw [htemplates, htemplates', ← Reading.flatMap_templateOf_content told,
      ← Reading.flatMap_templateOf_content told']
    exact hcontents.flatMap_right _
  · rw [hfailures, hfailures', ← Reading.flatMap_failureOf_content told,
      ← Reading.flatMap_failureOf_content told']
    exact hcontents.flatMap_right _
  · rw [htemplates]
    exact Reading.nodup_map_flatMap Reading.map_templateOf_sublist hnodup'
  · rw [hfailures]
    exact Reading.nodup_map_flatMap Reading.map_failureOf_sublist hnodup'

/-- Something fails in both readings or in none. -/
theorem Reads.failures_eq_nil_congr : r.failures = [] ↔ r'.failures = [] := by
  rw [h.failures_eq_nil_iff hcs hds hcache, h'.failures_eq_nil_iff hcs' hds' hcache',
    ← Reading.flatMap_failureOf_content ds, hcontent, Reading.flatMap_failureOf_content]

end Reads

/-! ### Registries with the same contents -/

namespace Registry

namespace Alike

variable {reg reg' : Registry} {r r' : Reading} (h : reg.Alike reg')
include h

/-- Templates use the same components in registries that are alike. -/
private theorem usedIn_eq (nodes : List Node) : reg.usedIn nodes = reg'.usedIn nodes := by
  have hname : ∀ t, (reg.lookup? t).map (·.name) = (reg'.lookup? t).map (·.name) := by
    intro t
    have hcontent := congrArg (Option.map Component.name) (h.content_lookup?_eq t)
    rwa [Option.map_map, Option.map_map] at hcontent
  simp only [usedIn, hname]

/-- Registries and readings that are alike make the same library. -/
theorem library_eq (hr : r.Alike r') : reg.library r = reg'.library r' := by
  have hfind : (reg.library r).find? = (reg'.library r').find? := by
    funext t
    have hdefinition : ∀ c : Component, r.definition? c = r'.definition? c.content :=
      fun c => hr.definition?_eq rfl
    change (reg.lookup? t).bind r.definition? = (reg'.lookup? t).bind r'.definition?
    have hbind := congrArg (·.bind r'.definition?) (h.content_lookup?_eq t)
    rw [Option.bind_map, Option.bind_map] at hbind
    refine Eq.trans ?_ hbind
    congr 1
    exact funext hdefinition
  have hnames : (reg.library r).names = (reg'.library r').names := h.names_eq
  generalize reg.library r = l at hfind hnames
  generalize reg'.library r' = l' at hfind hnames
  cases l
  cases l'
  cases hfind
  cases hnames
  rfl

/-- What is recorded adds nothing to what is registered. -/
theorem recordReading : (reg.recordReading r).Alike (reg'.recordReading r') := by
  refine ⟨?_, fun t => ?_⟩
  · rw [components_recordReading, components_recordReading, List.map_map, List.map_map]
    exact h.components
  · rw [recordReading_eq, recordReading_eq]
    exact h.tags t

/-- The same is recorded, whatever was recorded before. -/
theorem usage_recordReading_eq (hr : r.Alike r') :
    (reg.recordReading r).usage = (reg'.recordReading r').usage := by
  have hedges : ∀ (reg : Registry) (r : Reading), (reg.recordReading r).usage =
      ⟨(reg.components.map Component.content).map fun c =>
        (c.name, reg.usedIn ((r.templates.lookup c.name).getD []))⟩ := by
    intro reg r
    rw [usage, components_recordReading, List.map_map, List.map_map]
    rfl
  rw [hedges, hedges, h.components]
  simp only [hr.lookup_templates_eq, h.usedIn_eq]

/-- The style sheets are scoped alike in registries that are alike. -/
private theorem scopedStyles_eq (id : Nat) (names : List String) :
    reg.scopedStyles id names = reg'.scopedStyles id names := by
  induction names generalizing id with
  | nil => rfl
  | cons name names ih =>
    have hget := h.content_get?_eq name
    rw [scopedStyles, scopedStyles, h.tag?_eq]
    cases hc : reg.get? name with
    | none =>
      rw [hc, Option.map_none, eq_comm, Option.map_eq_none_iff] at hget
      rw [hget]
      exact ih id
    | some c =>
      rw [hc, Option.map_some, eq_comm, Option.map_eq_some_iff] at hget
      obtain ⟨c', hc', hcontent⟩ := hget
      obtain ⟨-, htag, -, hstyle, -, -, -, hpath⟩ := Component.content_eq_iff.1 hcontent
      simp only [hc', hstyle, htag, hpath, ih]

/-- Roots with the same contents are laid out alike. -/
theorem layOut_eq (hr : r.Alike r') (husage : reg.usage = reg'.usage) {c c' : Component}
    (hc : c.content = c'.content) : reg.layOut r c = reg'.layOut r' c' := by
  obtain ⟨hname, -, -, -, -, hfile, -, -⟩ := Component.content_eq_iff.1 hc
  simp only [layOut, husage, hname, hfile, hr.definition?_eq hc, h.library_eq hr, h.scopedStyles_eq]

/-- A style sheet has the same problem in registries that are alike. -/
private theorem styleProblem?_eq {c c' : Component} (hc : c.content = c'.content) :
    reg.styleProblem? c = reg'.styleProblem? c' := by
  obtain ⟨-, htag, -, hstyle, -, -, -, hpath⟩ := Component.content_eq_iff.1 hc
  rw [styleProblem?, styleProblem?, h.tag?_eq, hstyle, htag, hpath]

/-- Laying a component out meets the same problem in registries that are alike. -/
private theorem layoutProblem?_eq (hr : r.Alike r') (husage : reg.usage = reg'.usage)
    {c c' : Component}
    (hc : c.content = c'.content) : reg.layoutProblem? r c = reg'.layoutProblem? r' c' := by
  obtain ⟨hname, -⟩ := Component.content_eq_iff.1 hc
  rw [layoutProblem?, layoutProblem?, husage, hname, hr.definition?_eq hc,
    h.library_eq hr, hr.has_eq]

/-- The same templates cannot be read in registries that are alike. -/
private theorem unread_eq (hr : r.Alike r') : reg.unread r = reg'.unread r' := by
  have hcontent : ∀ (reg : Registry) (r : Reading), reg.unread r =
      (reg.components.map Component.content).flatMap fun c =>
        Finding.ofProblem? c.name c.file (r.failures.lookup c.name) := by
    intro reg r
    rw [List.flatMap_map]
    rfl
  rw [hcontent, hcontent, h.components]
  simp only [hr.lookup_failures_eq]

/-- The same components cannot be laid out in registries that are alike. -/
private theorem misfits_eq (hr : r.Alike r') (husage : reg.usage = reg'.usage) :
    reg.misfits r = reg'.misfits r' := by
  have hcontent : ∀ (reg : Registry) (r : Reading), reg.misfits r =
      (reg.components.map Component.content).flatMap fun c =>
        Finding.ofProblem? c.name c.stylePath (reg.styleProblem? c) ++
          Finding.ofProblem? c.name c.file (reg.layoutProblem? r c) := by
    intro reg r
    rw [List.flatMap_map]
    rfl
  rw [hcontent, hcontent, h.components]
  simp only [h.styleProblem?_eq rfl, h.layoutProblem?_eq hr husage rfl]

/-- Either both have components or neither has. -/
theorem isEmpty_eq : reg.components.isEmpty = reg'.components.isEmpty := by
  have hcontent := congrArg List.isEmpty h.components
  rwa [List.isEmpty_map, List.isEmpty_map] at hcontent

end Alike

end Registry

/-- What is recorded does not depend on the order of reading. -/
theorem Reading.Alike.recordReading_eq {r r' : Reading} (h : r.Alike r') (reg : Registry) :
    reg.recordReading r = reg.recordReading r' := by
  rw [Registry.recordReading, Registry.recordReading]
  simp only [h.lookup_templates_eq]

/-! ### One run -/

/-- The problem is that of a registered template which cannot be read. -/
def Registry.Unreadable (reg : Registry) (p : Problem) : Prop :=
  ∃ c ∈ reg.components, Reading.parseTemplate c = .error p

/-- The failure of a registered component is the problem of a template that cannot be read. -/
theorem Registry.Unreadable.of_mem {reg : Registry} {f : String × Problem}
    (h : f ∈ reg.components.flatMap Reading.failureOf) : reg.Unreadable f.2 := by
  obtain ⟨c, hc, hmem⟩ := List.mem_flatMap.1 h
  exact ⟨c, hc, Reading.parseTemplate_of_mem_failureOf hmem⟩

/-- A run changes nothing in the registry but what the components are said to use. -/
def Registry.IsRecordOf (reg' reg : Registry) : Prop :=
  reg' = reg ∨ ∃ r, reg' = reg.recordReading r

/-- What compiling leaves behind. -/
private theorem Registry.left_concluded (reg : Registry) (root : Component) (r : Reading) :
    (reg.concluded root r).reading = r ∧ (reg.concluded root r).registry.IsRecordOf reg := by
  cases hrefusal : r.refusal? with
  | some p =>
    rw [concluded_of_refusal? hrefusal]
    exact ⟨rfl, .inl rfl⟩
  | none =>
    rw [concluded_of_failures_eq_nil (Reading.refusal?_eq_none_iff.1 hrefusal)]
    exact ⟨rfl, .inr ⟨r, rfl⟩⟩

/-- What checking leaves behind. -/
private theorem Registry.left_checked (reg : Registry) (r : Reading) :
    (reg.checked r).reading = r ∧ (reg.checked r).registry.IsRecordOf reg := by
  unfold checked
  split
  · exact ⟨rfl, .inl rfl⟩
  · exact ⟨rfl, .inr ⟨r, rfl⟩⟩

section Left

variable {workers : Nat} {cache : Option ParseCache} {reg : Registry} {cancelled : Bool}
  {order : List String}

/-- What a run of compiling leaves of the registry, and of a faithful cache. -/
theorem Compiles.left {root : String} {run : CompileRun} {cs : List Component}
    (h : Compiles workers cache reg root cancelled order run) (hcs : Consistent cs)
    (hknown : ∀ c ∈ reg.components, c.IsKnown cs) (hcache : ∀ k ∈ cache, k.Faithful cs) :
    run.registry.IsRecordOf reg ∧ ∀ k ∈ run.reading.cache, k.Faithful cs := by
  unfold Compiles at h
  split at h
  · obtain ⟨-, rfl⟩ := h
    exact ⟨.inl rfl, hcache⟩
  · rename_i c hc
    split at h
    · obtain ⟨-, rfl⟩ := h
      exact ⟨.inl rfl, hcache⟩
    · obtain ⟨r, hreads, rfl⟩ := h
      obtain ⟨hreading, hregistry⟩ := reg.left_concluded c r
      rw [hreading]
      exact ⟨hregistry, hreads.faithful hcs hknown hcache⟩

/-- What a run of checking leaves of the registry, and of a faithful cache. -/
theorem Checks.left {run : CheckRun} {cs : List Component}
    (h : Checks workers cache reg cancelled order run) (hcs : Consistent cs)
    (hknown : ∀ c ∈ reg.components, c.IsKnown cs) (hcache : ∀ k ∈ cache, k.Faithful cs) :
    run.registry.IsRecordOf reg ∧ ∀ k ∈ run.reading.cache, k.Faithful cs := by
  unfold Checks at h
  split at h
  · obtain ⟨-, rfl⟩ := h
    exact ⟨.inl rfl, hcache⟩
  · obtain ⟨r, hreads, rfl⟩ := h
    obtain ⟨hreading, hregistry⟩ := reg.left_checked r
    rw [hreading]
    exact ⟨hregistry, hreads.faithful hcs hknown hcache⟩

end Left

/-- What checking reports of a reading. -/
theorem Registry.outcome_checked (reg : Registry) (r : Reading) :
    (reg.checked r).outcome = if r.failures.any (·.2.isAbort) then .error .abort
      else .ok ⟨(reg.unread r ++ (reg.recordReading r).misfits r).map Finding.diagnostic⟩ := by
  unfold checked
  split
  · rfl
  · simp only [Collector.foldl_unread, Collector.foldl_misfits, List.map_append]
    rfl

/-! ### Two runs -/

section Runs

variable {workers workers' : Nat} {reg reg' : Registry} {cs cs' : List Component}
  {cache cache' : Option ParseCache} {order order' : List String} {cancelled : Bool}

/-- What two compilers with faithful caches work on: registries with the same contents. -/
structure Counterparts (cs cs' : List Component) (cache cache' : Option ParseCache)
    (reg reg' : Registry) : Prop where
  alike : reg.Alike reg'
  sorted : reg.Sorted
  sorted' : reg'.Sorted
  consistent : Consistent cs
  consistent' : Consistent cs'
  known : ∀ c ∈ reg.components, c.IsKnown cs
  known' : ∀ c ∈ reg'.components, c.IsKnown cs'
  faithful : ∀ k ∈ cache, k.Faithful cs
  faithful' : ∀ k ∈ cache', k.Faithful cs'

namespace Counterparts

variable (h : Counterparts cs cs' cache cache' reg reg')
include h

theorem symm : Counterparts cs' cs cache' cache reg' reg :=
  ⟨⟨h.alike.components.symm, fun t => (h.alike.tags t).symm⟩, h.sorted', h.sorted, h.consistent',
    h.consistent, h.known', h.known, h.faithful', h.faithful⟩

/-- The workers of both can come back in the same orders. -/
theorem exists_reads {failFast : Bool} {r : Reading}
    (hr : Reads workers failFast cache reg.components order r) :
    ∃ r', Reads workers failFast cache' reg'.components order r' :=
  hr.exists_reads h.alike.components h.consistent h.known h.faithful h.consistent' h.known'
    h.faithful'

section Readings

variable {failFast : Bool} {r r' : Reading}
  (hr : Reads workers failFast cache reg.components order r)
  (hr' : Reads workers' failFast cache' reg'.components order' r')
include hr hr'

/-- Workers that come back in the same order come back with the same. -/
private theorem reading_sameAs (horder : order = order') : r.SameAs r' :=
  hr.sameAs h.consistent h.known h.faithful hr' h.consistent' h.known' h.faithful'
    h.alike.components
    (h.sorted'.imp ne_of_lt) horder

/-- Readings that were not given up are alike, whatever the order. -/
theorem reading_alike (hcomplete : failFast = false ∨ r.failures = [] ∧ r'.failures = []) :
    r.Alike r' :=
  hr.alike h.consistent h.known h.faithful hr' h.consistent' h.known' h.faithful'
    h.alike.components (h.sorted.imp ne_of_lt) hcomplete

theorem failures_eq_nil_congr : r.failures = [] ↔ r'.failures = [] :=
  hr.failures_eq_nil_congr h.consistent h.known h.faithful hr' h.consistent' h.known' h.faithful'
    h.alike.components

end Readings

/-- What a reading is given up with is a problem of one of the templates. -/
theorem unreadable_of_refusal? {failFast : Bool} {r : Reading}
    (hr : Reads workers failFast cache reg.components order r) {p : Problem}
    (hp : r.refusal? = some p) : reg.Unreadable p := by
  obtain ⟨name, hmem⟩ := Reading.exists_mem_of_refusal? hp
  exact .of_mem (hr.mem_failures h.consistent h.known h.faithful hmem)

/-- Compiling a root with the same contents comes to the same, except that in another order another
template may be the one that is refused. What is left of the registries is alike. -/
private theorem concluded_agree {c c' : Component} (hc : c.content = c'.content) {r r' : Reading}
    (hr : Reads workers true cache reg.components order r)
    (hr' : Reads workers' true cache' reg'.components order' r') :
    ((reg.concluded c r).outcome = (reg'.concluded c' r').outcome ∨
        order ≠ order' ∧ ∃ p p', reg.Unreadable p ∧ reg'.Unreadable p' ∧
          (reg.concluded c r).outcome = .error p ∧ (reg'.concluded c' r').outcome = .error p') ∧
      (reg = reg' → (reg.concluded c r).registry = (reg'.concluded c' r').registry) := by
  cases hrefusal : r.refusal? with
  | none =>
    have hread := Reading.refusal?_eq_none_iff.1 hrefusal
    have hread' := (h.failures_eq_nil_congr hr hr').1 hread
    have halike := h.reading_alike hr hr' (.inr ⟨hread, hread'⟩)
    rw [Registry.concluded_of_failures_eq_nil hread, Registry.concluded_of_failures_eq_nil hread']
    refine ⟨.inl ?_, ?_⟩
    · exact h.alike.recordReading.layOut_eq halike (h.alike.usage_recordReading_eq halike) hc
    · rintro rfl
      exact halike.recordReading_eq reg
  | some p =>
    have hfailed : r.failures ≠ [] := by
      rw [Ne, ← Reading.refusal?_eq_none_iff, hrefusal]
      exact Option.some_ne_none p
    have hfailed' : r'.failures ≠ [] := (h.failures_eq_nil_congr hr hr').not.1 hfailed
    obtain ⟨p', hrefusal'⟩ :=
      Option.ne_none_iff_exists'.1 (Reading.refusal?_eq_none_iff.not.2 hfailed')
    rw [Registry.concluded_of_refusal? hrefusal, Registry.concluded_of_refusal? hrefusal']
    refine ⟨?_, id⟩
    by_cases horder : order = order'
    · have hsame : r.refusal? = r'.refusal? := by
        rw [Reading.refusal?, Reading.refusal?, (h.reading_sameAs hr hr' horder).2]
      rw [hrefusal, hrefusal', Option.some.injEq] at hsame
      exact .inl (congrArg Except.error hsame)
    · exact .inr ⟨horder, p, p', h.unreadable_of_refusal? hr hrefusal,
        h.symm.unreadable_of_refusal? hr' hrefusal', rfl, rfl⟩

/-- Checking comes to the same in any order. What is left of the registries is alike. -/
private theorem checked_agree {r r' : Reading}
    (hr : Reads workers false cache reg.components order r)
    (hr' : Reads workers' false cache' reg'.components order' r') :
    (reg.checked r).outcome = (reg'.checked r').outcome ∧
      (reg = reg' → (reg.checked r).registry = (reg'.checked r').registry) := by
  have halike := h.reading_alike hr hr' (.inl rfl)
  have hmisfits := h.alike.recordReading.misfits_eq halike (h.alike.usage_recordReading_eq halike)
  refine ⟨?_, ?_⟩
  · rw [Registry.outcome_checked, Registry.outcome_checked, halike.failures.any_eq,
      h.alike.unread_eq halike, hmisfits]
  · rintro rfl
    unfold Registry.checked
    rw [halike.failures.any_eq]
    split
    · rfl
    · exact halike.recordReading_eq reg

variable {root : String}

/-- Both can be compiled in the same orders. -/
theorem exists_compiles {run : CompileRun}
    (hrun : Compiles workers cache reg root cancelled order run) :
    ∃ run', Compiles workers cache' reg' root cancelled order run' := by
  have hlookup := h.alike.content_lookup?_eq root
  unfold Compiles at hrun ⊢
  cases hc : reg.lookup? root with
  | none =>
    rw [hc, Option.map_none, eq_comm, Option.map_eq_none_iff] at hlookup
    rw [hc] at hrun
    rw [hlookup]
    exact ⟨_, hrun.1, rfl⟩
  | some c =>
    rw [hc, Option.map_some, eq_comm, Option.map_eq_some_iff] at hlookup
    obtain ⟨c', hc', -⟩ := hlookup
    rw [hc] at hrun
    rw [hc']
    cases cancelled with
    | true => exact ⟨_, hrun.1, rfl⟩
    | false =>
      obtain ⟨r, hr, -⟩ := hrun
      obtain ⟨r', hr'⟩ := h.exists_reads hr
      exact ⟨_, r', hr', rfl⟩

/-- Both can be checked in the same orders. -/
theorem exists_checks {run : CheckRun} (hrun : Checks workers cache reg cancelled order run) :
    ∃ run', Checks workers cache' reg' cancelled order run' := by
  unfold Checks at hrun ⊢
  rw [h.alike.isEmpty_eq] at hrun
  split_ifs at hrun ⊢
  · exact ⟨_, hrun.1, rfl⟩
  · obtain ⟨r, hr, -⟩ := hrun
    obtain ⟨r', hr'⟩ := h.exists_reads hr
    exact ⟨_, r', hr', rfl⟩

/-- Compiling comes to the same, except that in another order another template may be the one that
is refused. -/
theorem compiles_agree {run run' : CompileRun}
    (hrun : Compiles workers cache reg root cancelled order run)
    (hrun' : Compiles workers' cache' reg' root cancelled order' run') :
    (run.outcome = run'.outcome ∨
        order ≠ order' ∧ ∃ p p', reg.Unreadable p ∧ reg'.Unreadable p' ∧
          run.outcome = .error p ∧ run'.outcome = .error p') ∧
      (reg = reg' → run.registry = run'.registry) := by
  have hlookup := h.alike.content_lookup?_eq root
  unfold Compiles at hrun hrun'
  cases hc : reg.lookup? root with
  | none =>
    rw [hc, Option.map_none, eq_comm, Option.map_eq_none_iff] at hlookup
    rw [hc] at hrun
    rw [hlookup] at hrun'
    obtain ⟨-, rfl⟩ := hrun
    obtain ⟨-, rfl⟩ := hrun'
    exact ⟨.inl rfl, id⟩
  | some c =>
    rw [hc, Option.map_some, eq_comm, Option.map_eq_some_iff] at hlookup
    obtain ⟨c', hc', hcontent⟩ := hlookup
    rw [hc] at hrun
    rw [hc'] at hrun'
    cases cancelled with
    | true =>
      obtain ⟨-, rfl⟩ := hrun
      obtain ⟨-, rfl⟩ := hrun'
      exact ⟨.inl rfl, id⟩
    | false =>
      obtain ⟨r, hr, rfl⟩ := hrun
      obtain ⟨r', hr', rfl⟩ := hrun'
      exact h.concluded_agree hcontent.symm hr hr'

/-- Checking comes to the same in any order. -/
theorem checks_agree {run run' : CheckRun} (hrun : Checks workers cache reg cancelled order run)
    (hrun' : Checks workers' cache' reg' cancelled order' run') :
    run.outcome = run'.outcome ∧ (reg = reg' → run.registry = run'.registry) := by
  unfold Checks at hrun hrun'
  rw [h.alike.isEmpty_eq] at hrun
  split at hrun
  · rename_i hstopped
    rw [if_pos hstopped] at hrun'
    obtain ⟨-, rfl⟩ := hrun
    obtain ⟨-, rfl⟩ := hrun'
    exact ⟨rfl, id⟩
  · rename_i hstopped
    rw [if_neg hstopped] at hrun'
    obtain ⟨r, hr, rfl⟩ := hrun
    obtain ⟨r', hr', rfl⟩ := hrun'
    exact h.checked_agree hr hr'

end Counterparts

/-- What compiling a component can give, where the workers come back in the given order. -/
def CompilesTo (workers : Nat) (cache : Option ParseCache) (reg : Registry) (root : String)
    (cancelled : Bool) (order : List String) (outcome : Except Problem Compilation) : Prop :=
  ∃ run, Compiles workers cache reg root cancelled order run ∧ run.outcome = outcome

/-- What checking all components can give, where the workers come back in the given order. -/
def ChecksTo (workers : Nat) (cache : Option ParseCache) (reg : Registry) (cancelled : Bool)
    (order : List String) (outcome : Except Problem Collector) : Prop :=
  ∃ run, Checks workers cache reg cancelled order run ∧ run.outcome = outcome

namespace Counterparts

variable (h : Counterparts cs cs' cache cache' reg reg')
include h

/-- Compiling can give the same in the same orders. -/
theorem compilesTo_of_compilesTo {root : String} {outcome : Except Problem Compilation}
    (hto : CompilesTo workers cache reg root cancelled order outcome) :
    CompilesTo workers cache' reg' root cancelled order outcome := by
  obtain ⟨run, hrun, rfl⟩ := hto
  obtain ⟨run', hrun'⟩ := h.exists_compiles hrun
  refine ⟨run', hrun', ?_⟩
  exact ((h.compiles_agree hrun hrun').1.resolve_right fun hother => hother.1 rfl).symm

/-- Compiling gives the same, except that several workers that come back in another order may have
another template refused. -/
theorem compilesTo_agree {root : String} {outcome outcome' : Except Problem Compilation}
    (hto : CompilesTo workers cache reg root cancelled order outcome)
    (hto' : CompilesTo workers cache' reg' root cancelled order' outcome') :
    outcome = outcome' ∨ workers ≠ 1 ∧ order ≠ order' ∧ ∃ p p', reg.Unreadable p ∧
      reg'.Unreadable p' ∧ outcome = .error p ∧ outcome' = .error p' := by
  obtain ⟨run, hrun, rfl⟩ := hto
  obtain ⟨run', hrun', rfl⟩ := hto'
  by_cases hone : workers = 1
  · -- A single worker has but one way to go.
    subst hone
    obtain ⟨run'', hrun''⟩ := h.exists_compiles hrun
    have heq : run'' = run' := hrun''.eq_compile.trans hrun'.eq_compile.symm
    rw [heq] at hrun''
    exact .inl ((h.compiles_agree hrun hrun'').1.resolve_right fun hother => hother.1 rfl)
  · exact (h.compiles_agree hrun hrun').1.imp_right fun hother => ⟨hone, hother⟩

/-- Checking can give the same in the same orders. -/
theorem checksTo_of_checksTo {outcome : Except Problem Collector}
    (hto : ChecksTo workers cache reg cancelled order outcome) :
    ChecksTo workers cache' reg' cancelled order outcome := by
  obtain ⟨run, hrun, rfl⟩ := hto
  obtain ⟨run', hrun'⟩ := h.exists_checks hrun
  exact ⟨run', hrun', (h.checks_agree hrun hrun').1.symm⟩

/-- Checking gives the same in any order. -/
theorem checksTo_agree {outcome outcome' : Except Problem Collector}
    (hto : ChecksTo workers cache reg cancelled order outcome)
    (hto' : ChecksTo workers cache' reg' cancelled order' outcome') : outcome = outcome' := by
  obtain ⟨run, hrun, rfl⟩ := hto
  obtain ⟨run', hrun', rfl⟩ := hto'
  exact (h.checks_agree hrun hrun').1

end Counterparts

/-- Compilers with these caches cannot be told apart by what they give for these registries, with so
many workers each, but for the order in which the workers come back. -/
structure Interchangeable (workers : Nat) (cache cache' : Option ParseCache) (reg reg' : Registry) :
    Prop where
  /-- In the same orders compiling gives the same result or the same problem. -/
  compilesTo_iff : ∀ root cancelled order outcome,
    CompilesTo workers cache reg root cancelled order outcome ↔
      CompilesTo workers cache' reg' root cancelled order outcome
  /-- In different orders it still does, unless there are templates that cannot be read and more
  than one worker; each order then has the problem of one of them. -/
  compilesTo_agree : ∀ root cancelled order order' outcome outcome',
    CompilesTo workers cache reg root cancelled order outcome →
    CompilesTo workers cache' reg' root cancelled order' outcome' →
    outcome = outcome' ∨ workers ≠ 1 ∧ order ≠ order' ∧ ∃ p p', reg.Unreadable p ∧
      reg'.Unreadable p' ∧ outcome = .error p ∧ outcome' = .error p'
  /-- In the same orders checking gives the same diagnostics. -/
  checksTo_iff : ∀ cancelled order outcome,
    ChecksTo workers cache reg cancelled order outcome ↔
      ChecksTo workers cache' reg' cancelled order outcome
  /-- In different orders it still does. -/
  checksTo_agree : ∀ cancelled order order' outcome outcome',
    ChecksTo workers cache reg cancelled order outcome →
    ChecksTo workers cache' reg' cancelled order' outcome' → outcome = outcome'
  /-- What one worker gives is among what any number of them can give. -/
  exists_compilesTo : 0 < workers → ∀ root cancelled, ∃ order,
    CompilesTo workers cache reg root cancelled order (compile cache reg root cancelled).outcome
  exists_checksTo : 0 < workers → ∀ cancelled, ∃ order,
    ChecksTo workers cache reg cancelled order (check cache reg cancelled).outcome

/-- Compilers of counterparts are interchangeable, with as many workers as there may be. -/
private theorem Counterparts.interchangeable (h : Counterparts cs cs' cache cache' reg reg')
    (workers : Nat) : Interchangeable workers cache cache' reg reg' where
  compilesTo_iff _ _ _ _ := ⟨h.compilesTo_of_compilesTo, h.symm.compilesTo_of_compilesTo⟩
  compilesTo_agree _ _ _ _ _ _ := h.compilesTo_agree
  checksTo_iff _ _ _ := ⟨h.checksTo_of_checksTo, h.symm.checksTo_of_checksTo⟩
  checksTo_agree _ _ _ _ _ := h.checksTo_agree
  exists_compilesTo hworkers root cancelled := by
    obtain ⟨order, hrun⟩ := exists_compiles_compile cache reg root cancelled hworkers
    exact ⟨order, _, hrun, rfl⟩
  exists_checksTo hworkers cancelled := by
    obtain ⟨order, hrun⟩ := exists_checks_check cache reg cancelled hworkers
    exact ⟨order, _, hrun, rfl⟩

end Runs

/-- Of two templates that cannot be read, two workers may have either refused. -/
private theorem compilesTo_either {reg : Registry} {a b c : Component} {p q : Problem}
    {root : String} (hreg : reg.components = [a, b]) (hroot : reg.lookup? root = some c)
    (ha : Reading.parseTemplate a = .error p) (hb : Reading.parseTemplate b = .error q) :
    CompilesTo 2 none reg root false [a.name] (.error p) ∧
      CompilesTo 2 none reg root false [b.name] (.error q) := by
  have hgives : ∀ {name : String} {problem : Problem},
      Reads 2 true none [a, b] [name] { cache := none, failures := [(name, problem)] } →
        CompilesTo 2 none reg root false [name] (.error problem) := by
    intro name problem hreads
    have hrefusal : Reading.refusal? { cache := none, failures := [(name, problem)] } =
        some problem := by
      cases problem <;> rfl
    refine ⟨reg.concluded c { cache := none, failures := [(name, problem)] }, ?_, ?_⟩
    · unfold Compiles
      rw [hroot, hreg]
      exact ⟨_, hreads, rfl⟩
    · rw [Registry.concluded_of_refusal? hrefusal]
  obtain ⟨hfirst, hsecond⟩ := reads_either ha hb
  exact ⟨hgives hfirst, hgives hsecond⟩

namespace Registry

/-! ### Histories -/

/-- What can happen to a registry: it is changed, or a compiler works on it and records what it has
read, whatever that was. -/
inductive Episode where
  | change (op : Operation)
  | record (reading : Reading)

/-- The registry after an episode. -/
def Episode.apply (r : Registry) : Episode → Registry
  | change op => op.apply r
  | record reading => r.recordReading reading

/-- The registry after some episodes, the earliest first. -/
def ofEpisodes (es : List Episode) : Registry := es.foldl Episode.apply {}

/-- At no time do two components with different names carry one tag. -/
def TagsStayApart (es : List Episode) : Prop :=
  ∀ before, before <+: es → (ofEpisodes before).TagsApart

/-- The last episode is applied to what the ones before it lead to. -/
theorem ofEpisodes_concat (es : List Episode) (e : Episode) :
    ofEpisodes (es ++ [e]) = e.apply (ofEpisodes es) := by
  rw [ofEpisodes, List.foldl_append]
  rfl

/-- Where no compiler works on it, a registry is the one of its history. -/
theorem ofEpisodes_map_change (ops : List Operation) :
    ofEpisodes (ops.map .change) = ofHistory ops := by
  rw [ofEpisodes, List.foldl_map]
  rfl

section IsRecordOf

variable {r r' : Registry} (h : r'.IsRecordOf r)
include h

theorem IsRecordOf.sorted (hsorted : r.Sorted) : r'.Sorted := by
  rcases h with rfl | ⟨reading, rfl⟩
  · exact hsorted
  · rw [Sorted, names_recordReading]
    exact hsorted

private theorem IsRecordOf.indexSound (hsound : r.IndexSound) : r'.IndexSound := by
  rcases h with rfl | ⟨reading, rfl⟩
  · exact hsound
  · rw [recordReading_eq]
    intro t n hlookup
    obtain ⟨c, hc, hname, htag⟩ := hsound t n hlookup
    exact ⟨r.recorded reading c, List.mem_map_of_mem hc, hname, htag⟩

private theorem IsRecordOf.indexed (hindexed : r.Indexed) : r'.Indexed := by
  rcases h with rfl | ⟨reading, rfl⟩
  · exact hindexed
  · rw [recordReading_eq]
    intro c hc
    obtain ⟨d, hd, rfl⟩ := List.mem_map.1 hc
    exact hindexed d hd

end IsRecordOf

/-- The component that an episode registers. -/
def Episode.added? : Episode → Option Component
  | change op => op.added?
  | record _ => none

/-- The components stay sorted through an episode. -/
private theorem Sorted.episode {r : Registry} (h : r.Sorted) (e : Episode) :
    (e.apply r).Sorted := by
  cases e with
  | change op => exact h.apply op
  | record reading => exact IsRecordOf.sorted (.inr ⟨reading, rfl⟩) h

private theorem sorted_ofEpisodes (es : List Episode) : (ofEpisodes es).Sorted := by
  induction es using List.reverseRecOn with
  | nil => exact List.Pairwise.nil
  | append_singleton es e ih =>
    rw [ofEpisodes_concat]
    exact ih.episode e

/-- A recorded component has the name and the tag of a component that was there before. -/
private theorem IsRecordOf.exists_mem {r r' : Registry} (h : r'.IsRecordOf r) {c : Component}
    (hc : c ∈ r'.components) : ∃ d ∈ r.components, d.name = c.name ∧ d.tag = c.tag := by
  rcases h with rfl | ⟨reading, rfl⟩
  · exact ⟨c, hc, rfl, rfl⟩
  · rw [components_recordReading] at hc
    obtain ⟨d, hd, rfl⟩ := List.mem_map.1 hc
    exact ⟨d, hd, rfl, rfl⟩

/-- Whatever carries a tag was registered with it. -/
theorem exists_added {es : List Episode} {c : Component} (hc : c ∈ (ofEpisodes es).components) :
    ∃ d ∈ es.filterMap Episode.added?, d.name = c.name ∧ d.tag = c.tag := by
  induction es using List.reverseRecOn generalizing c with
  | nil => cases hc
  | append_singleton es e ih =>
    rw [List.filterMap_append]
    have hkept : (∃ d ∈ (ofEpisodes es).components, d.name = c.name ∧ d.tag = c.tag) →
        ∃ d ∈ es.filterMap Episode.added? ++ [e].filterMap Episode.added?,
          d.name = c.name ∧ d.tag = c.tag := by
      rintro ⟨d, hd, hname, htag⟩
      obtain ⟨d', hd', hname', htag'⟩ := ih hd
      exact ⟨d', List.mem_append_left _ hd', hname'.trans hname, htag'.trans htag⟩
    rw [ofEpisodes_concat] at hc
    cases e with
    | change op =>
      rcases (mem_components_apply (sorted_ofEpisodes es) op).1 hc with hadded | ⟨hbefore, -⟩
      · exact ⟨c, List.mem_append_right _ (by simp [Episode.added?, hadded]), rfl, rfl⟩
      · exact hkept ⟨c, hbefore, rfl, rfl⟩
    | record reading => exact hkept (IsRecordOf.exists_mem (.inr ⟨reading, rfl⟩) hc)

/-- Tags stay apart where components that are ever registered with the same tag have the same
name. -/
theorem tagsStayApart_of_added {es : List Episode} (h : ∀ c ∈ es.filterMap Episode.added?,
    ∀ d ∈ es.filterMap Episode.added?, c.tag = d.tag → c.name = d.name) : TagsStayApart es := by
  intro before hbefore c hc d hd htag
  have hsub := (hbefore.sublist.filterMap Episode.added?).subset
  obtain ⟨c', hc', hname, htag'⟩ := exists_added hc
  obtain ⟨d', hd', hname', htag''⟩ := exists_added hd
  rw [← hname, ← hname']
  exact h c' (hsub hc') d' (hsub hd') (by rw [htag', htag'', htag])

/-- A registry is sorted, and its index holds every tag of a component and no other. -/
structure Kept (r : Registry) : Prop where
  sorted : r.Sorted
  indexSound : r.IndexSound
  indexed : r.Indexed

/-- As long as tags stay apart, an episode keeps the tag index complete and sound. -/
theorem Kept.apply {r : Registry} (h : r.Kept) {e : Episode} (happart : r.TagsApart)
    (happart' : (e.apply r).TagsApart) : (e.apply r).Kept := by
  obtain ⟨hsorted, hsound, hindexed⟩ := h
  cases e with
  | change op =>
    exact ⟨hsorted.apply op, hsound.apply hsorted op, hindexed.apply hsorted happart happart'⟩
  | record reading =>
    have hrecord : (r.recordReading reading).IsRecordOf r := .inr ⟨reading, rfl⟩
    exact ⟨hrecord.sorted hsorted, hrecord.indexSound hsound, hrecord.indexed hindexed⟩

/-- Where tags stay apart, the tag index is complete and sound in the end. -/
theorem kept_ofEpisodes {es : List Episode} (h : TagsStayApart es) : (ofEpisodes es).Kept := by
  induction es using List.reverseRecOn with
  | nil =>
    exact ⟨List.Pairwise.nil, fun t n hlookup => (nomatch hlookup), fun c hc => (nomatch hc)⟩
  | append_singleton es e ih =>
    have hbefore : es <+: es ++ [e] := List.prefix_append es [e]
    have hstep := (ih fun before hpre => h before (hpre.trans hbefore)).apply (e := e)
      (h es hbefore)
    rw [← ofEpisodes_concat] at hstep
    exact hstep (h _ List.prefix_rfl)

/-- What is registered decides what compiling and checking come to. Where no two components with
different names ever carry one tag at the same time, and the same is registered under every name in
the end, it does not matter what happened before, nor what the compilers have in their caches. -/
theorem outcomes_eq_of_content {es es' : List Episode} (h : TagsStayApart es)
    (h' : TagsStayApart es')
    (hsame : ∀ name, ((ofEpisodes es).get? name).map Component.content =
      ((ofEpisodes es').get? name).map Component.content)
    {cache cache' : Option ParseCache} (hcache : ∀ k ∈ cache, k.Faithful (ofEpisodes es).components)
    (hcache' : ∀ k ∈ cache', k.Faithful (ofEpisodes es').components) (workers : Nat) :
    Interchangeable workers cache cache' (ofEpisodes es) (ofEpisodes es') := by
  obtain ⟨hsorted, hsound, hindexed⟩ := kept_ofEpisodes h
  obtain ⟨hsorted', hsound', hindexed'⟩ := kept_ofEpisodes h'
  have hpair : Counterparts (ofEpisodes es).components (ofEpisodes es').components cache cache'
      (ofEpisodes es) (ofEpisodes es') :=
    ⟨alike_of_content hsorted hsorted' hsound hsound' hindexed hindexed' hsame, hsorted, hsorted',
      .of_nodup (hsorted.imp ne_of_lt), .of_nodup (hsorted'.imp ne_of_lt),
      fun _ => Component.isKnown_of_mem, fun _ => Component.isKnown_of_mem, hcache, hcache'⟩
  exact hpair.interchangeable workers

/-! #### Two histories of the same -/

/-- A card and a page that uses it, with a note that does not stay. -/
def settled : List Episode :=
  [.change (.register { name := "Card", template := "<p>hi</p>", hash := "1" }),
   .change (.register { name := "Note", template := "<w-page></w-page>", file := "note.html" }),
   .change (.register { name := "Page", template := "<w-card></w-card>", uses := ["Note"] }),
   .change (.removeAt "note.html")]

/-- The same card and page, after the page was registered first and read with another card. -/
def unsettled : List Episode :=
  [.change (.register { name := "Page", template := "<w-card></w-card>" }),
   .change (.register { name := "Card", template := "<w-page></w-page>" }),
   .record (Reading.all { cache := none }
     [{ name := "Card", template := "<w-page></w-page>" },
      { name := "Page", template := "<w-card></w-card>" }]),
   .change (.remove "Card"),
   .change (.register { name := "Card", template := "<p>hi</p>" })]

/-- A card whose template ends too early. -/
def unclosedCard : Component :=
  { name := "Card", tag := "w-card", template := "<p>", file := "card.html" }

/-- A page whose template closes what it has not opened. -/
def closingPage : Component :=
  { name := "Page", tag := "w-page", template := "</p>", file := "page.html" }

/-- The card and the page, registered in either order. -/
def unreadable (pageFirst : Bool) : List Operation :=
  if pageFirst then [.register closingPage, .register unclosedCard]
  else [.register unclosedCard, .register closingPage]

/-- The components of both histories are the same two, in the order of their names. -/
theorem components_unreadable (pageFirst : Bool) :
    (ofHistory (unreadable pageFirst)).components = [unclosedCard, closingPage] := by
  cases pageFirst <;> decide

/-- The two components of both histories have different tags throughout. -/
theorem tagsStayApart_unreadable (pageFirst : Bool) :
    TagsStayApart ((unreadable pageFirst).map .change) :=
  tagsStayApart_of_added (by cases pageFirst <;> decide)

/-- What is wrong with the card is not what is wrong with the page. -/
theorem exists_parseTemplate_unreadable :
    ∃ p q, Reading.parseTemplate unclosedCard = .error p ∧
      Reading.parseTemplate closingPage = .error q ∧ p ≠ q := by
  have hcard : (Reading.failureOf unclosedCard).map (·.2.parse?.map Prod.snd) =
      [some "unclosed tag <p>"] := by decide +kernel
  have hpage : (Reading.failureOf closingPage).map (·.2.parse?.map Prod.snd) =
      [some "unexpected closing tag </p>"] := by decide +kernel
  obtain ⟨f, hf, hfault⟩ := List.map_eq_singleton_iff.1 hcard
  obtain ⟨g, hg, hfault'⟩ := List.map_eq_singleton_iff.1 hpage
  refine ⟨f.2, g.2, Reading.parseTemplate_of_mem_failureOf (hf ▸ List.mem_singleton_self f),
    Reading.parseTemplate_of_mem_failureOf (hg ▸ List.mem_singleton_self g), fun heq => ?_⟩
  rw [heq, hfault'] at hfault
  exact absurd hfault (by decide)

/-- Two workers may have the card or the page refused, whichever was registered first. -/
theorem compilesTo_unreadable (pageFirst : Bool) {p q : Problem}
    (hcard : Reading.parseTemplate unclosedCard = .error p)
    (hpage : Reading.parseTemplate closingPage = .error q) :
    CompilesTo 2 none (ofHistory (unreadable pageFirst)) "Card" false ["Card"] (.error p) ∧
      CompilesTo 2 none (ofHistory (unreadable pageFirst)) "Card" false ["Page"] (.error q) := by
  have hcomponents := components_unreadable pageFirst
  have hroot : (ofHistory (unreadable pageFirst)).lookup? "Card" = some unclosedCard := by
    refine lookup?_of_get? ?_
    rw [get?, hcomponents]
    rfl
  exact compilesTo_either hcomponents hroot hcard hpage

/-- A compiler with a fresh cache and one without any are interchangeable on the first two
histories, and compilers without caches are on the other two. There, two orders give the problems of
two templates. -/
theorem outcomes_settled_eq :
    (∀ workers, Interchangeable workers (some (.ofSize 8)) none (ofEpisodes settled)
      (ofEpisodes unsettled)) ∧
    Interchangeable 2 none none (ofEpisodes ((unreadable false).map .change))
      (ofEpisodes ((unreadable true).map .change)) ∧
    ∃ p q, p ≠ q ∧ (ofHistory (unreadable false)).Unreadable p ∧
      (ofHistory (unreadable true)).Unreadable q ∧
      CompilesTo 2 none (ofHistory (unreadable false)) "Card" false ["Card"] (.error p) ∧
      CompilesTo 2 none (ofHistory (unreadable true)) "Card" false ["Page"] (.error q) := by
  have hapart : TagsStayApart settled := tagsStayApart_of_added (by decide)
  have hapart' : TagsStayApart unsettled := tagsStayApart_of_added (by decide)
  have hcontents : (ofEpisodes settled).components.map Component.content =
      (ofEpisodes unsettled).components.map Component.content := by decide
  have hfresh : ∀ k ∈ some (ParseCache.ofSize 8), k.Faithful (ofEpisodes settled).components := by
    rintro k ⟨⟩
    exact ParseCache.faithful_ofSize 8 _
  have hnone : ∀ cs, ∀ k ∈ (none : Option ParseCache), k.Faithful cs := fun _ _ hk => nomatch hk
  have hunreadable : Interchangeable 2 none none (ofEpisodes ((unreadable false).map .change))
      (ofEpisodes ((unreadable true).map .change)) := by
    refine outcomes_eq_of_content (tagsStayApart_unreadable false) (tagsStayApart_unreadable true)
      (content_get?_congr ?_) (hnone _) (hnone _) 2
    rw [ofEpisodes_map_change, ofEpisodes_map_change, components_unreadable, components_unreadable]
  refine ⟨fun workers => ?_, hunreadable, ?_⟩
  · exact outcomes_eq_of_content hapart hapart' (content_get?_congr hcontents) hfresh (hnone _)
      workers
  · obtain ⟨p, q, hcard, hpage, hne⟩ := exists_parseTemplate_unreadable
    have hfirst := (compilesTo_unreadable false hcard hpage).1
    have hsecond := (compilesTo_unreadable true hcard hpage).2
    rw [ofEpisodes_map_change, ofEpisodes_map_change] at hunreadable
    -- The outcomes differ, so each of them is the problem of a template that cannot be read.
    rcases hunreadable.compilesTo_agree _ _ _ _ _ _ hfirst hsecond with
      heq | ⟨-, -, p', q', hp, hq, heq, heq'⟩
    · exact absurd (Except.error.inj heq) hne
    · obtain rfl := Except.error.inj heq
      obtain rfl := Except.error.inj heq'
      exact ⟨p, q, hne, hp, hq, hfirst, hsecond⟩

/-- With two workers the problem that compiling gives is not decided by what is registered. -/
theorem not_outcomes_eq_of_content :
    ¬∀ ops ops' : List Operation, TagsStayApart (ops.map .change) →
      TagsStayApart (ops'.map .change) →
      (∀ name, ((ofHistory ops).get? name).map Component.content =
        ((ofHistory ops').get? name).map Component.content) →
      ∀ workers root order order' outcome outcome',
        CompilesTo workers none (ofHistory ops) root false order outcome →
        CompilesTo workers none (ofHistory ops') root false order' outcome' →
        outcome = outcome' := by
  intro h
  obtain ⟨p, q, hcard, hpage, hne⟩ := exists_parseTemplate_unreadable
  have hsame : ∀ name, ((ofHistory (unreadable false)).get? name).map Component.content =
      ((ofHistory (unreadable true)).get? name).map Component.content :=
    content_get?_congr (by rw [components_unreadable, components_unreadable])
  have heq :=
    h _ _ (tagsStayApart_unreadable false) (tagsStayApart_unreadable true) hsame 2 "Card" _ _
    _ _ (compilesTo_unreadable false hcard hpage).1 (compilesTo_unreadable true hcard hpage).2
  exact hne (Except.error.inj heq)

end Registry

end ViewCompiler
