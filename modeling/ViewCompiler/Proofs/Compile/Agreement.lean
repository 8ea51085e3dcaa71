import ViewCompiler.Compile.Check
import ViewCompiler.Proofs.Compile.Usage
import ViewCompiler.Proofs.Scope.Change
import ViewCompiler.Proofs.Scope.Refusal

/-!
# Checking and compiling agree

A check reports no error exactly when every registered component compiles
(`check_clean_iff_forall_compile`), although the two go about it differently. Both succeed exactly
when every template can be read, every component can be laid out and every style sheet can be read
(`findings_eq_nil_iff`, `forall_compile_iff`): a component that can be laid out leads to no cycle,
the change maps of a layout can always be computed, and the style sheet of a component is among
those of its own layout.

What a check finds is a list (`findings`): the templates that cannot be read or, where all of them
can, the style sheets and layouts that fail. The collector only translates these findings into
diagnostics, so a check is clean exactly if the list is empty.

To compile one component all templates are read, and then only what the component leads to is laid
out and styled. So compiling one component says nothing about the others, and the statement is about
all of them at once. In one direction a clean check gives a layout of every component, and the style
sheets of a layout are among those of the registry. In the other, a component that compiles is laid
out itself, and its own style sheet is one of those that are scoped.

A check goes on where compiling stops. Problems with different templates are therefore never weighed
against each other here: it matters only whether there are any.
-/

namespace ViewCompiler

/-! ### Style sheets -/

/-- The style sheet of a component can be read, if it has one. -/
def Component.HasReadableStyle (c : Component) : Prop :=
  c.style = "" ∨ ∃ rules, Style.parse c.style = .ok rules

/-- Whether a style sheet can be confined depends on its text alone. -/
theorem Style.exists_encapsulate_iff (css host : String) (id : Int)
    (childTag? : String → Option String) :
    (∃ confined, encapsulate css host id childTag? = .ok confined) ↔
      ∃ rules, parse css = .ok rules := by
  unfold encapsulate
  constructor
  · rintro ⟨_, h⟩
    obtain ⟨rules, hrules, -⟩ := bind_eq_ok_iff.1 h
    exact ⟨rules, hrules⟩
  · rintro ⟨rules, hrules⟩
    exact ⟨_, bind_eq_ok_iff.2 ⟨rules, hrules, rfl⟩⟩

namespace Registry

variable {reg : Registry}

/-- A style sheet has no problem exactly if it can be read. -/
theorem styleProblem?_eq_none_iff {c : Component} :
    reg.styleProblem? c = none ↔ c.HasReadableStyle := by
  unfold styleProblem? Component.HasReadableStyle
  by_cases hstyle : c.style = ""
  · simp [hstyle]
  · rw [if_neg hstyle, ← Style.exists_encapsulate_iff c.style c.tag 0 reg.tag?]
    cases Style.encapsulate c.style c.tag 0 reg.tag? with
    | error e => simp [hstyle]
    | ok css => simp

/-- The problem of a style sheet denies no tag. -/
private theorem not_denies_styleProblem? {c : Component} {p : Problem}
    (h : reg.styleProblem? c = some p) (tag : String) : ¬p.Denies tag := by
  unfold styleProblem? at h
  split at h
  · cases h
  · split at h
    · obtain rfl := Option.some.inj h
      exact Problem.not_denies_of_unresolved? rfl tag
    · cases h

/-- The style sheets of some components can be confined exactly when each of them can be read. -/
theorem exists_scopedStyles_iff {id : Nat} {names : List String} :
    (∃ styles, reg.scopedStyles id names = .ok styles) ↔
      ∀ name ∈ names, ∀ c, reg.get? name = some c → c.HasReadableStyle := by
  induction names generalizing id with
  | nil => simp [scopedStyles]
  | cons name names ih =>
    rw [List.forall_mem_cons, scopedStyles]
    cases hget : reg.get? name with
    | none => simp [ih]
    | some c =>
      simp only [Option.some.injEq, forall_eq']
      by_cases hstyle : c.style = ""
      · rw [if_pos hstyle, ih]
        exact (and_iff_right (.inl hstyle)).symm
      · have hreadable := Style.exists_encapsulate_iff c.style c.tag id reg.tag?
        rw [if_neg hstyle, Component.HasReadableStyle, or_iff_right hstyle, ← hreadable,
          ← @ih (id + 1)]
        cases Style.encapsulate c.style c.tag id reg.tag? with
        | error e => simp
        | ok css =>
          cases reg.scopedStyles (id + 1) names with
          | error p => simp
          | ok styles => simp

end Registry

/-! ### Layouts -/

/-- The root of a tree is one of its components. -/
theorem Tree.name_mem_componentNames {lib : Library} {firstId : Nat} {root : Option Definition}
    {t : Tree} (h : Tree.build lib firstId root = .ok t) :
    ∃ d, root = some d ∧ d.name ∈ t.componentNames := by
  obtain ⟨d, m, content, hd, -, -, hroot⟩ :=
    Scope.exists_laid_of_ofDefinition (Tree.build_eq_ok_iff.1 h).1
  refine ⟨d, hd, ?_⟩
  have hplaced : (⟨t.root, [t.root.frame]⟩ : Placed) ∈ t.scopes := by
    rw [Tree.scopes, Scope.placed, Scope.placedIn_eq]
    exact List.mem_cons_self
  have hframe : t.root.frame = ⟨firstId, d.name, .component m, []⟩ := by
    rw [hroot]
    rfl
  rw [componentNames, Text.mem_sortedSet]
  refine List.mem_map.2 ⟨_, List.mem_filter.2 ⟨hplaced, ?_⟩, ?_⟩
  · simp [Placed.frame, hframe, Frame.kind, Role.kind]
  · simp [Placed.frame, hframe]

namespace Registry

variable {reg : Registry} {r : Reading} {c : Component}

/-- A component that can be laid out leads to no cycle. -/
private theorem cycleFrom?_eq_none_of_build {t : Tree}
    (h : Tree.build (reg.library r) 0 (r.definition? c) = .ok t) :
    (reg.recordReading r).usage.cycleFrom? c.name = none := by
  obtain ⟨d, m, content, hd, -, hlaid, -⟩ :=
    Scope.exists_laid_of_ofDefinition (Tree.build_eq_ok_iff.1 h).1
  obtain ⟨htemplate, hname, -⟩ := Reading.definition?_eq_some_iff.1 hd
  refine cycleFrom?_eq_none_of_lays ⟨d.template, d.name, 0, 0 + 1, content, htemplate, ?_⟩
  rw [← hname]
  exact hlaid

/-- Recording a reading leaves the style sheets as they are. -/
theorem exists_scopedStyles_recordReading_iff {id : Nat} {names : List String} :
    (∃ styles, (reg.recordReading r).scopedStyles id names = .ok styles) ↔
      ∀ name ∈ names, ∀ c, reg.get? name = some c → c.HasReadableStyle := by
  rw [exists_scopedStyles_iff]
  refine forall₂_congr fun name _ => ?_
  rw [get?_recordReading]
  constructor
  · intro h c hc
    exact h (reg.recorded r c) (by rw [hc]; rfl)
  · intro h c hc
    obtain ⟨c', hc', rfl⟩ := Option.map_eq_some_iff.1 hc
    exact h c' hc'

/-- What a layout consists of. -/
theorem of_layOut_eq_ok {result : Compilation} (h : reg.layOut r c = .ok result) :
    Tree.build (reg.library r) 0 (r.definition? c) = .ok result.tree ∧
      result.tree.changes = .ok result.changes ∧
      reg.scopedStyles result.tree.nextId result.tree.componentNames = .ok result.styles := by
  unfold layOut at h
  split at h
  · cases h
  · obtain ⟨-, -, h⟩ := bind_eq_ok_iff.1 h
    obtain ⟨t, ht, h⟩ := bind_eq_ok_iff.1 h
    obtain ⟨changes, hchanges, h⟩ := bind_eq_ok_iff.1 h
    obtain ⟨styles, hstyles, h⟩ := bind_eq_ok_iff.1 h
    obtain rfl : _ = result := Except.ok.inj h
    exact ⟨mapError_eq_ok_iff.1 ht, mapError_eq_ok_iff.1 hchanges, hstyles⟩

/-- A root is compiled exactly when it can be laid out and the style sheets in its layout can be
read. -/
theorem exists_layOut_iff :
    (∃ result, (reg.recordReading r).layOut r c = .ok result) ↔
      ∃ t, Tree.build (reg.library r) 0 (r.definition? c) = .ok t ∧
        ∀ name ∈ t.componentNames, ∀ d, reg.get? name = some d → d.HasReadableStyle := by
  constructor
  · rintro ⟨result, h⟩
    obtain ⟨ht, -, hstyles⟩ := of_layOut_eq_ok h
    rw [library_recordReading] at ht
    exact ⟨_, ht, exists_scopedStyles_recordReading_iff.1 ⟨_, hstyles⟩⟩
  · rintro ⟨t, ht, hreadable⟩
    obtain ⟨styles, hstyles⟩ :
        ∃ styles, (reg.recordReading r).scopedStyles t.nextId t.componentNames = .ok styles :=
      exists_scopedStyles_recordReading_iff.2 hreadable
    obtain ⟨changes, hchanges⟩ : ∃ changes, t.changes = .ok changes := ⟨_, Tree.changes_eq ht⟩
    rw [layOut, cycleFrom?_eq_none_of_build ht, library_recordReading, ht]
    refine ⟨⟨c.name, t, changes, styles⟩, bind_eq_ok_iff.2 ⟨t, rfl, ?_⟩⟩
    refine bind_eq_ok_iff.2 ⟨changes, mapError_eq_ok_iff.2 hchanges, ?_⟩
    exact bind_eq_ok_iff.2 ⟨styles, hstyles, rfl⟩

/-- Whatever is used is registered. -/
private theorem mem_names_of_reaches {a b : String} (h : (reg.recordReading r).usage.Reaches a b) :
    b ∈ reg.names := by
  obtain ⟨a', hedge⟩ := h.exists_edge
  obtain ⟨-, -, tag, c, -, -, hlookup, rfl⟩ := edge_recordReading_iff.1 hedge
  exact List.mem_map_of_mem (mem_of_lookup? hlookup)

/-- What is wrong with a component as a root is what keeps it from being laid out. Nothing is
reported of a component that was not read or that leads to one. -/
theorem layoutProblem?_eq_some_iff {p : Problem} :
    (reg.recordReading r).layoutProblem? r (reg.recorded r c) = some p ↔
      r.has c.name = true ∧ (∀ b, (reg.recordReading r).usage.Reaches c.name b → r.has b = true) ∧
        Tree.build (reg.library r) 0 (r.definition? c) = .error p := by
  have hskip :
      ¬(!r.has c.name || ((reg.recordReading r).usage.reachable c.name).any (!r.has ·)) = true ↔
        r.has c.name = true ∧ ∀ b, (reg.recordReading r).usage.Reaches c.name b →
          r.has b = true := by
    simp [← Graph.mem_reachable_iff]
  have hdefinition : r.definition? (reg.recorded r c) = r.definition? c := rfl
  have hname : (reg.recorded r c).name = c.name := rfl
  rw [layoutProblem?, library_recordReading, hdefinition, hname, ← and_assoc, ← hskip]
  split
  · rename_i h
    simp [h]
  · rename_i h
    rw [and_iff_right h]
    cases hbuild : Tree.build (reg.library r) 0 (r.definition? c) with
    | error p => simp [bind, Except.bind]
    | ok t => simp [bind, Except.bind, Tree.changes_eq hbuild]

/-- Where every template was read, a check finds nothing wrong with exactly the components that can
be laid out. -/
theorem layoutProblem?_eq_none_iff (hread : ∀ name ∈ reg.names, r.has name = true)
    (hc : c ∈ reg.components) :
    (reg.recordReading r).layoutProblem? r (reg.recorded r c) = none ↔
      ∃ t, Tree.build (reg.library r) 0 (r.definition? c) = .ok t := by
  have hname : r.has c.name = true := hread c.name (List.mem_map_of_mem hc)
  have hreached : ∀ b, (reg.recordReading r).usage.Reaches c.name b → r.has b = true :=
    fun b hb => hread b (mem_names_of_reaches hb)
  rw [Option.eq_none_iff_forall_ne_some]
  simp only [ne_eq, layoutProblem?_eq_some_iff, hname, true_and]
  cases Tree.build (reg.library r) 0 (r.definition? c) with
  | error p => simpa using hreached
  | ok t => simp

/-- A tag that is denied while a component is laid out refers to nothing: what the component leads
to has all been read. -/
private theorem lookup?_eq_none_of_layoutProblem? (hc : c ∈ reg.components) {p : Problem}
    {tag : String}
    (h : (reg.recordReading r).layoutProblem? r (reg.recorded r c) = some p) (hp : p.Denies tag) :
    reg.lookup? tag = none := by
  obtain ⟨hread, hreached, hbuild⟩ := layoutProblem?_eq_some_iff.1 h
  obtain ⟨nodes, hnodes⟩ := Reading.has_eq_true_iff.1 hread
  rw [Reading.definition?_of_lookup hnodes] at hbuild
  -- The build comes to no tag but those of components that the root leads to.
  have hdenied := Tree.denied_of_build (P := fun tag => ∀ c', reg.lookup? tag = some c' →
    (reg.recordReading r).usage.Reaches c.name c'.name) ?_ ?_ hbuild hp
  · obtain ⟨hleads, hfind⟩ := hdenied
    refine Option.eq_none_iff_forall_ne_some.2 fun c' hlookup => ?_
    obtain ⟨nodes', hnodes'⟩ := Reading.has_eq_true_iff.1 (hreached _ (hleads c' hlookup))
    rw [find?_library_of_lookup? hlookup, Reading.definition?_of_lookup hnodes'] at hfind
    cases hfind
  · intro outer d hleads hfind inner hinner c'' hlookup
    obtain ⟨c', hlookup', hd'⟩ := Option.bind_eq_some_iff.1 hfind
    obtain ⟨htemplate, -, -⟩ := Reading.definition?_eq_some_iff.1 hd'
    refine (hleads c' hlookup').trans (.edge (edge_recordReading_iff.2 ?_))
    exact ⟨List.mem_map_of_mem (mem_of_lookup? hlookup'), _, inner, c'', htemplate, hinner, hlookup,
      rfl⟩
  · intro inner hinner c' hlookup
    refine .edge (edge_recordReading_iff.2 ?_)
    exact ⟨List.mem_map_of_mem hc, _, inner, c', hnodes, hinner, hlookup, rfl⟩

end Registry

/-! ### Findings -/

/-- A problem found in a component, with the file it is reported for. -/
structure Finding where
  component : String
  file : String
  problem : Problem

/-- The diagnostic of a finding. -/
def Finding.diagnostic (f : Finding) : Diagnostic := .ofProblem f.component f.file f.problem

/-- The finding of a problem, if there is one. -/
def Finding.ofProblem? (component file : String) (p : Option Problem) : List Finding :=
  (p.map fun p => ⟨component, file, p⟩).toList

private theorem Finding.ofProblem?_eq_nil_iff {component file : String} {p : Option Problem} :
    Finding.ofProblem? component file p = [] ↔ p = none := by
  cases p <;> simp [Finding.ofProblem?]

private theorem Finding.mem_ofProblem? {component file : String} {p : Option Problem} {f : Finding}
    (h : f ∈ Finding.ofProblem? component file p) : p = some f.problem := by
  cases p with
  | none => cases h
  | some p =>
    obtain rfl := List.mem_singleton.1 h
    rfl

/-- What is found while the templates are read. -/
def Registry.unread (reg : Registry) (r : Reading) : List Finding :=
  reg.components.flatMap fun c => Finding.ofProblem? c.name c.file (r.failures.lookup c.name)

/-- What is found while the components are laid out one by one. -/
def Registry.misfits (reg : Registry) (r : Reading) : List Finding :=
  reg.components.flatMap fun c =>
    Finding.ofProblem? c.name c.stylePath (reg.styleProblem? c) ++
      Finding.ofProblem? c.name c.file (reg.layoutProblem? r c)

/-- Everything that a check of a registry finds, in the order in which it is found. -/
def findings (cache : Option ParseCache) (reg : Registry) : List Finding :=
  let r := Reading.all { cache } reg.components
  reg.unread r ++ (reg.recordReading r).misfits r

namespace Collector

private theorem addProblem_eq (found : Collector) (component file : String) (p : Option Problem) :
    found.addProblem component file p =
      ⟨found.diagnostics ++ (Finding.ofProblem? component file p).map Finding.diagnostic⟩ := by
  cases p with
  | none => simp [addProblem, Finding.ofProblem?]
  | some p => rfl

/-- Collecting component by component collects all findings. -/
theorem foldl_eq {step : Collector → Component → Collector} {found? : Component → List Finding}
    (h : ∀ found c, step found c = ⟨found.diagnostics ++ (found? c).map Finding.diagnostic⟩)
    (found : Collector) (cs : List Component) :
    cs.foldl step found = ⟨found.diagnostics ++ (cs.flatMap found?).map Finding.diagnostic⟩ := by
  induction cs generalizing found with
  | nil => simp
  | cons c cs ih => simp [ih, h]

theorem foldl_unread (reg : Registry) (r : Reading) (found : Collector) :
    reg.components.foldl (fun found c => found.addProblem c.name c.file (r.failures.lookup c.name))
      found = ⟨found.diagnostics ++ (reg.unread r).map Finding.diagnostic⟩ := by
  refine foldl_eq (fun found c => ?_) found reg.components
  exact addProblem_eq found c.name c.file (r.failures.lookup c.name)

theorem foldl_misfits (reg : Registry) (r : Reading) (found : Collector) :
    reg.components.foldl
      (fun found c =>
        (found.addProblem c.name c.stylePath (reg.styleProblem? c)).addProblem c.name c.file
          (reg.layoutProblem? r c)) found =
      ⟨found.diagnostics ++ (reg.misfits r).map Finding.diagnostic⟩ := by
  refine foldl_eq (fun found c => ?_) found reg.components
  rw [addProblem_eq, addProblem_eq, List.map_append, List.append_assoc]

/-- A check has no errors exactly if nothing was found. -/
theorem hasErrors_map_diagnostic {fs : List Finding} :
    (⟨fs.map Finding.diagnostic⟩ : Collector).hasErrors = false ↔ fs = [] := by
  have hseverity : ∀ f : Finding, f.diagnostic.severity = .error := by
    intro f
    unfold Finding.diagnostic Diagnostic.ofProblem
    split <;> rfl
  cases fs with
  | nil => simp [hasErrors]
  | cons f fs => simp [hasErrors, hseverity, Severity.isError]

end Collector

/-- A check reports the diagnostics of all findings, unless the reading is aborted. -/
theorem outcome_check_eq_ok_iff {cache : Option ParseCache} {reg : Registry} {found : Collector} :
    (check cache reg false).outcome = .ok found ↔
      (∀ name, (name, .abort) ∉ (Reading.all { cache } reg.components).failures) ∧
        found = ⟨(findings cache reg).map Finding.diagnostic⟩ := by
  unfold check
  rw [Bool.false_and, if_neg Bool.false_ne_true]
  simp only [Registry.checked]
  generalize hr : Reading.all { cache } reg.components = r
  split
  · rename_i haborted
    obtain ⟨⟨name, p⟩, hmem, hp⟩ := List.any_eq_true.1 haborted
    obtain rfl := Problem.isAbort_eq_true_iff.1 hp
    exact iff_of_false (fun h => by cases h) fun h => h.1 name hmem
  · rename_i haborted
    have hread : ∀ name, (name, .abort) ∉ r.failures := fun name hmem =>
      haborted (List.any_eq_true.2 ⟨_, hmem, rfl⟩)
    have hfound : findings cache reg = reg.unread r ++ (reg.recordReading r).misfits r := by
      rw [findings, hr]
    rw [Collector.foldl_unread, Collector.foldl_misfits, and_iff_right hread, hfound,
      List.map_append, Except.ok.injEq]
    exact eq_comm

private theorem Reading.not_denies_of_parseTemplate {c : Component} {p : Problem}
    (h : parseTemplate c = .error p) (tag : String) : ¬p.Denies tag := by
  unfold parseTemplate at h
  split at h
  · cases h
  · obtain rfl := Except.error.inj h
    exact Problem.not_denies_of_unresolved? rfl tag
  · obtain rfl := Except.error.inj h
    exact Problem.not_denies_of_unresolved? rfl tag

/-! ### Agreement -/

section Agreement

variable {cache : Option ParseCache} {reg : Registry} {r : Reading}
  (hr : Reading.all { cache } reg.components = r)
include hr

/-- Every template that cannot be read is reported. -/
theorem unread_eq_nil_iff : reg.unread r = [] ↔ r.failures = [] := by
  simp only [Registry.unread, List.flatMap_eq_nil_iff, Finding.ofProblem?_eq_nil_iff]
  constructor
  · intro h
    rw [List.eq_nil_iff_forall_not_mem]
    rintro ⟨name, p⟩ hmem
    rw [← hr] at hmem
    obtain hmem' | ⟨c, hc, rfl, -⟩ := Reading.exists_of_mem_failures_all hmem
    · cases hmem'
    · have hnone := List.lookup_eq_none_iff.1 (h c hc) _ (hr ▸ hmem)
      simp at hnone
  · intro h c _
    rw [h]
    rfl

/-- Nothing is wrong with any component exactly if each has a readable style sheet and can be
built. -/
theorem misfits_eq_nil_iff (hread : r.failures = []) :
    (reg.recordReading r).misfits r = [] ↔ ∀ c ∈ reg.components,
      c.HasReadableStyle ∧ ∃ t, Tree.build (reg.library r) 0 (r.definition? c) = .ok t := by
  have hhas : ∀ name ∈ reg.names, r.has name = true := by
    intro name hname
    obtain ⟨c, hc, rfl⟩ := List.mem_map.1 hname
    subst hr
    exact Reading.has_all_of_failures_eq_nil hread hc
  rw [Registry.misfits, Registry.components_recordReading, List.flatMap_map,
    List.flatMap_eq_nil_iff]
  refine forall₂_congr fun c hc => ?_
  rw [List.append_eq_nil_iff, Finding.ofProblem?_eq_nil_iff, Finding.ofProblem?_eq_nil_iff,
    Registry.styleProblem?_eq_none_iff, Registry.layoutProblem?_eq_none_iff hhas hc]
  rfl

/-- A check finds nothing exactly when every template and every style sheet can be read and every
component can be laid out. -/
theorem findings_eq_nil_iff :
    findings cache reg = [] ↔ r.failures = [] ∧ ∀ c ∈ reg.components,
      c.HasReadableStyle ∧ ∃ t, Tree.build (reg.library r) 0 (r.definition? c) = .ok t := by
  rw [findings, hr, List.append_eq_nil_iff, unread_eq_nil_iff hr]
  exact and_congr_right (misfits_eq_nil_iff hr)

/-- A root compiles exactly when every template can be read, the root can be laid out, and the style
sheets in its layout can be read. -/
theorem exists_outcome_compile_iff {name : String} {c : Component}
    (hc : reg.lookup? name = some c) :
    (∃ result, (compile cache reg name false).outcome = .ok result) ↔ r.failures = [] ∧
      ∃ t, Tree.build (reg.library r) 0 (r.definition? c) = .ok t ∧
        ∀ name ∈ t.componentNames, ∀ d, reg.get? name = some d → d.HasReadableStyle := by
  unfold compile
  simp only [hc, Bool.false_eq_true, if_false]
  by_cases hread : r.failures = []
  · have huntil : Reading.untilFailure { cache } reg.components = r :=
      (Reading.untilFailure_eq_all (hr ▸ hread)).trans hr
    rw [huntil, Registry.concluded_of_failures_eq_nil hread, and_iff_right hread]
    exact Registry.exists_layOut_iff
  · have huntil : (Reading.untilFailure { cache } reg.components).failures ≠ [] := by
      rw [Ne, Reading.failures_untilFailure_eq_nil_iff rfl, hr]
      exact hread
    exact iff_of_false
      (fun ⟨_, hresult⟩ => huntil (Registry.of_outcome_concluded_eq_ok hresult).1)
        fun h => hread h.1

/-- Every registered component compiles exactly when a check finds nothing. -/
theorem forall_compile_iff (hsorted : reg.Sorted) :
    (∀ name ∈ reg.names, ∃ result, (compile cache reg name false).outcome = .ok result) ↔
      findings cache reg = [] := by
  have hget : ∀ c ∈ reg.components, reg.get? c.name = some c := fun _ => Registry.get?_name hsorted
  have hroot : ∀ c ∈ reg.components, _ := fun c hc =>
    exists_outcome_compile_iff hr (Registry.lookup?_of_get? (hget c hc))
  rw [findings_eq_nil_iff hr]
  constructor
  · intro hcompile
    have hlaid := fun c hc => (hroot c hc).1 (hcompile c.name (List.mem_map_of_mem hc))
    refine ⟨?_, fun c hc => ?_⟩
    · cases hcomponents : reg.components with
      | nil =>
        rw [← hr, hcomponents]
        rfl
      | cons c cs => exact (hlaid c (hcomponents ▸ List.mem_cons_self)).1
    · obtain ⟨-, t, ht, hstyles⟩ := hlaid c hc
      -- The component is part of its own layout, so its style sheet was confined with the others.
      obtain ⟨d, hd, hname⟩ := Tree.name_mem_componentNames ht
      rw [(Reading.definition?_eq_some_iff.1 hd).2.1] at hname
      exact ⟨hstyles c.name hname c (hget c hc), t, ht⟩
  · rintro ⟨hread, hall⟩ name hname
    obtain ⟨c, hc, rfl⟩ := List.mem_map.1 hname
    obtain ⟨-, t, ht⟩ := hall c hc
    refine (hroot c hc).2 ⟨hread, t, ht, fun _ _ d hd => ?_⟩
    exact (hall d (Registry.mem_of_get? hd).1).1

/-- A check reports no error exactly when it finds nothing. -/
theorem check_clean_iff :
    (∃ found, (check cache reg false).outcome = .ok found ∧ found.hasErrors = false) ↔
      findings cache reg = [] := by
  constructor
  · rintro ⟨found, hfound, herrors⟩
    obtain ⟨-, rfl⟩ := outcome_check_eq_ok_iff.1 hfound
    exact Collector.hasErrors_map_diagnostic.1 herrors
  · intro hnone
    obtain ⟨hread, -⟩ := (findings_eq_nil_iff hr).1 hnone
    refine ⟨_, outcome_check_eq_ok_iff.2 ⟨?_, rfl⟩, Collector.hasErrors_map_diagnostic.2 hnone⟩
    rw [hr, hread]
    exact fun _ => List.not_mem_nil

/-- No finding denies a tag that the registry knows. -/
private theorem not_denies_of_mem_findings {f : Finding} (hf : f ∈ findings cache reg)
    {tag : String} {c : Component} (hc : reg.lookup? tag = some c) : ¬f.problem.Denies tag := by
  rw [findings, hr, List.mem_append] at hf
  rcases hf with hf | hf
  · obtain ⟨d, -, hd⟩ := List.mem_flatMap.1 hf
    obtain ⟨before, after, hfailures, -⟩ := List.lookup_eq_some_iff.1 (Finding.mem_ofProblem? hd)
    have hmem : (d.name, f.problem) ∈ r.failures := by
      rw [hfailures]
      exact List.mem_append_right _ List.mem_cons_self
    rw [← hr] at hmem
    obtain hmem | ⟨d', -, -, hparse⟩ := Reading.exists_of_mem_failures_all hmem
    · cases hmem
    · exact Reading.not_denies_of_parseTemplate hparse tag
  · rw [Registry.misfits, Registry.components_recordReading, List.flatMap_map] at hf
    obtain ⟨d, hd, hf⟩ := List.mem_flatMap.1 hf
    rcases List.mem_append.1 hf with hf | hf
    · exact Registry.not_denies_styleProblem? (Finding.mem_ofProblem? hf) tag
    · intro hdenies
      have hproblem := Finding.mem_ofProblem? hf
      have hnone := Registry.lookup?_eq_none_of_layoutProblem? hd hproblem hdenies
      rw [hc] at hnone
      cases hnone

end Agreement

/-- A check reports no error exactly when every registered component compiles, and it never denies a
tag that the registry knows. -/
theorem check_clean_iff_forall_compile {reg : Registry} (hreg : reg.Reachable)
    (cache : Option ParseCache) :
    ((∃ found, (check cache reg false).outcome = .ok found ∧ found.hasErrors = false) ↔
      ∀ name ∈ reg.names, ∃ result, (compile cache reg name false).outcome = .ok result) ∧
    ∀ found, (check cache reg false).outcome = .ok found →
      found.diagnostics = (findings cache reg).map Finding.diagnostic ∧
      ∀ f ∈ findings cache reg, ∀ tag c, reg.lookup? tag = some c → ¬f.problem.Denies tag := by
  obtain ⟨r, hr⟩ : ∃ r, Reading.all { cache } reg.components = r := ⟨_, rfl⟩
  refine ⟨?_, ?_⟩
  · rw [check_clean_iff hr, forall_compile_iff hr hreg.sorted]
  · intro found hfound
    obtain ⟨-, rfl⟩ := outcome_check_eq_ok_iff.1 hfound
    exact ⟨rfl, fun f hf tag c hc => not_denies_of_mem_findings hr hf hc⟩

/-- A page that uses a card whose template cannot be read. -/
def brokenCard : Registry :=
  (({} : Registry).register { name := "Card", template := "\x7b\x7b" }).register
    { name := "Page", template := "<Card/>" }

/-- Checking and compiling agree on the page with the broken card. -/
theorem brokenCard_agreement :
    brokenCard.Reachable ∧
    ((∃ found, (check none brokenCard false).outcome = .ok found ∧ found.hasErrors = false) ↔
      ∀ name ∈ brokenCard.names, ∃ result,
        (compile none brokenCard name false).outcome = .ok result) ∧
    ∀ found, (check none brokenCard false).outcome = .ok found →
      found.diagnostics = (findings none brokenCard).map Finding.diagnostic ∧
      ∀ f ∈ findings none brokenCard, ∀ tag c, brokenCard.lookup? tag = some c →
        ¬f.problem.Denies tag :=
  have hreachable : brokenCard.Reachable := .register _ (.register _ .empty)
  ⟨hreachable, check_clean_iff_forall_compile hreachable none⟩

end ViewCompiler
