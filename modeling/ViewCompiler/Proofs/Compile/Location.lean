import ViewCompiler.Proofs.Compile.Recursion
import ViewCompiler.Proofs.Template.Place

/-!
# Where diagnostics point

A problem with a template names a component and a position in its template (`Problem.site?`). A
check reports it for the component that it was checking, with the file of that one, which is the
file of the named component only where the two are the same (`check_locates_iff`): a name that fails
to resolve in the template of a component inside another one is found again while the outer one is
laid out, and then reported under the outer file with a position in the inner one
(`exists_misplaced_diagnostic`).

That the position lies in the template of the named component is shown for each source of problems.
A template that cannot be read has its fault within itself (`Template/Place`). A reference that does
not resolve stands at a node or at a binding of some template, and the frames around it know of
which component: the boundary of the frames is the instance, and its name is the one in the problem
(`Problem.Blames`). Other problems have no position.

Files have to be different for the equivalence, since two components in one file have the same file
whatever the check does.

The sample has a card with an undeclared name on its second line, and a page of one line that mounts
the card.
-/

namespace ViewCompiler

open ViewCompiler.Template

/-- The component that a problem with a template names, and the position in its template. -/
def Problem.site? (p : Problem) : Option (String × Position) :=
  p.chain.findSome? fun
    | parse component _ span _ => some (component, span.start)
    | unresolved reference => some (reference.component, reference.span.start)
    | _ => none

namespace Problem

private theorem site?_ofCode (detail : CodedProblem) : (ofCode detail).site? = none := by
  rw [ofCode, ite_self]
  rfl

private theorem site?_recursive (names : List String) : (recursive names).site? = none := by
  cases names with
  | nil => rfl
  | cons name names => exact site?_ofCode _

end Problem

/-! ### References point into the template of their component -/

/-- Whatever stands somewhere below a root is a node of a template, and the frames around it know
which component the template belongs to. -/
private theorem Stands.exists_template {lib : Library} {root : Definition} {fs : Frames} {n : Node}
    (h : Stands lib root fs n) :
    ∃ d, Relation.ReflTransGen lib.Uses root d ∧ d.name = fs.ownerName ∧
      n ∈ preorderForest d.template := by
  have hcontent : ∀ {nodes : List Node} {anchor n : Node}, anchor ∈ preorderForest nodes →
      n ∈ anchor.children → n ∈ preorderForest nodes := fun hanchor hn =>
    preorderForest_children_subset hanchor (mem_preorderForest.2 ⟨_, hn, .inl rfl⟩)
  induction h with
  | root id hmeta hn => exact ⟨root, .refl, rfl, mem_preorderForest.2 ⟨_, hn, .inl rfl⟩⟩
  | element _ hn ih =>
    obtain ⟨d, hd, hname, hmem⟩ := ih
    exact ⟨d, hd, hname, hcontent hmem hn⟩
  | mounted _ hf hn ih =>
    obtain ⟨d, hd, hname, hmem⟩ := ih
    cases hf with
    | @directive owner id _ _ _ directive =>
      refine ⟨d, hd, hname.trans ?_, hcontent hmem hn⟩
      cases directive <;> rfl
    | component id hfind hmeta =>
      exact ⟨_, hd.tail ⟨_, ⟨_, _, hmem⟩, hfind⟩, rfl, mem_preorderForest.2 ⟨_, hn, .inl rfl⟩⟩

/-- What a scope reads stands in the template of the component that the frames around it belong
to. -/
private theorem Placed.exists_template_of_binding {lib : Library} {firstId nextId : Nat}
    {root : Definition}
    {scope : Scope} (h : Scope.ofDefinition lib firstId (some root) = .ok (scope, nextId))
    {q : Placed} (hq : q ∈ scope.placed) {b : Binding} {fs : Frames}
    (hb : b ∈ q.ownBindings ∧ fs = q.frames ∨ b ∈ q.frame.feeds ∧ fs = q.outer) :
    ∃ d, Relation.ReflTransGen lib.Uses root d ∧ d.name = fs.ownerName ∧
      ∃ n ∈ preorderForest d.template, b ∈ n.bindings := by
  obtain ⟨n, hn, hmem⟩ : ∃ n, Stands lib root fs n ∧ b ∈ n.bindings := by
    rcases hb with ⟨hown, rfl⟩ | ⟨hfed, rfl⟩
    · obtain ⟨s, hs, hb⟩ := List.mem_flatMap.1 hown
      exact ⟨s.node, Placed.stands_of_mem_saved h hq hs, (List.mem_filter.1 hb).1⟩
    · rcases Placed.eq_or_exists_parent hq with rfl | ⟨p, hp, c, hc, rfl⟩
      · obtain ⟨d, m, content, -, -, -, rfl⟩ := Scope.exists_laid_of_ofDefinition h
        cases hfed
      · obtain ⟨s, hs, -, -, hmounts⟩ := Placed.exists_anchor h hp hc
        have hfeeds : b ∈ feedsOf s.node := hmounts.feeds_eq ▸ hfed
        exact ⟨s.node, Placed.stands_of_mem_saved h hp hs, (List.mem_filter.1 hfeeds).1⟩
  obtain ⟨d, hd, hname, hnode⟩ := hn.exists_template
  exact ⟨d, hd, hname, n, hnode, hmem⟩

/-- A build that fails at a site names a component below the root, and the position of a node or of
a binding in its template. -/
private theorem Tree.exists_template_of_site? {lib : Library} {firstId : Nat} {root : Definition}
    {p : Problem} {owner : String} {place : Position}
    (h : Tree.build lib firstId (some root) = .error p) (hsite : p.site? = some (owner, place)) :
    (∃ reference, p = .unresolved reference) ∧
    ∃ d, Relation.ReflTransGen lib.Uses root d ∧ d.name = owner ∧
      ∃ n ∈ preorderForest d.template, n.span.start = place ∨ ∃ b ∈ n.bindings,
        b.span.start = place := by
  cases hmeta : root.metadata with
  | none =>
    obtain rfl := Tree.eq_of_build_of_metadata_eq_none h hmeta
    rw [Problem.site?_ofCode] at hsite
    cases hsite
  | some m =>
    rcases Tree.refused_or_blamed_of_build hmeta h with hrefused | ⟨scope, nextId, hlaid, q, hq, hb⟩
    · cases hrefused with
      | unknown hd hnode hfind =>
        obtain ⟨rfl, rfl⟩ := Prod.mk.inj (Option.some.inj hsite)
        exact ⟨⟨_, rfl⟩, _, hd, rfl, _, hnode, .inl rfl⟩
      | bare =>
        rw [Problem.site?_ofCode] at hsite
        cases hsite
      | recursive =>
        rw [Problem.site?_recursive] at hsite
        cases hsite
    · obtain ⟨b, fs, hread, reference, rfl, hcomponent, hspan, -⟩ : ∃ b fs,
          (b ∈ q.ownBindings ∧ fs = q.frames ∨ b ∈ q.frame.feeds ∧ fs = q.outer) ∧
            p.Blames b fs := by
        rcases hb with ⟨b, hown, hblames⟩ | ⟨b, hfed, hblames⟩
        · exact ⟨b, _, .inl ⟨hown, rfl⟩, hblames⟩
        · exact ⟨b, _, .inr ⟨hfed, rfl⟩, hblames⟩
      obtain ⟨rfl, rfl⟩ := Prod.mk.inj (Option.some.inj hsite)
      obtain ⟨d, hd, hname, n, hn, hmem⟩ := Placed.exists_template_of_binding hlaid hq hread
      exact ⟨⟨_, rfl⟩, d, hd, hname.trans hcomponent.symm, n, hn, .inr ⟨b, hmem, by rw [hspan]⟩⟩

/-! ### Findings -/

private theorem Finding.of_mem_ofProblem? {component file : String} {p : Option Problem}
    {f : Finding} (h : f ∈ Finding.ofProblem? component file p) :
    p = some f.problem ∧ f.component = component ∧ f.file = file := by
  cases p with
  | none => cases h
  | some p =>
    obtain rfl := List.mem_singleton.1 h
    exact ⟨rfl, rfl, rfl⟩

/-- A problem with a style sheet has no site. -/
private theorem Registry.site?_styleProblem? {reg : Registry} {c : Component} {p : Problem}
    (h : reg.styleProblem? c = some p) : p.site? = none := by
  unfold styleProblem? at h
  split at h
  · cases h
  · split at h
    · obtain rfl := Option.some.inj h
      rfl
    · cases h

/-- A finding that has a site is a template of the checked component that cannot be read, or an
unresolved reference found while it was laid out. -/
private theorem exists_of_mem_findings {cache : Option ParseCache} {reg : Registry} {r : Reading}
    (hr : Reading.all { cache } reg.components = r) {f : Finding} (hf : f ∈ findings cache reg)
    {owner : String} {place : Position} (hsite : f.problem.site? = some (owner, place)) :
    ∃ c ∈ reg.components, f.component = c.name ∧ f.file = c.file ∧
      ((∃ d ∈ reg.components, d.name = c.name ∧ Reading.parseTemplate d = .error f.problem) ∨
        ∃ d, r.definition? c = some d ∧
          Tree.build (reg.library r) 0 (some d) = .error f.problem) := by
  rw [findings, hr, List.mem_append] at hf
  rcases hf with hf | hf
  · obtain ⟨c, hc, hproblem⟩ := List.mem_flatMap.1 hf
    obtain ⟨hlookup, hcomponent, hfile⟩ := Finding.of_mem_ofProblem? hproblem
    obtain ⟨before, after, hfailures, -⟩ := List.lookup_eq_some_iff.1 hlookup
    have hmem : (c.name, f.problem) ∈ (Reading.all { cache } reg.components).failures := by
      rw [hr, hfailures]
      exact List.mem_append_right _ List.mem_cons_self
    obtain hmem | ⟨d, hd, hname, hparse⟩ := Reading.exists_of_mem_failures_all hmem
    · cases hmem
    · exact ⟨c, hc, hcomponent, hfile, .inl ⟨d, hd, hname, hparse⟩⟩
  · rw [Registry.misfits, Registry.components_recordReading, List.flatMap_map] at hf
    obtain ⟨c, hc, hf⟩ := List.mem_flatMap.1 hf
    rcases List.mem_append.1 hf with hf | hf
    · obtain ⟨hstyle, -, -⟩ := Finding.of_mem_ofProblem? hf
      rw [Registry.site?_styleProblem? hstyle] at hsite
      cases hsite
    · obtain ⟨hlayout, hcomponent, hfile⟩ := Finding.of_mem_ofProblem? hf
      obtain ⟨hread, -, hbuild⟩ := Registry.layoutProblem?_eq_some_iff.1 hlayout
      obtain ⟨nodes, hnodes⟩ := Reading.has_eq_true_iff.1 hread
      rw [Reading.definition?_of_lookup hnodes] at hbuild
      exact ⟨c, hc, hcomponent, hfile, .inr ⟨_, Reading.definition?_of_lookup hnodes, hbuild⟩⟩

section Check

variable {cache : Option ParseCache} {reg : Registry} (hreg : reg.Reachable)
  (hcache : ∀ k ∈ cache, k.Faithful reg.components)
include hreg hcache

/-- The site of a finding is a place in the template of the component that the problem names; a
template that cannot be read is that of the checked component. -/
private theorem exists_component_of_site? {f : Finding} (hf : f ∈ findings cache reg)
    {owner : String} {place : Position} (hsite : f.problem.site? = some (owner, place)) :
    ∃ c ∈ reg.components, f.component = c.name ∧ f.diagnostic.file = c.file ∧
      f.diagnostic.line = place.line ∧ f.diagnostic.column = place.column ∧
      ∃ d ∈ reg.components, d.name = owner ∧ place.IsIn d.template ∧
        (f.problem.parse? ≠ none → d = c) := by
  have hnodup : (reg.components.map Component.name).Nodup := hreg.sorted.imp ne_of_lt
  obtain ⟨c, hc, hcomponent, hfile, ⟨d, hd, hname, hparse⟩ | ⟨root, hroot, hbuild⟩⟩ :=
    exists_of_mem_findings rfl hf hsite
  · obtain rfl := List.inj_on_of_nodup_map hnodup hd hc hname
    obtain ⟨component, file, problem⟩ := f
    unfold Reading.parseTemplate at hparse
    split at hparse
    · cases hparse
    · rename_i e he
      obtain rfl := Except.error.inj hparse
      obtain ⟨rfl, rfl⟩ := Prod.mk.inj (Option.some.inj hsite)
      obtain ⟨howner, hplace⟩ := isIn_of_parse_eq_error he
      exact ⟨d, hd, hcomponent, hfile, rfl, rfl, d, hd, howner.symm, hplace, fun _ => rfl⟩
    · obtain rfl := Except.error.inj hparse
      cases hsite
  · -- A name that is not resolved stands in a template that the checked component leads to.
    obtain ⟨⟨reference, hproblem⟩, d, hbelow, hname, n, hn, hstart⟩ :=
      Tree.exists_template_of_site? hbuild hsite
    obtain ⟨component, file, problem⟩ := f
    obtain rfl : problem = _ := hproblem
    obtain ⟨-, rfl⟩ := Prod.mk.inj (Option.some.inj hsite)
    have hroot : reg.Defines _ root := ⟨c, hc, hroot⟩
    obtain ⟨c', hc', hd'⟩ := hroot.reflTransGen hbelow
    obtain ⟨htemplate, hname', -⟩ := Reading.definition?_eq_some_iff.1 hd'
    have hparse := Reading.parseTemplate_of_lookup_all hcache hnodup hc' htemplate
    have hplaces := isIn_of_parse (Reading.parseTemplate_eq_ok_iff.1 hparse) n hn
    refine ⟨c, hc, hcomponent, hfile, rfl, rfl, c', hc', hname'.symm.trans hname, ?_, ?_⟩
    · rcases hstart with hstart | ⟨b, hb, hstart⟩
      · exact hstart ▸ hplaces.1
      · exact hstart ▸ hplaces.2 b hb
    · exact fun hnone => absurd rfl hnone

end Check

/-- What a check reports of a template has the line and column of a place in the template of the
component that the problem names, and the file of the checked component. Where no two components
share a file, that is the file of the named component exactly when it is the one that was checked,
as it always is when a template cannot be read. -/
theorem check_locates_iff {cache : Option ParseCache} {reg : Registry} (hreg : reg.Reachable)
    (hcache : ∀ k ∈ cache, k.Faithful reg.components)
    (hfiles : (reg.components.map Component.file).Nodup) {found : Collector}
    (hfound : (check cache reg false).outcome = .ok found) :
    found.diagnostics = (findings cache reg).map Finding.diagnostic ∧
    ∀ f ∈ findings cache reg, ∀ owner place, f.problem.site? = some (owner, place) →
      f.diagnostic.line = place.line ∧ f.diagnostic.column = place.column ∧
      ∃ c ∈ reg.components, c.name = owner ∧ place.IsIn c.template ∧
        (f.diagnostic.file = c.file ↔ f.component = owner) ∧
        (f.problem.parse? ≠ none → f.component = owner) := by
  obtain ⟨-, rfl⟩ := outcome_check_eq_ok_iff.1 hfound
  refine ⟨rfl, fun f hf owner place hsite => ?_⟩
  obtain ⟨c, hc, hcomponent, hfile, hline, hcolumn, d, hd, rfl, hplace, hparse⟩ :=
    exists_component_of_site? hreg hcache hf hsite
  have hnodup : (reg.components.map Component.name).Nodup := hreg.sorted.imp ne_of_lt
  refine ⟨hline, hcolumn, d, hd, rfl, hplace, ⟨fun heq => ?_, fun heq => ?_⟩, fun hread => ?_⟩
  · rw [hcomponent, List.inj_on_of_nodup_map hfiles hc hd (hfile.symm.trans heq)]
  · rw [hfile, List.inj_on_of_nodup_map hnodup hc hd (hcomponent.symm.trans heq)]
  · rw [hcomponent, hparse hread]

namespace Misplaced

def metadata (name : String) : Metadata := { name, properties := [], getters := [], methods := [] }

/-- A card that shows, in its second line, what it does not declare. -/
def card : Component :=
  { name := "Card", tag := "w-card", template := "Hi\n\x7b\x7b x \x7d\x7d", file := "card.html"
    metadata := some (metadata "Card") }

/-- A page of one line that uses the card. -/
def page : Component :=
  { name := "Page", tag := "w-page", template := "<Card/>", file := "page.html"
    metadata := some (metadata "Page") }

def registry : Registry := (({} : Registry).register card).register page

/-- The components of the sample, in the order of their names. -/
theorem components_registry : registry.components = [card, page] := by cbv

def greeting : List Node :=
  [.interpolation ⟨⟨0, 1, 1⟩, ⟨3, 2, 1⟩⟩ (.text "Hi\n"),
    .interpolation ⟨⟨3, 2, 1⟩, ⟨10, 2, 8⟩⟩ (.access ⟨"x", []⟩)]

def mention : Node := .component ⟨⟨0, 1, 1⟩, ⟨7, 1, 8⟩⟩ "Card" []

private theorem scan_card : scan "Hi\n\x7b\x7b x \x7d\x7d".toList =
    ⟨[.text 0 3 "Hi\n", .interpolation 3 10 (.access ⟨"x", []⟩)], none⟩ := by decide +kernel

/-- The template of the card shows an undeclared name on its second line. -/
theorem parse_card : parse "Card" "Hi\n\x7b\x7b x \x7d\x7d" = .ok greeting := by
  rw [parse, scan_card]
  rfl

theorem parse_page : parse "Page" "<Card/>" = .ok [mention] := Ring.parse_page

theorem all_registry : Reading.all { cache := none } registry.components =
    { cache := none, templates := [("Card", greeting), ("Page", [mention])], parsed := 2 } := by
  have hcard : Reading.parseTemplate card = .ok greeting :=
    Reading.parseTemplate_eq_ok_iff.2 parse_card
  have hpage : Reading.parseTemplate page = .ok [mention] :=
    Reading.parseTemplate_eq_ok_iff.2 parse_page
  rw [components_registry, Reading.all_cons, Reading.all_cons]
  simp only [Reading.step, Reading.lookup, hcard, hpage]
  rfl

/-- What is wrong with the card, as it is found in the given scope. -/
def undeclared (scope : String) : Problem :=
  .unresolved {
    component := "Card", name := "x", path := "x", scope, span := ⟨⟨3, 2, 1⟩, ⟨10, 2, 8⟩⟩ }

/-- The undeclared name is found twice: in the card, and in the page around it. -/
theorem findings_registry : findings none registry =
    [⟨"Card", "card.html", undeclared "Card#0"⟩, ⟨"Page", "page.html", undeclared "Card#1"⟩] := by
  rw [findings, all_registry]
  cbv

/-- The files of the sample are different. -/
theorem nodup_files : (registry.components.map Component.file).Nodup := by
  rw [components_registry]
  decide

/-- What the check of the sample reports. -/
theorem outcome_registry : (check none registry false).outcome =
    .ok ⟨(findings none registry).map Finding.diagnostic⟩ :=
  outcome_check_eq_ok_iff.2 ⟨by simp [all_registry], rfl⟩

end Misplaced

/-- On the page with the card, each diagnostic names the file of the component that was checked. -/
theorem Misplaced.check_locates :
    registry.Reachable ∧ (registry.components.map Component.file).Nodup ∧
    ∃ found, (check none registry false).outcome = .ok found ∧
      found.diagnostics = (findings none registry).map Finding.diagnostic ∧
      ∀ f ∈ findings none registry, ∀ owner place, f.problem.site? = some (owner, place) →
        f.diagnostic.line = place.line ∧ f.diagnostic.column = place.column ∧
        ∃ c ∈ registry.components, c.name = owner ∧ place.IsIn c.template ∧
          (f.diagnostic.file = c.file ↔ f.component = owner) ∧
          (f.problem.parse? ≠ none → f.component = owner) := by
  have hreachable : registry.Reachable := .register _ (.register _ .empty)
  have hcache : ∀ k ∈ (none : Option ParseCache), k.Faithful registry.components :=
    fun _ hk => nomatch hk
  refine ⟨hreachable, nodup_files, _, outcome_registry, ?_⟩
  exact check_locates_iff hreachable hcache nodup_files outcome_registry

/-- The name that the card does not declare is also reported for the page, in the second line of a
file that has one. -/
theorem exists_misplaced_diagnostic :
    Misplaced.registry.Reachable ∧ (Misplaced.registry.components.map Component.file).Nodup ∧
    (∀ c ∈ Misplaced.registry.components, c.file ≠ "") ∧
    ∃ found, (check none Misplaced.registry false).outcome = .ok found ∧
    ∃ f ∈ findings none Misplaced.registry, f.diagnostic ∈ found.diagnostics ∧
      f.problem.site? = some ("Card", ⟨3, 2, 1⟩) ∧
      f.diagnostic.file = Misplaced.page.file ∧ f.diagnostic.file ≠ Misplaced.card.file ∧
      f.diagnostic.line = 2 ∧ ¬Position.IsIn Misplaced.page.template ⟨3, 2, 1⟩ := by
  have hfinding : ⟨"Page", "page.html", Misplaced.undeclared "Card#1"⟩ ∈
      findings none Misplaced.registry := by
    rw [Misplaced.findings_registry]
    exact List.mem_cons_of_mem _ List.mem_cons_self
  refine ⟨.register _ (.register _ .empty), Misplaced.nodup_files, ?_, _,
    Misplaced.outcome_registry,
    _, hfinding, List.mem_map_of_mem hfinding, rfl, rfl, by decide, rfl, ?_⟩
  · rw [Misplaced.components_registry]
    decide
  · rintro ⟨before, line, after, hsplit, hline, -⟩
    have hlines : Text.splitOn '\n' Misplaced.page.template.toList = ["<Card/>".toList] := by decide
    rw [hlines] at hsplit
    have hlength := congrArg List.length hsplit
    simp at hlength hline
    omega

end ViewCompiler
