import ViewCompiler.Proofs.Compile.Agreement
import ViewCompiler.Proofs.Compile.Caching
import ViewCompiler.Proofs.Scope.Refusal
import ViewCompiler.Proofs.Template.Scanning

/-!
# Recursion is found in two ways

A component that leads to itself is found by a search through the recorded usage before anything is
laid out, and again while the tree is laid out, where a component may not be entered twice. The two
agree where nothing else is wrong with the templates (`Registry.recursive_build_iff_cycleFrom?`):
the search looks at names and remembers those that it has settled, the layout goes through every
instance and remembers only those around it. One direction needs no assumption, since what a layout
reports is a cycle of the usage (`Registry.leadsBack_of_build`); so whoever searches first never
sees the layout fail this way.

For the other direction there must be nothing that stops the layout earlier: every template can be
read, every component has metadata, and every tag names a registered component
(`Registry.Complete`). A layout of such components can fail only by recursion. So if it does not, it
gives a tree, which mounts all that the root leads to; a component on a cycle would have to be
mounted within itself, again and again, and a tree is finite.

Usage is recorded by name while a component may be mentioned by its tag as well. What is recorded
for a template are the components that its tags lead to (`Registry.usedIn`), and these are the ones
that the layout enters.

The sample is a ring of two components, each of which has the other one in its template.
-/

namespace ViewCompiler

open ViewCompiler.Template

/-! ### Cycles -/

/-- Names that lead back go into a cycle. -/
private theorem LeadsBack.not_settled {g : Graph} {first : String} {names : List String}
    (h : LeadsBack g.Edge first names) : ¬g.Settled first := by
  obtain ⟨hhead, hchain, before, last, rfl, hmem⟩ := h
  obtain ⟨outer, inner, rfl⟩ := List.append_of_mem hmem
  rw [List.append_assoc, List.cons_append] at hhead hchain
  have hself : g.Reaches last last :=
    Graph.reaches_of_isChain (List.isChain_append.1 hchain).2.1 (by simp)
  intro hsettled
  cases outer with
  | nil =>
    obtain rfl : last = first := Option.some.inj hhead
    exact hsettled last (.inl rfl) hself
  | cons a outer =>
    obtain rfl : a = first := Option.some.inj hhead
    exact hsettled last (.inr (Graph.reaches_of_isChain hchain (by simp))) hself

/-! ### Codes -/

/-- Of the reasons to refuse a layout, only recursion has its code. -/
private theorem Library.Refuses.exists_of_hasCode {lib : Library} {root : Definition} {p : Problem}
    (h : lib.Refuses root p) (hcode : p.hasCode "recursive_component" = true) :
    ∃ names, p = .recursive names ∧ LeadsBack (lib.Leads root) root.name names := by
  cases h with
  | unknown => simp [Problem.hasCode, Problem.chain] at hcode
  | bare => simp [Problem.hasCode, Problem.ofCode, Category.dropsCause, Problem.chain] at hcode
  | recursive hback => exact ⟨_, rfl, hback⟩

/-- What leads back is reported as recursion. -/
theorem LeadsBack.hasCode {uses : String → String → Prop} {first : String} {names : List String}
    (h : LeadsBack uses first names) :
    (Problem.recursive names).hasCode "recursive_component" = true := by
  cases names with
  | nil => cases h.head
  | cons name names =>
    simp [Problem.recursive, Problem.hasCode, Problem.ofCode, Category.dropsCause, Problem.chain]

/-- What blames a binding has no code. -/
theorem Problem.Blames.hasCode {p : Problem} {b : Binding} {fs : Frames} (h : p.Blames b fs)
    (code : String) : p.hasCode code = false := by
  obtain ⟨reference, rfl, -⟩ := h
  rfl

namespace Registry

variable {reg : Registry} {r : Reading}

/-! ### What the layout reports -/

/-- The definition is that of a registered component. -/
def Defines (reg : Registry) (r : Reading) (d : Definition) : Prop :=
  ∃ c ∈ reg.components, r.definition? c = some d

theorem Defines.reflTransGen {d d' : Definition} (h : reg.Defines r d)
    (huses : Relation.ReflTransGen (reg.library r).Uses d d') : reg.Defines r d' := by
  induction huses with
  | refl => exact h
  | tail _ huses _ =>
    obtain ⟨tag, -, hfind⟩ := huses
    obtain ⟨c, hlookup, hd⟩ := Option.bind_eq_some_iff.1 hfind
    exact ⟨c, mem_of_lookup? hlookup, hd⟩

/-- Where a definition uses another one, there is an edge of the recorded usage. -/
theorem Defines.edge {d d' : Definition} (h : reg.Defines r d)
    (huses : (reg.library r).Uses d d') : (reg.recordReading r).usage.Edge d.name d'.name := by
  obtain ⟨c, hc, hd⟩ := h
  obtain ⟨tag, hmentions, hfind⟩ := huses
  obtain ⟨c', hlookup, hd'⟩ := Option.bind_eq_some_iff.1 hfind
  obtain ⟨hread, hname, -⟩ := Reading.definition?_eq_some_iff.1 hd
  obtain ⟨-, hname', -⟩ := Reading.definition?_eq_some_iff.1 hd'
  rw [hname, hname']
  exact edge_recordReading_iff.2
    ⟨List.mem_map_of_mem hc, d.template, tag, c', hread, hmentions, hlookup, rfl⟩

/-- When a build reports recursion, it names a way through the recorded usage that leads back. -/
theorem leadsBack_of_build {firstId : Nat} {c : Component} {p : Problem} (hc : c ∈ reg.components)
    (h : Tree.build (reg.library r) firstId (r.definition? c) = .error p)
    (hcode : p.hasCode "recursive_component" = true) :
    ∃ names, p = .recursive names ∧ LeadsBack (reg.recordReading r).usage.Edge c.name names := by
  -- A root without a definition or without metadata is refused under another code.
  have hbare : ∀ root : Option Definition, (root.bind fun d => d.metadata.map (d, ·)) = none →
      Tree.build (reg.library r) firstId root ≠ .error p := by
    intro root hroot hbuild
    rw [Tree.build, Scope.ofDefinition, hroot] at hbuild
    obtain rfl := Except.error.inj hbuild
    simp [Problem.hasCode, Problem.ofCode, Category.dropsCause, Problem.chain] at hcode
  cases hroot : r.definition? c with
  | none => exact absurd (hroot ▸ h) (hbare none rfl)
  | some d =>
    rw [hroot] at h
    cases hmeta : d.metadata with
    | none => exact absurd h (hbare (some d) (by simp [hmeta]))
    | some m =>
      have hd : reg.Defines r d := ⟨c, hc, hroot⟩
      rcases Tree.refused_or_blamed_of_build hmeta h with hrefused | ⟨-, -, -, q, -, hblamed⟩
      · obtain ⟨names, rfl, hback⟩ := hrefused.exists_of_hasCode hcode
        rw [(Reading.definition?_eq_some_iff.1 hroot).2.1] at hback
        refine ⟨names, rfl, hback.head, hback.chain.imp ?_, hback.again⟩
        rintro _ _ ⟨d₁, d₂, hbelow, huses, rfl, rfl⟩
        exact (hd.reflTransGen hbelow).edge huses
      · rcases hblamed with ⟨b, -, hb⟩ | ⟨b, -, hb⟩
        · rw [hb.hasCode] at hcode
          cases hcode
        · rw [hb.hasCode] at hcode
          cases hcode

/-- Where the search finds no cycle, a build reports no recursion. -/
theorem hasCode_eq_false_of_build {firstId : Nat} {c : Component} {p : Problem}
    (hc : c ∈ reg.components) (hcycle : (reg.recordReading r).usage.cycleFrom? c.name = none)
    (h : Tree.build (reg.library r) firstId (r.definition? c) = .error p) :
    p.hasCode "recursive_component" = false := by
  rw [Bool.eq_false_iff]
  intro hcode
  obtain ⟨names, -, hback⟩ := leadsBack_of_build hc h hcode
  exact hback.not_settled (Graph.cycleFrom?_eq_none_iff.1 hcycle)

/-! ### What the compiler gets to see -/

private theorem exists_context_of_scopedStyles {id : Nat} {names : List String} {p : Problem}
    (h : reg.scopedStyles id names = .error p) :
    ∃ (name : String) (q : Problem), p = .context s!"encapsulating style of {name}" q := by
  induction names generalizing id with
  | nil => cases h
  | cons name names ih =>
    rw [scopedStyles] at h
    split at h
    · exact ih h
    · split at h
      · exact ih h
      · split at h
        · exact ⟨name, _, (Except.error.inj h).symm⟩
        · cases hrest : reg.scopedStyles (id + 1) names with
          | error q =>
            rw [hrest] at h
            obtain rfl : q = p := Except.error.inj h
            exact ih hrest
          | ok styles =>
            rw [hrest] at h
            cases h

/-- Laying out a root fails at the search for cycles, at the build or at a style sheet. -/
private theorem layOut_cases {c : Component} {p : Problem}
    (h : (reg.recordReading r).layOut r c = .error p) :
    (∃ detail cause, p = .coded detail cause) ∨ p = .abort ∨
    ((reg.recordReading r).usage.cycleFrom? c.name = none ∧
      ∃ q, Tree.build (reg.library r) 0 (r.definition? c) = .error q ∧
        p = .context s!"building {c.name}" q) ∨
    ∃ (name : String) (q : Problem), p = .context s!"encapsulating style of {name}" q := by
  cases hcycle : (reg.recordReading r).usage.cycleFrom? c.name with
  | some cycle =>
    rw [layOut, hcycle] at h
    obtain rfl := Except.error.inj h
    cases cycle with
    | nil => exact .inr (.inl rfl)
    | cons name names => exact .inl ⟨_, _, rfl⟩
  | none =>
    rw [layOut, hcycle, library_recordReading] at h
    rcases bind_eq_error_iff.1 h with h | ⟨t, ht, h⟩
    · cases hbuild : Tree.build (reg.library r) 0 (r.definition? c) with
      | error q =>
        rw [hbuild] at h
        exact .inr (.inr (.inl ⟨rfl, q, rfl, (Except.error.inj h).symm⟩))
      | ok t =>
        rw [hbuild] at h
        cases h
    · rw [Tree.changes_eq (mapError_eq_ok_iff.1 ht)] at h
      rcases bind_eq_error_iff.1 h with h | ⟨changes, -, h⟩
      · cases h
      · rcases bind_eq_error_iff.1 h with h | ⟨styles, -, h⟩
        · exact .inr (.inr (.inr (exists_context_of_scopedStyles h)))
        · cases h

/-- Every template can be read, every component has metadata, and every tag in a template is that of
a registered component. -/
structure Complete (reg : Registry) : Prop where
  reads : ∀ c ∈ reg.components, ∃ nodes, parse c.name c.template = .ok nodes
  metadata : ∀ c ∈ reg.components, ∃ m, c.metadata = some m
  known : ∀ c ∈ reg.components, ∀ nodes, parse c.name c.template = .ok nodes →
    ∀ tag, Mentions nodes tag → ∃ c', reg.lookup? tag = some c'

/-- Whatever the cache keeps, nothing fails where every template can be read. -/
theorem Complete.untilFailure_eq_all (h : reg.Complete) {r : Reading} (hr : r.failures = []) :
    (r.all reg.components).failures = [] ∧
      r.untilFailure reg.components = r.all reg.components := by
  have hnone : (r.all reg.components).failures = [] := by
    rw [List.eq_nil_iff_forall_not_mem]
    rintro ⟨name, p⟩ hmem
    rcases Reading.exists_of_mem_failures_all hmem with hmem | ⟨c, hc, -, hparse⟩
    · rw [hr] at hmem
      cases hmem
    · obtain ⟨nodes, hnodes⟩ := h.reads c hc
      rw [Reading.parseTemplate_eq_ok_iff.2 hnodes] at hparse
      cases hparse
  exact ⟨hnone, Reading.untilFailure_eq_all hnone⟩

/-- Whoever compiles a component searches first, so the build reports no recursion. -/
private theorem Complete.hasCode_eq_false_of_compile (hreg : reg.Complete)
    {cache : Option ParseCache} {name : String} {cancelled : Bool} {c : Component} {p : Problem}
    (hc : reg.lookup? name = some c)
    (h : (compile cache reg name cancelled).outcome = .error (.context s!"building {c.name}" p)) :
    p.hasCode "recursive_component" = false := by
  have hnote : ∀ name : String, s!"building {c.name}" ≠ s!"encapsulating style of {name}" := by
    intro name heq
    have hlist := congrArg String.toList heq
    simp [toString] at hlist
  obtain ⟨hnone, huntil⟩ := hreg.untilFailure_eq_all (r := { cache }) rfl
  unfold compile at h
  simp only [hc, huntil, Registry.concluded_of_failures_eq_nil hnone] at h
  split at h
  · cases h
  · rcases layOut_cases h with ⟨detail, cause, hp⟩ | hp | ⟨hcycle, q, hbuild, hp⟩ | ⟨name', q, hp⟩
    · cases hp
    · cases hp
    · obtain rfl : p = q := (Problem.context.inj hp).2
      exact hasCode_eq_false_of_build (mem_of_lookup? hc) hcycle hbuild
    · exact absurd (Problem.context.inj hp).1 (hnote name')

/-! ### What the search finds -/

/-- Reading without a cache reads what the parser reads. -/
theorem Complete.lookup_templates (hreg : reg.Complete) (hsorted : reg.Sorted)
    (hr : Reading.all { cache := none } reg.components = r) {c : Component}
    (hc : c ∈ reg.components) :
    ∃ nodes, parse c.name c.template = .ok nodes ∧ r.templates.lookup c.name = some nodes := by
  subst hr
  obtain ⟨hnone, -⟩ := hreg.untilFailure_eq_all (r := { cache := none }) rfl
  obtain ⟨nodes, hnodes⟩ := Reading.has_eq_true_iff.1 (Reading.has_all_of_failures_eq_nil hnone hc)
  have hcache : ∀ k ∈ (none : Option ParseCache), k.Faithful reg.components := by simp
  have hparse := Reading.parseTemplate_of_lookup_all hcache (hsorted.imp ne_of_lt) hc hnodes
  exact ⟨nodes, Reading.parseTemplate_eq_ok_iff.1 hparse, hnodes⟩

variable (hreg : reg.Complete) (hsorted : reg.Sorted)
  (hr : Reading.all { cache := none } reg.components = r)
include hreg hsorted hr

/-- Every definition has metadata, and every tag in it that of another one. -/
theorem Complete.of_defines {d : Definition} (hd : reg.Defines r d) :
    (∃ m, d.metadata = some m) ∧
      ∀ tag, Mentions d.template tag → ∃ d', (reg.library r).find? tag = some d' := by
  obtain ⟨c, hc, hdefinition⟩ := hd
  obtain ⟨hread, -, hmeta⟩ := Reading.definition?_eq_some_iff.1 hdefinition
  obtain ⟨nodes, hnodes, hlookup⟩ := hreg.lookup_templates hsorted hr hc
  obtain rfl : d.template = nodes := Option.some.inj (hread.symm.trans hlookup)
  refine ⟨hmeta ▸ hreg.metadata c hc, fun tag htag => ?_⟩
  obtain ⟨c', hc'⟩ := hreg.known c hc _ hnodes tag htag
  obtain ⟨nodes', -, hlookup'⟩ := hreg.lookup_templates hsorted hr (mem_of_lookup? hc')
  exact ⟨_, (find?_library_of_lookup? hc').trans (Reading.definition?_of_lookup hlookup')⟩

/-- Where the search finds a cycle, a build reports recursion. -/
private theorem Complete.exists_build_of_cycleFrom? {firstId : Nat} {c : Component}
    (hc : c ∈ reg.components) (hcycle : (reg.recordReading r).usage.cycleFrom? c.name ≠ none) :
    ∃ p, Tree.build (reg.library r) firstId (r.definition? c) = .error p ∧
      p.hasCode "recursive_component" = true := by
  obtain ⟨nodes, -, hlookup⟩ := hreg.lookup_templates hsorted hr hc
  have hroot := Reading.definition?_of_lookup hlookup
  have hdefines : reg.Defines r ⟨c.name, nodes, c.metadata⟩ := ⟨c, hc, hroot⟩
  obtain ⟨m, hmeta⟩ := (hreg.of_defines hsorted hr hdefines).1
  -- A layout would enter every component on the cycle, so the build has to end with a problem.
  have hunlaid : ∀ laid, Scope.ofDefinition (reg.library r) firstId
      (some ⟨c.name, nodes, c.metadata⟩) ≠ .ok laid := by
    intro laid hlaid
    obtain ⟨d, m, content, hd, -, hcontent, -⟩ := Scope.exists_laid_of_ofDefinition hlaid
    obtain rfl := Option.some.inj hd
    exact hcycle (cycleFrom?_eq_none_of_lays ⟨_, _, _, _, _, hlookup, hcontent⟩)
  cases hbuild : Tree.build (reg.library r) firstId (r.definition? c) with
  | ok t =>
    rw [hroot] at hbuild
    exact absurd (Tree.build_eq_ok_iff.1 hbuild).1 (hunlaid _)
  | error p =>
    refine ⟨p, rfl, ?_⟩
    rw [hroot] at hbuild
    rcases Tree.refused_or_blamed_of_build hmeta hbuild with hrefused | ⟨scope, nextId, hlaid, -⟩
    · -- Of the refusals only recursion is left, where everything is known and has metadata.
      cases hrefused with
      | unknown hd hnode hfind =>
        obtain ⟨-, hknown⟩ := hreg.of_defines hsorted hr (hdefines.reflTransGen hd)
        obtain ⟨d', hd'⟩ := hknown _ ⟨_, _, hnode⟩
        rw [hfind] at hd'
        cases hd'
      | bare hd huses hnone =>
        obtain ⟨⟨m, hm⟩, -⟩ := hreg.of_defines hsorted hr (hdefines.reflTransGen (hd.tail huses))
        rw [hnone] at hm
        cases hm
      | recursive hback => exact hback.hasCode
    · exact absurd hlaid (hunlaid _)

end Registry

/-- Where every template can be read, every component has metadata and every tag is known, a build
reports recursion exactly when the search through the recorded usage finds a cycle; what it reports
leads along the usage from the root back to a name that occurred before; and compiling, which
searches first, never sees the build report recursion. -/
theorem Registry.recursive_build_iff_cycleFrom? {reg : Registry} (hreachable : reg.Reachable)
    (hreg : reg.Complete) {root : Component} (hroot : root ∈ reg.components) (firstId : Nat) :
    let r := Reading.all { cache := none } reg.components
    let usage := (reg.recordReading r).usage
    let build := Tree.build (reg.library r) firstId (r.definition? root)
    ((∃ p, build = .error p ∧ p.hasCode "recursive_component" = true) ↔
      usage.cycleFrom? root.name ≠ none) ∧
    (∀ p, build = .error p → p.hasCode "recursive_component" = true →
      ∃ names, p = .recursive names ∧ LeadsBack usage.Edge root.name names) ∧
    ∀ cache name cancelled p, reg.lookup? name = some root →
      (compile cache reg name cancelled).outcome = .error (.context s!"building {root.name}" p) →
        p.hasCode "recursive_component" = false := by
  refine ⟨⟨?_, ?_⟩, fun p hbuild hcode => leadsBack_of_build hroot hbuild hcode, ?_⟩
  · rintro ⟨p, hbuild, hcode⟩ hcycle
    rw [hasCode_eq_false_of_build hroot hcycle hbuild] at hcode
    cases hcode
  · exact hreg.exists_build_of_cycleFrom? hreachable.sorted rfl hroot
  · exact fun cache name cancelled p hname hcompile =>
      hreg.hasCode_eq_false_of_compile hname hcompile

namespace Ring

def metadata (name : String) : Metadata := { name, properties := [], getters := [], methods := [] }

/-- A card that uses a page by its tag. -/
def card : Component :=
  { name := "Card", tag := "Box", template := "<View/>", metadata := some (metadata "Card") }

/-- A page that uses a card by its name. -/
def page : Component :=
  { name := "Page", tag := "View", template := "<Card/>", metadata := some (metadata "Page") }

/-- A page and a card that use each other. -/
def registry : Registry := (({} : Registry).register card).register page

theorem components_registry : registry.components = [card, page] := by cbv

def pageInCard : Node := .component ⟨⟨0, 1, 1⟩, ⟨7, 1, 8⟩⟩ "View" []

def cardInPage : Node := .component ⟨⟨0, 1, 1⟩, ⟨7, 1, 8⟩⟩ "Card" []

theorem parse_card : parse "Card" "<View/>" = .ok [pageInCard] := by
  have hname : isTagName "View" = true := by decide
  have hsource : "<View/>".toList = '<' :: ("View".toList ++ ['/', '>']) := rfl
  rw [parse]
  simp only [hsource, scan_leaf hname]
  rfl

theorem parse_page : parse "Page" "<Card/>" = .ok [cardInPage] := by
  have hname : isTagName "Card" = true := by decide
  have hsource : "<Card/>".toList = '<' :: ("Card".toList ++ ['/', '>']) := rfl
  rw [parse]
  simp only [hsource, scan_leaf hname]
  rfl

theorem all_registry : Reading.all { cache := none } registry.components =
    { cache := none, templates := [("Card", [pageInCard]), ("Page", [cardInPage])],
      parsed := 2 } := by
  have hcard : Reading.parseTemplate card = .ok [pageInCard] :=
    Reading.parseTemplate_eq_ok_iff.2 parse_card
  have hpage : Reading.parseTemplate page = .ok [cardInPage] :=
    Reading.parseTemplate_eq_ok_iff.2 parse_page
  rw [components_registry, Reading.all_cons, Reading.all_cons]
  simp only [Reading.step, Reading.lookup, hcard, hpage]
  rfl

private theorem eq_of_mentions {span : Span} {tag tag' : String}
    (h : Mentions [.component span tag []] tag') : tag' = tag := by
  obtain ⟨span', bindings, h⟩ := h
  exact (Node.component.inj (List.mem_singleton.1 h)).2.1

/-- Both components of the ring can be read, and everything they use is registered. -/
theorem complete_registry : registry.Complete := by
  have hall : ∀ P : Component → Prop, P card → P page → ∀ c ∈ registry.components, P c := by
    intro P hcard hpage
    rw [components_registry]
    exact List.forall_mem_cons.2 ⟨hcard, List.forall_mem_singleton.2 hpage⟩
  refine ⟨?_, ?_, ?_⟩
  · exact hall _ ⟨_, parse_card⟩ ⟨_, parse_page⟩
  · exact hall _ ⟨_, rfl⟩ ⟨_, rfl⟩
  · refine hall _ (fun nodes hnodes tag htag => ?_) (fun nodes hnodes tag htag => ?_)
    · obtain rfl := Except.ok.inj (parse_card.symm.trans hnodes)
      obtain rfl := eq_of_mentions htag
      exact ⟨page, by cbv⟩
    · obtain rfl := Except.ok.inj (parse_page.symm.trans hnodes)
      obtain rfl := eq_of_mentions htag
      exact ⟨card, by cbv⟩

end Ring

/-- The page and the card use each other, so the page cannot be built. -/
theorem Ring.recursive_page :
    registry.Reachable ∧ registry.Complete ∧ page ∈ registry.components ∧
    let r := Reading.all { cache := none } registry.components
    let usage := (registry.recordReading r).usage
    let build := Tree.build (registry.library r) 0 (r.definition? page)
    usage.cycleFrom? "Page" = some ["Page", "Card", "Page"] ∧
    ∃ p, build = .error p ∧ p.hasCode "recursive_component" = true := by
  have hreachable : registry.Reachable := .register _ (.register _ .empty)
  have hpage : page ∈ registry.components := by
    rw [components_registry]
    exact List.mem_cons_of_mem _ List.mem_cons_self
  have hcycle : ((registry.recordReading
      (Reading.all { cache := none } registry.components)).usage.cycleFrom? "Page") =
        some ["Page", "Card", "Page"] := by
    rw [all_registry]
    cbv
  obtain ⟨hiff, -, -⟩ :=
    Registry.recursive_build_iff_cycleFrom? hreachable complete_registry hpage 0
  refine ⟨hreachable, complete_registry, hpage, hcycle, hiff.2 fun hnone => ?_⟩
  cases hnone.symm.trans hcycle

end ViewCompiler
