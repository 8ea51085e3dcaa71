import ViewCompiler.Proofs.Compile.Agreement
import ViewCompiler.Proofs.Compile.Caching
import ViewCompiler.Proofs.Scope.Shift

/-!
# Lexical scoping

Looking a name up passes from a component into the one that mounts it. Where every component can be
built as a root of its own this never decides anything: every name in a template is then declared
within the instance it is written for, and refers to the same kind of thing wherever the component
is mounted (`Tree.exists_own_origin`). A check without errors builds every component as a root, so
it makes scoping lexical for every root that is compiled afterwards (`lexical_of_check_clean`).

A component that is mounted somewhere has the scopes of its own tree there, renumbered
(`Laid.eq_shift`), and around them the frames of the place where it is mounted. A name that resolves
in its own tree is declared by one of the frames that both have in common, and the frames outside
are never asked. So the declaration that is found lies within the boundary of the instance, and is
the same member of the same component.

What is said of a name is said of the place in the template where it is written: of the scope in the
own tree of the component that mirrors the one in the compiled tree (`Placed.Mirrors`). Inputs and
handlers of a component are written in the template around it, and read there.

The check and the compilation read the templates anew. That they read the same is known from
`Compile/Caching`.
-/

namespace ViewCompiler

open ViewCompiler.Template

/-- The names in a value that have to be looked up. -/
def Template.Value.names : Value → List String
  | .access path => [path.root]
  | .call method arguments => method :: arguments.filterMap fun
    | .access path => some path.root
    | .literal _ | .payload => none
  | .text _ | .literal _ => []

/-- Every name in an admitted value resolves. -/
theorem Frames.Admits.exists_resolve? {fs : Frames} {v : Value} (h : fs.Admits v) {name : String}
    (hname : name ∈ v.names) : ∃ o, fs.resolve? name = some o := by
  cases v with
  | text => cases hname
  | literal => cases hname
  | access path =>
    obtain ⟨o, ho, -⟩ := h
    obtain rfl := List.mem_singleton.1 hname
    exact ⟨o, ho⟩
  | call method arguments =>
    rcases List.mem_cons.1 hname with rfl | hname
    · obtain ⟨⟨o, ho, -⟩, -⟩ := h
      exact ⟨o, ho⟩
    · obtain ⟨a, ha, hroot⟩ := List.mem_filterMap.1 hname
      cases a with
      | literal => cases hroot
      | payload => cases hroot
      | access path =>
        obtain rfl := Option.some.inj hroot
        obtain ⟨o, ho, -⟩ := h.2 _ ha
        exact ⟨o, ho⟩

/-! ### Scopes in the tree of their component -/

namespace Placed.Mirrors

variable {q p : Placed} {g' g : Frame} {outer inner : Frames}
  (h : q.Mirrors p g' g outer inner) (hp : p.frames = p.frame :: p.outer)
  (hq : q.frames = q.frame :: q.outer)
include h hp hq

theorem id_eq (hid : g'.id = 0) : q.id + g.id = p.id := by
  have hown := h.own
  have hframes := h.frames
  rw [hq] at hown
  rw [hp] at hframes
  cases inner with
  | nil =>
    rw [Placed.id, Placed.id, (List.cons.inj hown).1, (List.cons.inj hframes).1, hid, Nat.zero_add]
  | cons f inner =>
    rw [Placed.id, Placed.id, (List.cons.inj hown).1, (List.cons.inj hframes).1]
    rfl

/-- What is read within an instance is read at the same place in the tree of its component. -/
private theorem mem_reads (hfed : p.frame.IsFed) {r : Read} (hr : r ∈ p.reads)
    (hboundary : (p.readingFrames r.binding).boundary? = some (g :: outer)) :
    r ∈ q.reads ∧ ∃ within, q.readingFrames r.binding = within ++ [g'] ∧
      p.readingFrames r.binding = within.map (Frame.shift g.id) ++ g :: outer := by
  have hown := h.own
  have hframes := h.frames
  rw [hq] at hown
  rw [hp] at hframes
  have hsaved : (p.scope.saved.flatMap fun s =>
        (s.node.bindings.filter (!·.kind.isSelf)).map fun b => (some s.index, b)) =
      q.scope.saved.flatMap fun s =>
        (s.node.bindings.filter (!·.kind.isSelf)).map fun b => (some s.index, b) := by
    rw [h.saved, List.flatMap_map]
    rfl
  cases inner with
  | nil =>
    obtain ⟨-, houter⟩ := List.cons.inj hframes
    -- What feeds the instance itself is read outside of it.
    have hself : r.binding.kind.isSelf = false := by
      by_contra hself
      rw [Bool.not_eq_false] at hself
      rw [Placed.readingFrames, if_pos hself, houter] at hboundary
      have hle := (Frames.suffix_of_boundary? hboundary).length_le
      simp at hle
    refine ⟨?_, [], ?_, ?_⟩
    · unfold Placed.reads at hr ⊢
      dsimp only at hr ⊢
      rw [hsaved, List.zipIdx_append, List.map_append] at hr
      rw [List.zipIdx_append, List.map_append]
      rcases List.mem_append.1 hr with hr | hr
      · exact List.mem_append_left _ hr
      · obtain ⟨⟨⟨node, b⟩, n⟩, hmem, rfl⟩ := List.mem_map.1 hr
        obtain ⟨b', hb', heq⟩ := List.mem_map.1 (List.fst_mem_of_mem_zipIdx hmem)
        obtain ⟨-, rfl⟩ := Prod.mk.inj heq
        exact absurd (hfed.isSelf b' hb') (by rw [hself]; exact Bool.false_ne_true)
    · rw [Placed.readingFrames, hself]
      exact h.own
    · rw [Placed.readingFrames, hself]
      exact h.frames
  | cons f inner =>
    obtain ⟨hqf, hqouter⟩ := List.cons.inj hown
    obtain ⟨hpf, hpouter⟩ := List.cons.inj hframes
    have hreads : p.reads = q.reads := by
      unfold Placed.reads
      rw [hsaved, hpf, hqf]
      rfl
    refine ⟨hreads ▸ hr, ?_⟩
    unfold Placed.readingFrames
    split
    · exact ⟨inner, hqouter, hpouter⟩
    · exact ⟨f :: inner, h.own, h.frames⟩

end Placed.Mirrors

/-- Where every component that is found can be built, every name of a tree refers to something
within the instance it is written for, and to the same kind of thing as in the tree of that
component. -/
theorem Tree.exists_own_origin {lib : Library} {root : Definition} {t : Tree}
    (h : Tree.build lib 0 (some root) = .ok t)
    (hlib : ∀ tag d, lib.find? tag = some d → ∃ t', Tree.build lib 0 (some d) = .ok t')
    {p : Placed} (hp : p ∈ t.scopes) {r : Read} (hr : r ∈ p.reads) {name : String}
    (hname : name ∈ r.binding.value.names) :
    ∃ o g outer, (p.readingFrames r.binding).resolve? name = some o ∧
      (p.readingFrames r.binding).boundary? = some (g :: outer) ∧
      Frames.boundary? (o.frame :: o.outer) = some (g :: outer) ∧
      ∃ d t', (d = root ∨ ∃ tag, lib.find? tag = some d) ∧ d.name = g.name ∧
        Tree.build lib 0 (some d) = .ok t' ∧
        ∃ q ∈ t'.scopes, q.id + g.id = p.id ∧ r ∈ q.reads ∧
          ∃ o', (q.readingFrames r.binding).resolve? name = some o' ∧ o'.kind = o.kind ∧
            o'.frame.id + g.id = o.frame.id := by
  have hlaid := (Tree.build_eq_ok_iff.1 h).1
  -- The value is read somewhere inside the root, so there is an instance around it.
  obtain ⟨g, outer, hboundary⟩ : ∃ g outer,
      (p.readingFrames r.binding).boundary? = some (g :: outer) := by
    obtain ⟨o, ho⟩ :=
      (Tree.admits h hp (Placed.binding_mem_of_mem_reads hr)).2.exists_resolve? hname
    have hinside := Frames.suffix_of_resolve? ho
    have hroot := Scope.frame_mem_of_suffix hp (hinside.trans (p.readingFrames_suffix r.binding))
    exact Frames.exists_boundary? (hinside.subset hroot) (Tree.laidOut h).isInstance
  have hsuffix := (Frames.suffix_of_boundary? hboundary).trans (p.readingFrames_suffix r.binding)
  obtain ⟨s, hs, hsframes, hbelow⟩ : ∃ s ∈ t.scopes, s.frames = g :: outer ∧
      p ∈ s.scope.placedIn outer := by
    rcases Scope.exists_placedIn_or_suffix hp hsuffix with hs | hnil
    · exact hs
    · simp at hnil
  have hframe : s.frame = g := (List.cons.inj ((Placed.frames_eq hs).symm.trans hsframes)).1
  have hkind : s.frame.kind = .component := by
    rw [hframe]
    exact Frames.kind_of_boundary? hboundary
  obtain ⟨d, hd, hinstance⟩ := Scope.exists_instantiates hlaid hs hkind
  obtain ⟨t', ht'⟩ : ∃ t', Tree.build lib 0 (some d) = .ok t' := by
    rcases hd with rfl | ⟨tag, hfind⟩
    · exact ⟨t, h⟩
    · exact hlib tag d hfind
  obtain ⟨hrole, hid, q, hq, inner, hmirrors⟩ :=
    Placed.exists_own hinstance (Tree.build_eq_ok_iff.1 ht').1 hbelow
  change _ = s.frame.role at hrole
  change q.Mirrors p _ s.frame outer inner at hmirrors
  rw [hframe] at hrole hmirrors
  obtain ⟨hread, within, hqframes, hpframes⟩ := hmirrors.mem_reads (Placed.frames_eq hp)
    (Placed.frames_eq hq) ((Tree.laidOut h).isLaid p hp).fed hr hboundary
  -- In its own tree the component resolves the name without looking further out.
  obtain ⟨o', ho'⟩ :=
    (Tree.admits ht' hq (Placed.binding_mem_of_mem_reads hread)).2.exists_resolve? hname
  obtain ⟨o, before, after, ho, hokind, hoid, rfl, hoframes⟩ :=
    Frames.exists_resolve?_shift outer hrole (by rw [hid, Nat.zero_add]) (hqframes ▸ ho')
  refine ⟨o, g, outer, by rw [hpframes]; exact ho, hboundary, ?_, d, t', hd, ?_, ht', q,
    hq, ?_, hread,
    o', ho', hokind.symm, hoid⟩
  · rw [hoframes]
    rw [hpframes, List.map_append, List.append_assoc] at hboundary
    exact Frames.boundary?_of_append hboundary
  · rw [← hframe]
    exact hinstance.name.symm
  · exact hmirrors.id_eq (Placed.frames_eq hp) (Placed.frames_eq hq) hid

/-! ### Compiling after a check -/

/-- What is found depends on the templates that were read and on nothing else in a reading. -/
private theorem Registry.library_eq_of_templates {reg : Registry} {r r' : Reading}
    (h : r'.templates = r.templates) : reg.library r' = reg.library r := by
  have hdefinition : r'.definition? = r.definition? := by
    funext c
    rw [Reading.definition?, Reading.definition?, h]
  unfold Registry.library
  simp only [hdefinition]

/-- A root that compiles was read with all others, and its tree is the one that is built for it. -/
theorem build_of_compile {cache : Option ParseCache} {reg : Registry} {r : Reading}
    (hr : Reading.all { cache } reg.components = r) {name : String} {result : Compilation}
    (h : (compile cache reg name false).outcome = .ok result) :
    ∃ c, reg.lookup? name = some c ∧
      Tree.build (reg.library r) 0 (r.definition? c) = .ok result.tree := by
  cases hc : reg.lookup? name with
  | none =>
    simp only [compile, hc] at h
    cases h
  | some c =>
    obtain ⟨hread, -⟩ := (exists_outcome_compile_iff hr hc).1 ⟨result, h⟩
    have huntil : Reading.untilFailure { cache } reg.components = r :=
      (Reading.untilFailure_eq_all (hr ▸ hread)).trans hr
    simp only [compile, hc, Bool.false_eq_true, if_false, huntil] at h
    obtain ⟨htree, -⟩ := Registry.of_layOut_eq_ok (Registry.of_outcome_concluded_eq_ok h).2
    rw [Registry.library_recordReading] at htree
    exact ⟨c, rfl, htree⟩

/-- A check that is not aborted leaves what it read and a registry in which that is recorded. -/
theorem reading_of_check {cache : Option ParseCache} {reg : Registry} {r : Reading}
    (hr : Reading.all { cache } reg.components = r) {found : Collector}
    (h : (check cache reg false).outcome = .ok found) :
    (check cache reg false).reading = r ∧
      (check cache reg false).registry = reg.recordReading r := by
  unfold check at h ⊢
  rw [Bool.false_and, if_neg Bool.false_ne_true] at h ⊢
  simp only [hr, Registry.checked] at h ⊢
  split
  · rename_i haborted
    rw [if_pos haborted] at h
    cases h
  · exact ⟨rfl, rfl⟩

section Check

variable {reg : Registry} {cache : Option ParseCache} {r : Reading}
  (hsorted : reg.Sorted) (hcache : ∀ k ∈ cache, k.Faithful reg.components)
  (hr : Reading.all { cache } reg.components = r)
include hsorted hcache hr

/-- Reading the components again, with what a reading of them has left, gives the same. -/
theorem Reading.all_again :
    (Reading.all { cache := r.cache } (reg.recordReading r).components).templates = r.templates ∧
      (Reading.all { cache := r.cache } (reg.recordReading r).components).failures =
        r.failures := by
  have hnames : (reg.components.map Component.name).Nodup := hsorted.imp fun hlt => hlt.ne
  have hfirst : ({ cache } : Reading).Faithful reg.components := hcache
  obtain ⟨hfaithful, htemplates, hfailures⟩ :=
    Reading.all_of_faithful hfirst (.of_nodup hnames) fun _ => Component.isKnown_of_mem
  rw [hr] at hfaithful htemplates hfailures
  have hcomponents := reg.components_recordReading (r := r)
  have hagain : ({ cache := r.cache } : Reading).Faithful (reg.recordReading r).components := by
    intro k hk e he c hc
    rw [hcomponents] at hc
    obtain ⟨c', hc', rfl⟩ := List.mem_map.1 hc
    exact hfaithful k hk e he c' hc'
  have hnames' : ((reg.recordReading r).components.map Component.name).Nodup := by
    rw [hcomponents, List.map_map]
    exact hnames
  obtain ⟨-, htemplates', hfailures'⟩ :=
    Reading.all_of_faithful hagain (.of_nodup hnames') fun _ => Component.isKnown_of_mem
  rw [htemplates', hfailures', htemplates, hfailures, hcomponents, List.flatMap_map,
    List.flatMap_map]
  exact ⟨rfl, rfl⟩

/-- What a root is built from is found alike before a check and after it. -/
theorem Registry.library_again {r' : Reading}
    (hr' : Reading.all { cache := r.cache } (reg.recordReading r).components = r') :
    (reg.recordReading r).library r' = reg.library r ∧
      ∀ c, r'.definition? (reg.recorded r c) = r.definition? c := by
  obtain ⟨htemplates, -⟩ := Reading.all_again hsorted hcache hr
  rw [hr'] at htemplates
  refine ⟨?_, fun c => ?_⟩
  · rw [Registry.library_eq_of_templates htemplates, Registry.library_recordReading]
  · rw [Reading.definition?, htemplates]
    rfl

/-- After a check that finds nothing, every component compiles to the tree that is built for it. -/
theorem exists_compile_of_findings_eq_nil (hnone : findings cache reg = []) {c : Component}
    (hc : c ∈ reg.components) {t : Tree}
    (ht : Tree.build (reg.library r) 0 (r.definition? c) = .ok t) :
    ∃ result, (compile r.cache (reg.recordReading r) c.name false).outcome = .ok result ∧
      result.tree = t := by
  obtain ⟨hread, hall⟩ := (findings_eq_nil_iff hr).1 hnone
  obtain ⟨r', hr'⟩ : ∃ r', Reading.all { cache := r.cache } (reg.recordReading r).components = r' :=
    ⟨_, rfl⟩
  obtain ⟨hlibrary, hdefinition⟩ := Registry.library_again hsorted hcache hr hr'
  obtain ⟨-, hfailures⟩ := Reading.all_again hsorted hcache hr
  have hlookup : (reg.recordReading r).lookup? c.name = some (reg.recorded r c) := by
    rw [Registry.lookup?_recordReading,
      Registry.lookup?_of_get? (Registry.get?_name hsorted hc)]
    rfl
  have hbuild : Tree.build ((reg.recordReading r).library r') 0
      (r'.definition? (reg.recorded r c)) = .ok t := by
    rw [hlibrary, hdefinition]
    exact ht
  obtain ⟨result, hresult⟩ := (exists_outcome_compile_iff hr' hlookup).2
    ⟨by rw [← hr', hfailures, hread], t, hbuild, fun name _ d hd => by
      rw [Registry.get?_recordReading] at hd
      obtain ⟨d', hd', rfl⟩ := Option.map_eq_some_iff.1 hd
      exact (hall d' (Registry.mem_of_get? hd').1).1⟩
  obtain ⟨c', hc', htree⟩ := build_of_compile hr' hresult
  obtain rfl := Option.some.inj (hlookup.symm.trans hc')
  exact ⟨result, hresult, Except.ok.inj (htree.symm.trans hbuild)⟩

end Check

/-- After a check without errors scoping is lexical: in the tree of every root that compiles, every
name refers to something within the instance it is written for, and to the same kind of thing as in
the tree of that component as a root. -/
theorem lexical_of_check_clean {reg : Registry} (hreg : reg.Reachable) {cache : Option ParseCache}
    (hcache : ∀ k ∈ cache, k.Faithful reg.components)
    (hclean : ∃ found, (check cache reg false).outcome = .ok found ∧ found.hasErrors = false)
    {root : String} {result : Compilation}
    (hresult : (compile (check cache reg false).reading.cache (check cache reg false).registry root
      false).outcome = .ok result)
    {p : Placed} (hp : p ∈ result.tree.scopes) {r : Read} (hr : r ∈ p.reads) {name : String}
    (hname : name ∈ r.binding.value.names) :
    ∃ o g outer, (p.readingFrames r.binding).resolve? name = some o ∧
      (p.readingFrames r.binding).boundary? = some (g :: outer) ∧
      Frames.boundary? (o.frame :: o.outer) = some (g :: outer) ∧
      ∃ own, (compile (check cache reg false).reading.cache (check cache reg false).registry g.name
        false).outcome = .ok own ∧
        ∃ q ∈ own.tree.scopes, q.id + g.id = p.id ∧ r ∈ q.reads ∧
          ∃ o', (q.readingFrames r.binding).resolve? name = some o' ∧ o'.kind = o.kind ∧
            o'.frame.id + g.id = o.frame.id := by
  have hsorted := hreg.sorted
  obtain ⟨rd, hrd⟩ : ∃ rd, Reading.all { cache } reg.components = rd := ⟨_, rfl⟩
  have hnone := (check_clean_iff hrd).1 hclean
  obtain ⟨-, hall⟩ := (findings_eq_nil_iff hrd).1 hnone
  obtain ⟨found, hfound, -⟩ := hclean
  obtain ⟨hreading, hregistry⟩ := reading_of_check hrd hfound
  rw [hreading, hregistry] at hresult ⊢
  obtain ⟨rd', hrd'⟩ : ∃ rd',
      Reading.all { cache := rd.cache } (reg.recordReading rd).components = rd' := ⟨_, rfl⟩
  obtain ⟨hlibrary, hdefinition⟩ := Registry.library_again hsorted hcache hrd hrd'
  -- The root is a component that the check has built.
  obtain ⟨c', hc', htree⟩ := build_of_compile hrd' hresult
  rw [Registry.lookup?_recordReading] at hc'
  obtain ⟨c, hc, rfl⟩ := Option.map_eq_some_iff.1 hc'
  rw [hlibrary, hdefinition] at htree
  obtain ⟨d, hd, -⟩ := Tree.name_mem_componentNames htree
  rw [hd] at htree
  have hfound : ∀ tag d, (reg.library rd).find? tag = some d →
      ∃ c ∈ reg.components, rd.definition? c = some d := by
    intro tag d hfind
    obtain ⟨c, hc, hd⟩ := Option.bind_eq_some_iff.1 hfind
    exact ⟨c, Registry.mem_of_lookup? hc, hd⟩
  have hlib : ∀ tag d, (reg.library rd).find? tag = some d →
      ∃ t, Tree.build (reg.library rd) 0 (some d) = .ok t := by
    intro tag d hfind
    obtain ⟨c, hc, hd⟩ := hfound tag d hfind
    obtain ⟨-, t, ht⟩ := hall c hc
    exact ⟨t, hd ▸ ht⟩
  obtain ⟨o, g, outer, ho, hboundary, hinside, d', t, hd', hdname, ht, q, hq, hqid, hread, ho'⟩ :=
    Tree.exists_own_origin htree hlib hp hr hname
  obtain ⟨e, he, hedefinition⟩ : ∃ e ∈ reg.components, rd.definition? e = some d' := by
    rcases hd' with rfl | ⟨tag, hfind⟩
    · exact ⟨c, Registry.mem_of_lookup? hc, hd⟩
    · exact hfound tag d' hfind
  obtain ⟨own, hown, rfl⟩ :=
    exists_compile_of_findings_eq_nil hsorted hcache hrd hnone he (hedefinition ▸ ht)
  have hgname : e.name = g.name := by
    rw [← (Reading.definition?_eq_some_iff.1 hedefinition).2.1, hdname]
  rw [hgname] at hown
  exact ⟨o, g, outer, ho, hboundary, hinside, own, hown, q, hq, hqid, hread, ho'⟩

/-! ### A page and its child -/

namespace HiddenInput

def pageComponent : Component :=
  { name := "App", tag := "app", template := "<C [x]=\"n\" [x]=\"1\"/>"
    metadata := some pageMetadata }

def childComponent : Component :=
  { name := "C", tag := "c", template := "\x7b\x7b x \x7d\x7d", metadata := some childMetadata }

def registry : Registry := (({} : Registry).register pageComponent).register childComponent

/-- The two templates as they are read. -/
def reading : Reading :=
  { cache := none, templates := [("App", page.template), ("C", child.template)], parsed := 2 }

/-- The child as it is mounted on the page. -/
def shownIn : Placed :=
  ⟨.mk ⟨1, "C", .component childMetadata, inputs⟩ (some anchor) [shown] [⟨0, shown, none⟩] 1 [],
    frames⟩

theorem components_registry : registry.components = [pageComponent, childComponent] := by cbv

theorem parseTemplate_pageComponent :
    Reading.parseTemplate pageComponent = .ok page.template := by
  unfold Reading.parseTemplate
  rw [pageComponent, parse_page]

theorem parseTemplate_childComponent :
    Reading.parseTemplate childComponent = .ok child.template := by
  unfold Reading.parseTemplate
  rw [childComponent, parse_child]

theorem all_registry : Reading.all { cache := none } registry.components = reading := by
  rw [components_registry, Reading.all_cons, Reading.all_cons]
  simp only [Reading.step, Reading.lookup, parseTemplate_pageComponent,
    parseTemplate_childComponent]
  rfl

private theorem build_pageComponent :
    Tree.build (registry.library reading) 0 (reading.definition? pageComponent) = .ok tree := by
  cbv

theorem findings_registry : findings none registry = [] := by
  refine (findings_eq_nil_iff all_registry).2 ⟨rfl, ?_⟩
  rw [components_registry]
  refine List.forall_mem_cons.2 ⟨⟨.inl rfl, _, build_pageComponent⟩, List.forall_mem_singleton.2 ?_⟩
  exact ⟨.inl rfl, _, by cbv⟩

end HiddenInput

/-- What the child shows is declared by the child itself, and is a property there as in the tree of
the child alone. -/
theorem HiddenInput.lexical_shown :
    ∃ result,
      (compile (check none registry false).reading.cache (check none registry false).registry
      "App" false).outcome = .ok result ∧ result.tree = tree ∧
    ∃ o g outer, Frames.resolve? frames "x" = some o ∧
      Frames.boundary? frames = some (g :: outer) ∧
      Frames.boundary? (o.frame :: o.outer) = some (g :: outer) ∧
      ∃ own, (compile (check none registry false).reading.cache
        (check none registry false).registry g.name false).outcome = .ok own ∧
        ∃ q ∈ own.tree.scopes, q.id + g.id = 1 ∧
          ∃ o', Frames.resolve? q.frames "x" = some o' ∧ o'.kind = o.kind := by
  have hreachable : registry.Reachable := .register _ (.register _ .empty)
  have hcache : ∀ k ∈ (none : Option ParseCache), k.Faithful registry.components :=
    fun _ hk => nomatch hk
  have hclean := (check_clean_iff all_registry).2 findings_registry
  obtain ⟨result, hresult, htree⟩ := exists_compile_of_findings_eq_nil hreachable.sorted hcache
    all_registry findings_registry (components_registry ▸ List.mem_cons_self) build_pageComponent
  obtain ⟨hreading, hregistry⟩ := reading_of_check all_registry hclean.choose_spec.1
  rw [← hregistry, ← hreading] at hresult
  refine ⟨result, hresult, htree, ?_⟩
  have hshown : shownIn ∈ result.tree.scopes := by
    rw [htree]
    exact List.mem_cons_of_mem _ List.mem_cons_self
  obtain ⟨o, g, outer, ho, hboundary, hinside, own, hown, q, hq, hid, -, o', ho', hkind, -⟩ :=
    lexical_of_check_clean hreachable hcache hclean hresult
      hshown (r := ⟨0, some 0, ⟨.interpolation, "", .access ⟨"x", []⟩, shown.span⟩⟩)
      List.mem_cons_self List.mem_cons_self
  exact ⟨o, g, outer, ho, hboundary, hinside, own, hown, q, hq, hid, o', ho', hkind⟩

end ViewCompiler
