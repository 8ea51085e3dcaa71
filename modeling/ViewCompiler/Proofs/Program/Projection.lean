import ViewCompiler.Program.Projection
import ViewCompiler.Proofs.Scope.Classification
import ViewCompiler.Proofs.Scope.Ledger
import ViewCompiler.Proofs.Scope.Refusal

/-!
# No promise is broken

Building a tree ends in one of three kinds of report or in a tree (`Tree.isBuildReport_of_build`).
From a built tree, every later phase gets all it relies on: the ledger is kept, every value is
classified, the change maps are filled, and the program is read off the tables and is the one that
`Program.ofCompilation` describes (`Tree.build_safe`).

Each of these phases looks up what an earlier one has recorded, and would fail if it were not there:
the scope of a number, the ledger entry of a binding, the classification of a value, the definition
that a reference goes to. So what is shown here is that every key which a later phase asks for is
one that an earlier phase has entered, and that the answer is the one for that scope and that
binding.

A scope is found by its number, as no two scopes have one. A binding is found by the index of its
node and its place there: the bindings of a saved node are read with its index, and those that feed
a scope are read last, under the anchor where the scope is mounted. The tables of a tree are the
same data once more, in the form in which the program is put together (`Tables.exists_ofTree`).

The sample is the page with two inputs that `Scope/Partition` looks at.
-/

namespace ViewCompiler

open ViewCompiler.Template

/-! ### Reports of a build -/

/-- The reports with which a build can end. -/
inductive Problem.IsBuildReport : Problem → Prop where
  | unresolved (reference : UnresolvedReference) : IsBuildReport (.unresolved reference)
  | missingMetadata {detail : CodedProblem} (hcode : detail.code = "missing_metadata") :
      IsBuildReport (.coded detail none)
  | recursive {detail : CodedProblem} (hcode : detail.code = "recursive_component") :
      IsBuildReport (.coded detail none)

theorem Problem.Blames.isBuildReport {p : Problem} {b : Binding} {fs : Frames} (h : p.Blames b fs) :
    p.IsBuildReport := by
  obtain ⟨reference, rfl, -⟩ := h
  exact .unresolved reference

theorem Library.Refuses.isBuildReport {lib : Library} {root : Definition} {p : Problem}
    (h : lib.Refuses root p) : p.IsBuildReport := by
  cases h with
  | unknown => exact .unresolved _
  | bare => exact .missingMetadata rfl
  | @recursive names hback =>
    cases names with
    | nil => cases hback.head
    | cons first rest => exact .recursive rfl

/-- A build that fails does so with a report. -/
theorem Tree.isBuildReport_of_build {lib : Library} {firstId : Nat} {root : Option Definition}
    {e : Problem} (h : Tree.build lib firstId root = .error e) : e.IsBuildReport := by
  cases hmeta : root.bind (·.metadata) with
  | none =>
    obtain rfl := Tree.eq_of_build_of_metadata_eq_none h hmeta
    exact .missingMetadata rfl
  | some m =>
    obtain ⟨d, rfl, hd⟩ := Option.bind_eq_some_iff.1 hmeta
    rcases Tree.refused_or_blamed_of_build hd h with hrefused | ⟨-, -, -, q, -, hblamed⟩
    · exact hrefused.isBuildReport
    · rcases hblamed with ⟨b, -, hblames⟩ | ⟨b, -, hblames⟩
      · exact hblames.isBuildReport
      · exact hblames.isBuildReport

/-! ### Reading the tables -/

theorem Frames.exists_pathTo? {fs : Frames} {f : Frame} (h : f ∈ fs) :
    ∃ path, pathTo? f.id fs = some path := by
  induction fs with
  | nil => cases h
  | cons g outer ih =>
    rw [pathTo?]
    split
    · exact ⟨_, rfl⟩
    · rename_i hne
      rcases List.mem_cons.1 h with rfl | h
      · exact (hne rfl).elim
      · obtain ⟨path, hpath⟩ := ih h
        exact ⟨g :: path, by rw [hpath]; rfl⟩

/-- A scope is found by its number. -/
theorem Tree.find?_scopes {lib : Library} {firstId : Nat} {d : Option Definition} {t : Tree}
    (h : Tree.build lib firstId d = .ok t) {p : Placed} (hp : p ∈ t.scopes) :
    t.scopes.find? (·.id = p.id) = some p := by
  obtain ⟨found, hmem, hfound, hid⟩ :=
    exists_find?_of_mem hp (P := fun q : Placed => q.id = p.id) (decide_eq_true rfl)
  rw [hfound, (Tree.laidOut h).eq_of_id_eq hmem hp (of_decide_eq_true hid)]

namespace Placed

/-- The bindings that feed a scope are read last. -/
theorem map_binding_reads_fed (p : Placed) :
    (p.reads.filter (·.node = none)).map Read.binding = p.frame.feeds := by
  have hpairs : (p.reads.filter (·.node = none)).map Read.binding =
      (p.readPairs.filter (·.1 = none)).map Prod.snd := by
    rw [← map_node_binding_reads, List.filter_map, List.map_map]
    rfl
  have hown : (p.scope.saved.flatMap fun s =>
      (s.node.bindings.filter (!·.kind.isSelf)).map fun b => (some s.index, b)).filter
        (·.1 = none) = [] := by
    simp [List.filter_flatMap, List.filter_map]
  rw [hpairs, readPairs, List.filter_append, hown, List.nil_append, List.filter_map, List.map_map]
  simp [Function.comp_def]

/-- The bindings of a saved node are read with its index. -/
private theorem map_binding_reads_slot {p : Placed}
    (hsaved : p.scope.saved.Pairwise (·.index < ·.index)) {s : Slot} (hs : s ∈ p.scope.saved) :
    (p.reads.filter (·.node = some s.index)).map Read.binding =
      s.node.bindings.filter (!·.kind.isSelf) := by
  have hpairs : (p.reads.filter (·.node = some s.index)).map Read.binding =
      (p.readPairs.filter (·.1 = some s.index)).map Prod.snd := by
    rw [← map_node_binding_reads, List.filter_map, List.map_map]
    rfl
  have hfed : (p.frame.feeds.map fun b => ((none : Option Nat), b)).filter
      (·.1 = some s.index) = [] := by
    simp [List.filter_map]
  have hslot : ∀ s' : Slot,
      (((s'.node.bindings.filter (!·.kind.isSelf)).map fun b => (some s'.index, b)).filter
        (·.1 = some s.index)).map Prod.snd =
          if s'.index = s.index then s'.node.bindings.filter (!·.kind.isSelf) else [] := by
    intro s'
    rw [List.filter_map, List.map_map]
    by_cases hindex : s'.index = s.index
    · simp [hindex, Function.comp_def]
    · simp [hindex, Function.comp_def]
  rw [hpairs, readPairs, List.filter_append, hfed, List.append_nil, List.filter_flatMap,
    List.map_flatMap]
  simp only [hslot]
  exact flatMap_of_index hsaved hs _

end Placed

namespace Program

private theorem Operand.resolve_eq (o : Operand) {fs : Frames} {name : String}
    {origin : Frames.Origin} (h : fs.resolve? name = some origin) :
    o.resolve fs (fs.reference? name) = .ok (o.refer fs (fs.reference? name)) := by
  have hmem : origin.frame ∈ fs := (Frames.suffix_of_resolve? h).subset List.mem_cons_self
  obtain ⟨path, hpath⟩ := Frames.exists_pathTo? hmem
  simp only [Frames.reference?, h, Option.map_some, Operand.resolve, Operand.refer, hpath,
    Frames.accessTo, Option.getD_some, List.map_map]
  rfl

namespace Tables

variable {ts : Tables} {fs : Frames}

private theorem argument_eq {occurrence : Occurrence} {a : Argument}
    (hconstant : ts.constants.get occurrence = .ok (fs.argumentConstant a))
    (ha : fs.AdmitsArgument a) : ts.argument fs occurrence a = .ok (ofArgument fs a) := by
  rw [Tables.argument, hconstant]
  cases a with
  | literal => rfl
  | payload => rfl
  | access path =>
    obtain ⟨origin, ho, -⟩ := ha
    exact Operand.resolve_eq _ ho

private theorem value_eq {p : Placed} {r : Read}
    (hconstant : ts.constants.get (p.occurrence r) = .ok (fs.valueConstant r.binding.value))
    (harguments : ∀ a i, (a, i) ∈ r.binding.value.arguments.zipIdx →
      ts.constants.get (p.argumentOccurrence r a i) = .ok (fs.argumentConstant a))
    (hv : fs.Admits r.binding.value) : ts.value p r fs = .ok (ofValue fs r.binding.value) := by
  rw [Tables.value, hconstant]
  cases hvalue : r.binding.value with
  | text => rfl
  | literal => rfl
  | access path =>
    rw [hvalue] at hv
    obtain ⟨origin, ho, -⟩ := hv
    change Operand.resolve _ fs (fs.reference? path.root) >>= _ = _
    rw [Operand.resolve_eq _ ho]
    rfl
  | call method arguments =>
    rw [hvalue] at hv harguments
    obtain ⟨⟨origin, ho, -⟩, hadmits⟩ := hv
    have hrows : (arguments.zipIdx.mapM fun x => do
        return ⟨← ts.argument fs (p.argumentOccurrence r x.1 x.2) x.1, []⟩ :
          Except Problem (List Value)) = .ok (arguments.map fun a => ⟨ofArgument fs a, []⟩) := by
      rw [← List.zipIdx_map_fst 0 arguments, List.map_map, List.zipIdx_map_fst 0 arguments]
      refine mapM_eq_ok fun pair ha => ?_
      obtain ⟨a, i⟩ := pair
      dsimp only
      rw [argument_eq (harguments a i ha) (hadmits a (List.fst_mem_of_mem_zipIdx ha))]
      rfl
    exact bind_eq_ok_iff.2 ⟨_, rfl, bind_eq_ok_iff.2 ⟨_, Operand.resolve_eq _ ho,
      bind_eq_ok_iff.2 ⟨_, hrows, rfl⟩⟩⟩

end Tables

section Build

variable {lib : Library} {firstId : Nat} {d : Option Definition} {t : Tree}
  (h : Tree.build lib firstId d = .ok t)
include h

/-- The tables of a built tree are recorded. -/
theorem Tables.exists_ofTree : ∃ ts, Tables.ofTree t = .ok ts ∧ ts.tree = t ∧
    t.ledger = .ok ts.ledger ∧ t.constants = .ok ts.constants := by
  obtain ⟨l, hl, -⟩ := Tree.exists_ledger h
  have hcs := Tree.constants_eq h
  refine ⟨⟨t, l, _⟩, ?_, rfl, hl, hcs⟩
  rw [Tables.ofTree, hl, hcs]
  rfl

variable {ts : Tables} (htree : ts.tree = t) (hledger : t.ledger = .ok ts.ledger)
  (hconstants : t.constants = .ok ts.constants)
include htree hledger hconstants

/-- A binding is read off the tables as it is described. -/
private theorem Tables.binding_eq {p : Placed} (hp : p ∈ t.scopes) {r : Read} (hr : r ∈ p.reads) :
    ts.binding p r = .ok (ofBinding (p.readingFrames r.binding) r.binding) := by
  have hfind : ts.tree.scopes.find? (·.id = p.id) = some p := htree ▸ Tree.find?_scopes h hp
  have hframes : ts.framesOf p r = .ok (p.readingFrames r.binding) := by
    refine bind_eq_ok_iff.2 ⟨_, Tree.consumer_eq h hledger hp hr, ?_⟩
    simp only [hfind]
  obtain ⟨hvalue, harguments⟩ := Tree.get_constants h hconstants hp hr
  have hadmits := (Tree.admits h hp (Placed.binding_mem_of_mem_reads hr)).2
  rw [Tables.binding, hframes]
  change ts.value p r (p.readingFrames r.binding) >>= _ = _
  rw [Tables.value_eq hvalue harguments hadmits]
  rfl

/-- A scope is read off the tables as it is described. -/
private theorem Tables.scope_eq {p : Placed} (hp : p ∈ t.scopes) (changes : ChangeMap)
    (parent : Option Placed) : ts.scope changes parent p = .ok (ofPlaced changes parent p) := by
  have hbindings : ∀ P : Read → Bool, (p.reads.filter P).mapM (ts.binding p) =
      .ok ((p.reads.filter P).map fun r => ofBinding (p.readingFrames r.binding) r.binding) :=
    fun P => mapM_eq_ok fun r hr =>
      Tables.binding_eq h htree hledger hconstants hp (List.mem_filter.1 hr).1
  have hlaid := (Tree.laidOut h).isLaid p hp
  -- What feeds the scope is read outside it, and what stands on its nodes is read inside.
  have hfed : (p.reads.filter (·.node = none)).mapM (ts.binding p) =
      .ok (p.frame.feeds.map (ofBinding p.outer)) := by
    rw [hbindings, ← p.map_binding_reads_fed, List.map_map]
    refine congrArg Except.ok (List.map_congr_left fun r hr => ?_)
    have hmem : r.binding ∈ p.frame.feeds := by
      rw [← p.map_binding_reads_fed]
      exact List.mem_map_of_mem hr
    rw [Placed.readingFrames, if_pos (hlaid.fed.isSelf _ hmem)]
    rfl
  have hnode : ∀ s ∈ p.scope.saved, ts.node p s = .ok (ofSlot p.frames s) := by
    intro s hs
    obtain ⟨entered, owner, nextId, hcontent⟩ := hlaid.content
    have hreads := Placed.map_binding_reads_slot hcontent.ascending.pairwise hs
    have hown : (p.reads.filter (·.node = some s.index)).mapM (ts.binding p) =
        .ok ((s.node.bindings.filter (!·.kind.isSelf)).map (ofBinding p.frames)) := by
      rw [hbindings, ← hreads, List.map_map]
      refine congrArg Except.ok (List.map_congr_left fun r hr => ?_)
      have hmem : r.binding ∈ s.node.bindings.filter (!·.kind.isSelf) := by
        rw [← hreads]
        exact List.mem_map_of_mem hr
      rw [Placed.readingFrames, if_neg (by simpa using (List.mem_filter.1 hmem).2)]
      rfl
    rw [Tables.node, hown]
    rfl
  rw [Tables.scope, hfed]
  change p.scope.saved.mapM (ts.node p) >>= _ = _
  rw [mapM_eq_ok hnode]
  rfl

end Build

/-- The program of a compilation whose tree was built is read off the tables without fail. -/
theorem project_eq {lib : Library} {firstId : Nat} {d : Option Definition} {c : Compilation}
    (h : Tree.build lib firstId d = .ok c.tree) : project c = .ok (ofCompilation c) := by
  obtain ⟨ts, hts, htree, hledger, hconstants⟩ := Tables.exists_ofTree h
  rw [project, hts]
  change (c.tree.scopes.mapM _ : Except Problem (List Program.Scope)) >>= _ = _
  rw [mapM_eq_ok fun p hp => Tables.scope_eq h htree hledger hconstants hp _ _]
  rfl

end Program

/-! ### The whole pipeline -/

/-- What a value depends on can be reached from its consumer: its definition, and the instance to
which the definition belongs. -/
def Placed.Reaches (p : Placed) (d : Placed.Dependency) : Prop :=
  ∃ o boundary, d.origin? = some o ∧ o.boundary? = some boundary ∧
    (∃ path, Frames.pathTo? o.frame.id p.frames = some path) ∧
    ∃ path, Frames.pathTo? boundary.id p.frames = some path

theorem Tree.reaches {lib : Library} {firstId : Nat} {root : Option Definition} {t : Tree}
    (h : Tree.build lib firstId root = .ok t) {p : Placed} (hp : p ∈ t.scopes) {r : Read}
    (hr : r ∈ p.reads) {e : Placed.Dependency} (he : e ∈ p.dependencies r) : p.Reaches e := by
  obtain ⟨v, o, rfl, hdep⟩ := (Tree.mem_dependencies h hp hr).1 he
  have hroot := Scope.frame_mem_of_suffix hp hdep.inside
  obtain ⟨g, rest, hboundary⟩ := Frames.exists_boundary? hroot (Tree.laidOut h).isInstance
  have hg : g ∈ p.frames :=
    ((Frames.suffix_of_boundary? hboundary).trans hdep.inside).subset List.mem_cons_self
  refine ⟨o, g, rfl, Frames.Origin.boundary?_eq_some_iff.2 ⟨rest, hboundary⟩, ?_, ?_⟩
  · exact Frames.exists_pathTo? (hdep.inside.subset List.mem_cons_self)
  · exact Frames.exists_pathTo? hg

/-- A build ends in a report or in a tree. From a tree, the ledger and the classification are
recorded and answer for every binding, everything a value depends on can be reached and the change
maps are filled, and every compilation made of them is projected to the program that describes
it. -/
theorem Tree.build_safe (lib : Library) (firstId : Nat) (root : Option Definition) :
    (∃ e, Tree.build lib firstId root = .error e ∧ e.IsBuildReport) ∨
    ∃ t ledger constants changes, Tree.build lib firstId root = .ok t ∧
      t.ledger = .ok ledger ∧ t.constants = .ok constants ∧ t.changes = .ok changes ∧
      (∀ p ∈ t.scopes, ∀ r ∈ p.reads, ledger.consumer p r = .ok p.id ∧
        constants.get (p.occurrence r) = .ok (p.isConstant r.binding) ∧
        (∀ a i, (a, i) ∈ r.binding.value.arguments.zipIdx →
          constants.get (p.argumentOccurrence r a i) =
            .ok ((p.readingFrames r.binding).argumentConstant a)) ∧
        ∀ e ∈ p.dependencies r, p.Reaches e) ∧
      ∀ name styles, Program.project ⟨name, t, changes, styles⟩ =
        .ok (Program.ofCompilation ⟨name, t, changes, styles⟩) := by
  cases h : Tree.build lib firstId root with
  | error e => exact .inl ⟨e, rfl, Tree.isBuildReport_of_build h⟩
  | ok t =>
    obtain ⟨ledger, hledger, -⟩ := Tree.exists_ledger h
    have hconstants := Tree.constants_eq h
    refine .inr ⟨t, ledger, _, _, rfl, hledger, hconstants, Tree.changes_eq h, ?_, ?_⟩
    · intro p hp r hr
      obtain ⟨hvalue, harguments⟩ := Tree.get_constants h hconstants hp hr
      exact ⟨Tree.consumer_eq h hledger hp hr, hvalue, harguments, fun e he =>
        Tree.reaches h hp hr he⟩
    · exact fun name styles => Program.project_eq h

/-- The page with two inputs gets through all phases. -/
theorem HiddenInput.project_page : ∃ changes, HiddenInput.tree.changes = .ok changes ∧
    ∃ program, Program.project ⟨"App", HiddenInput.tree, changes, []⟩ = .ok program := by
  rcases Tree.build_safe HiddenInput.library 0 (some HiddenInput.page) with
    ⟨e, herror, -⟩ | ⟨t, -, -, changes, htree, -, -, hchanges, -, hproject⟩
  · rw [HiddenInput.build_page] at herror
    cases herror
  · obtain rfl := Except.ok.inj (HiddenInput.build_page.symm.trans htree)
    exact ⟨changes, hchanges, _, hproject "App" []⟩

end ViewCompiler
