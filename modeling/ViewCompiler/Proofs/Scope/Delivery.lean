import ViewCompiler.Proofs.Scope.Change
import ViewCompiler.Proofs.Template.Payload

/-!
# No update is lost on the way down

A value that may change does so because some property that a method can assign changed. The change
reaches the consumer of the value through the triggers of different values: those of the inputs and
loop sources between the property and the consumer, and of the value itself. `HasSource` states that
these triggers leave no gap, from an instance with such a property down to a scope. Every scope that
reads a value that may change has a source, by induction on how the change spreads
(`Tree.hasSource_of_isConstant`), as long as no value outside a handler depends on the payload of an
event. In templates that were read none does.

Two modules meet here. `Scope/Constancy` says how change spreads: a value may change because a
property can be assigned, or because an input or a loop source outside may change. `Scope/Change`
says what the change maps hold: for each value that may change, the way from the scope of its
declaration down to its consumer. One step of the first is one value of the second. The property
that can be assigned is where the chain starts, an input is consumed by the instance that it feeds,
and what that instance declares is consumed further down.

The last conjunct of the result is the other half: where nothing can be assigned nothing may change,
so the maps are empty (`Tree.updates_delivered`).
-/

namespace ViewCompiler

open ViewCompiler.Template

/-! ### The bindings of a tree -/

private theorem Placed.forall_bindings {P : Binding → Prop} {p : Placed}
    (hsaved : ∀ s ∈ p.scope.saved, ∀ b ∈ s.node.bindings, P b) (hfeeds : ∀ b ∈ p.frame.feeds, P b) :
    ∀ b ∈ p.bindings, P b := by
  intro b hb
  rcases List.mem_append.1 hb with hb | hb
  · obtain ⟨s, hs, hbs⟩ := List.mem_flatMap.1 hb
    exact hsaved s hs b (List.mem_filter.1 hbs).1
  · exact hfeeds b hb

section Templates

variable {lib : Library} {P : Binding → Prop}
  (hlib : ∀ tag d, lib.find? tag = some d → AllBindings P d.template)
include hlib

/-- Whatever expansion saves and mounts has its bindings from the templates. -/
theorem Laid.allBindings {entered : List String} {owner : String} {index id : Nat}
    {nodes : List Node} {e : Expansion} (h : Laid lib entered owner index id nodes e)
    (hnodes : AllBindings P nodes) :
    (∀ s ∈ e.saved, ∀ b ∈ s.node.bindings, P b) ∧
      ∀ outer, ∀ p ∈ placedAll outer e.children, ∀ b ∈ p.bindings, P b := by
  -- What is fed to a mounted scope is some of the bindings of the node that it is mounted at.
  induction h with
  | nil => simp [placedAll]
  | leaf _ _ ih =>
    obtain ⟨⟨hown, -⟩, hrest⟩ := allBindings_cons.1 hnodes
    obtain ⟨hsaved, hmounted⟩ := ih hrest
    exact ⟨List.forall_mem_cons.2 ⟨hown, hsaved⟩, hmounted⟩
  | element _ _ ihInner ihRest =>
    obtain ⟨⟨hown, hinner⟩, hrest⟩ := allBindings_cons.1 hnodes
    obtain ⟨hsaved, hmounted⟩ := ihInner hinner
    obtain ⟨hsaved', hmounted'⟩ := ihRest hrest
    refine ⟨List.forall_mem_cons.2 ⟨hown, List.forall_mem_append.2 ⟨hsaved, hsaved'⟩⟩, ?_⟩
    intro outer
    rw [placedAll_append]
    exact List.forall_mem_append.2 ⟨hmounted outer, hmounted' outer⟩
  | directive hframe _ _ ihInner ihRest =>
    obtain ⟨⟨hown, hinner⟩, hrest⟩ := allBindings_cons.1 hnodes
    obtain ⟨hsaved, hmounted⟩ := ihInner hinner
    obtain ⟨hsaved', hmounted'⟩ := ihRest hrest
    refine ⟨List.forall_mem_cons.2 ⟨hown, hsaved'⟩, fun outer => ?_⟩
    rw [placedAll, Scope.placedIn_eq]
    refine List.forall_mem_append.2 ⟨List.forall_mem_cons.2 ⟨?_, hmounted _⟩, hmounted' outer⟩
    subst hframe
    exact Placed.forall_bindings hsaved fun b hb => hown b (List.mem_filter.1 hb).1
  | component hfind _ _ hframe _ _ ihInner ihRest =>
    obtain ⟨⟨hown, -⟩, hrest⟩ := allBindings_cons.1 hnodes
    obtain ⟨hsaved, hmounted⟩ := ihInner (hlib _ _ hfind)
    obtain ⟨hsaved', hmounted'⟩ := ihRest hrest
    refine ⟨List.forall_mem_cons.2 ⟨hown, hsaved'⟩, fun outer => ?_⟩
    rw [placedAll, Scope.placedIn_eq]
    refine List.forall_mem_append.2 ⟨List.forall_mem_cons.2 ⟨?_, hmounted _⟩, hmounted' outer⟩
    subst hframe
    exact Placed.forall_bindings hsaved fun b hb => hown b (List.mem_filter.1 hb).1

/-- All bindings of a tree come from the templates. -/
theorem Tree.allBindings {firstId : Nat} {d : Definition} {t : Tree}
    (h : Tree.build lib firstId (some d) = .ok t) (hroot : AllBindings P d.template) :
    ∀ p ∈ t.scopes, ∀ b ∈ p.bindings, P b := by
  obtain ⟨_, m, content, hd, -, hlaid, hscope⟩ :=
    Scope.exists_laid_of_ofDefinition (Tree.build_eq_ok_iff.1 h).1
  obtain rfl := Option.some.inj hd
  obtain ⟨hsaved, hmounted⟩ := hlaid.allBindings hlib hroot
  rw [Tree.scopes, Scope.placed, hscope, Scope.placedIn_eq]
  refine List.forall_mem_cons.2 ⟨?_, hmounted _⟩
  refine Placed.forall_bindings hsaved ?_
  simp [Placed.frame, Scope.frame]

end Templates

/-! ### Chains of triggers -/

/-- A method of the instance can assign one of its properties. -/
def Placed.CanMutate (p : Placed) : Prop :=
  ∃ m, p.frame.metadata? = some m ∧ ∃ q ∈ m.properties, m.canMutate q = true

/-- On the way from `source` down to `k`, every scope has a trigger for the next one. -/
def Tree.Delivers (t : Tree) (ms : ChangeMaps) (source k : Placed) : Prop :=
  ∀ p ∈ t.scopes, ∀ c ∈ p.scope.children, source.frames <:+ p.frames →
    (p.child c).frames <:+ k.frames → (ms.of p.id).triggersInto c.frame.id ≠ []

/-- An instance with a property that can be assigned is `k` or lies around it, and changes are
delivered from there. -/
def Tree.HasSource (t : Tree) (ms : ChangeMaps) (k : Placed) : Prop :=
  ∃ source ∈ t.scopes, source.frames <:+ k.frames ∧ source.CanMutate ∧ t.Delivers ms source k

/-- There is no way from a scope down to itself. -/
private theorem Tree.delivers_self (t : Tree) (ms : ChangeMaps) (k : Placed) :
    t.Delivers ms k k := by
  intro p _ c _ hsource hchild
  have hle := hsource.length_le
  have hle' := hchild.length_le
  rw [Placed.child, List.length_cons] at hle'
  omega

/-- A value that is forwarded into a child is a trigger. -/
private theorem Tree.IsChangeMap.triggersInto_ne_nil {t : Tree} {p : Placed} {m : ChangeMap}
    (h : t.IsChangeMap p m) {c : Scope} (hc : c ∈ p.scope.children) {v : Occurrence}
    (hf : t.Forwards p c v) : m.triggersInto c.frame.id ≠ [] := by
  classical
  have hmem : ⟨v, decide (t.Pushes p c v), true⟩ ∈ m.triggersInto c.frame.id := by
    refine (h.passed c hc v _).2 ⟨?_, decide_eq_true_iff, iff_of_true rfl hf⟩
    simp [Reason.isSome]
  exact List.ne_nil_of_mem hmem

section Built

variable {lib : Library} {firstId : Nat} {d : Option Definition} {t : Tree}
  (h : Tree.build lib firstId d = .ok t) {ms : ChangeMaps} (hms : t.changes = .ok ms)
include h hms

/-- The triggers of one value lengthen a chain from its declaration to its consumer. -/
theorem Tree.hasSource_of_dependsOn {k : Placed} (hk : k ∈ t.scopes) {r : Read} (hr : r ∈ k.reads)
    {v : Occurrence} {o : Frames.Origin} (hdep : k.DependsOn r v o)
    (hsource : ∀ declaring ∈ t.scopes, declaring.frames = o.frame :: o.outer →
      t.HasSource ms declaring) : t.HasSource ms k := by
  obtain ⟨declaring, hd, hframes⟩ := exists_placed_of_suffix hk hdep.inside
  obtain ⟨source, hs, haround, hmutate, hdelivers⟩ := hsource declaring hd hframes
  have hinside : declaring.frames <:+ k.frames := hframes ▸ hdep.inside
  refine ⟨source, hs, haround.trans hinside, hmutate, ?_⟩
  intro p hp c hc hp_source hchild
  -- Above the declaration the chain is there already; from there on the value itself is forwarded.
  rcases List.suffix_or_suffix_of_suffix hchild hinside with habove | hbelow
  · exact hdelivers p hp c hc hp_source habove
  · rcases List.suffix_cons_iff.1 hbelow with heq | hbelow
    · exact hdelivers p hp c hc hp_source (heq ▸ List.suffix_refl _)
    · have hmap : t.IsChangeMap p (ms.of p.id) := by
        rw [Tree.of_changes h hms hp]
        exact Tree.isChangeMap h hp
      have hconsumes : t.Consumes p c v o := ⟨k, hk, hchild, r, hr, hdep⟩
      have hp_inside : p.Inside o := by
        rw [Placed.Inside, ← hframes]
        exact hbelow
      exact hmap.triggersInto_ne_nil hc ⟨o, hconsumes, hp_inside⟩

end Built

/-! ### Every change has a source -/

/-- The values that a scope reads outside handlers, as in `Placed.Reads`. -/
inductive Placed.Uses (p : Placed) : Subject → Prop where
  | value {r} (hr : r ∈ p.reads) (hk : r.binding.kind.isHandler = false) :
      p.Uses (.value (p.readingFrames r.binding) r.binding.value)
  | argument {r method arguments a} (hr : r ∈ p.reads) (hk : r.binding.kind.isHandler = false)
      (hv : r.binding.value = .call method arguments) (ha : a ∈ arguments) :
      p.Uses (.argument (p.readingFrames r.binding) a)
  | path {fs path} (ha : p.Uses (.argument fs (.access path))) : p.Uses (.value fs (.access path))

namespace Placed.Uses

variable {k : Placed} {fs : Frames}

theorem reads {s : Subject} (h : k.Uses s) : k.Reads s := by
  induction h with
  | value hr _ => exact .value (binding_mem_of_mem_reads hr)
  | argument hr _ hv ha => exact .argument (binding_mem_of_mem_reads hr) hv ha
  | path _ ih => exact .path ih

/-- A path that is used and may change is one of the dependencies. -/
private theorem dependsOn_access {path : Path} (h : k.Uses (.value fs (.access path)))
    (hc : fs.nameConstant path.root = false) {o : Frames.Origin}
    (ho : fs.resolve? path.root = some o) : ∃ r ∈ k.reads, ∃ v, k.DependsOn r v o := by
  generalize hs : Subject.value fs (.access path) = s at h
  cases h with
  | @value r hr hk =>
    obtain ⟨rfl, hv⟩ := Subject.value.inj hs
    refine ⟨r, hr, _, .access hk hv.symm ?_ ho⟩
    rw [isConstant, ← hv]
    exact hc
  | argument => cases hs
  | path ha =>
    obtain ⟨rfl, hv⟩ := Subject.value.inj hs
    obtain rfl := Value.access.inj hv
    generalize hs' : Subject.argument fs (.access path) = s' at ha
    cases ha with
    | value => cases hs'
    | @argument r method arguments a hr hk hv' ha' =>
      obtain ⟨rfl, rfl⟩ := Subject.argument.inj hs'
      obtain ⟨i, hi⟩ := List.getElem?_of_mem ha'
      exact ⟨r, hr, _, .argument hk hv' hi hc ho⟩
    | path => cases hs'

/-- A call that is used and may change is one of the dependencies. -/
private theorem dependsOn_call {method : String} {arguments : List Argument}
    (h : k.Uses (.value fs (.call method arguments)))
    (hc : fs.valueConstant (.call method arguments) = false) {o : Frames.Origin}
    (ho : fs.resolve? method = some o) : ∃ r ∈ k.reads, ∃ v, k.DependsOn r v o := by
  generalize hs : Subject.value fs (.call method arguments) = s at h
  cases h with
  | @value r hr hk =>
    obtain ⟨rfl, hv⟩ := Subject.value.inj hs
    refine ⟨r, hr, _, .call hk hv.symm ?_ ho⟩
    rw [isConstant, ← hv]
    exact hc
  | argument => cases hs
  | path => cases hs

private theorem call_argument {method : String} {arguments : List Argument} {a : Argument}
    (h : k.Uses (.value fs (.call method arguments))) (ha : a ∈ arguments) :
    k.Uses (.argument fs a) := by
  generalize hs : Subject.value fs (.call method arguments) = s at h
  cases h with
  | @value r hr hk =>
    obtain ⟨rfl, hv⟩ := Subject.value.inj hs
    exact .argument hr hk hv.symm ha
  | argument => cases hs
  | path => cases hs

/-- The payload is used in handlers only. -/
private theorem not_payload (hpayload : ∀ b ∈ k.bindings, b.HandlesPayload)
    (h : k.Uses (.argument fs .payload)) : False := by
  generalize hs : Subject.argument fs .payload = s at h
  cases h with
  | value => cases hs
  | @argument r method arguments a hr hk hv ha =>
    obtain ⟨rfl, rfl⟩ := Subject.argument.inj hs
    have hhas : r.binding.value.HasPayload := by
      rw [hv]
      exact ha
    rw [hpayload _ (binding_mem_of_mem_reads hr) hhas] at hk
    cases hk
  | path => cases hs

/-- What feeds a scope, other than a handler, is used around it. -/
theorem of_feed {b : Binding} (hb : b ∈ k.frame.feeds) (hself : b.kind.isSelf = true)
    (hk : b.kind.isHandler = false) : k.Uses (.value k.outer b.value) := by
  have hpair : (none, b) ∈ k.readPairs :=
    List.mem_append_right _ (List.mem_map_of_mem (f := fun b => (none, b)) hb)
  rw [← map_node_binding_reads] at hpair
  obtain ⟨r, hr, heq⟩ := List.mem_map.1 hpair
  obtain ⟨-, rfl⟩ := Prod.mk.inj heq
  have huses : k.Uses (.value (k.readingFrames r.binding) r.binding.value) := .value hr hk
  rw [readingFrames, if_pos hself] at huses
  exact huses

end Placed.Uses

/-- Whoever uses a value, and whoever declares a property, has a source. -/
def Tree.Sourced (t : Tree) (ms : ChangeMaps) : Subject → Prop
  | .property f outer q => ∀ k ∈ t.scopes, k.frames = f :: outer →
      (∃ m, f.metadata? = some m ∧ q ∈ m.properties) → t.HasSource ms k
  | s => ∀ k ∈ t.scopes, k.Uses s → t.HasSource ms k

section Built

variable {lib : Library} {firstId : Nat} {d : Option Definition} {t : Tree}
  (h : Tree.build lib firstId d = .ok t) {ms : ChangeMaps} (hms : t.changes = .ok ms)
include h hms

/-- A path has a source if the scope of its declaration has one. -/
theorem Tree.hasSource_access {k : Placed} (hk : k ∈ t.scopes) {fs : Frames} {path : Path}
    (huses : k.Uses (.value fs (.access path)))
    (hc : MayChange lastInput (.value fs (.access path))) {o : Frames.Origin}
    (ho : fs.resolve? path.root = some o)
    (hsource : ∀ declaring ∈ t.scopes, declaring.frames = o.frame :: o.outer →
      t.HasSource ms declaring) : t.HasSource ms k := by
  have hreads : t.Reads (.value fs (.access path)) := ⟨k, hk, huses.reads⟩
  have hconst := (Tree.isConstant_eq_false_iff h hreads).2 hc
  obtain ⟨r, hr, v, hdep⟩ := huses.dependsOn_access hconst ho
  exact Tree.hasSource_of_dependsOn h hms hk hr hdep hsource

/-- Everything that may change has a source. The induction follows the change back from the
consumer to the property that is assigned. -/
private theorem Tree.sourced_of_mayChange
    (hpayload : ∀ k ∈ t.scopes, ∀ b ∈ k.bindings, b.HandlesPayload) {s : Subject}
    (hc : MayChange lastInput s) : t.Sourced ms s := by
  induction hc with
  | payload => exact fun k hk huses => (huses.not_payload (hpayload k hk)).elim
  | @assigned f outer m q hm hq =>
    rintro k hk hframes ⟨m', hm', hmem⟩
    obtain rfl := Option.some.inj (hm.symm.trans hm')
    obtain ⟨rfl, -⟩ := List.cons.inj ((Placed.frames_eq hk).symm.trans hframes)
    exact ⟨k, hk, List.suffix_refl _, ⟨m, hm, q, hmem, hq⟩, t.delivers_self ms k⟩
  | @fed f outer q b hb _ ih =>
    intro k hk hframes _
    obtain ⟨rfl, rfl⟩ := List.cons.inj ((Placed.frames_eq hk).symm.trans hframes)
    obtain ⟨hmem, hkind, -⟩ := anyInput_of_lastInput hb
    exact ih k hk (.of_feed hmem (by rw [hkind]; rfl) (by rw [hkind]; rfl))
  | @property fs path f outer ho hq ih =>
    intro k hk huses
    obtain ⟨m, hm, hmem, -⟩ := Frames.nameConstant_property ho
    -- A path leads to the scope that declares its root, where the property has its source.
    refine Tree.hasSource_access h hms hk huses (.property ho hq) ho fun declaring hd hframes => ?_
    exact ih declaring hd hframes ⟨m, hm, hmem⟩
  | @getter fs path f outer m q ho hm hmem hq ih =>
    intro k hk huses
    refine Tree.hasSource_access h hms hk huses (.getter ho hm hmem hq) ho
      fun declaring hd hframes => ?_
    exact ih declaring hd hframes ⟨m, hm, hmem⟩
  | @loop fs path kind f outer b ho hkind hb hs hv ih =>
    intro k hk huses
    refine Tree.hasSource_access h hms hk huses (.loop ho hkind hb hs hv) ho
      fun declaring hd hframes => ?_
    obtain ⟨rfl, rfl⟩ := List.cons.inj ((Placed.frames_eq hd).symm.trans hframes)
    exact ih declaring hd (.of_feed hb (by rw [hs]; rfl) (by rw [hs]; rfl))
  | argument _ ih => exact fun k hk huses => ih k hk (.path huses)
  | callArgument ha _ ih => exact fun k hk huses => ih k hk (huses.call_argument ha)
  | @callInstance fs method arguments f outer m q ho hm hmem hq ih =>
    intro k hk huses
    have hreads : t.Reads (.value fs (.call method arguments)) := ⟨k, hk, huses.reads⟩
    have hconst := (Tree.isConstant_eq_false_iff h hreads).2 (.callInstance ho hm hmem hq)
    obtain ⟨r, hr, v, hdep⟩ := huses.dependsOn_call hconst ho
    refine Tree.hasSource_of_dependsOn h hms hk hr hdep fun declaring hd hframes => ?_
    exact ih declaring hd hframes ⟨m, hm, hmem⟩

/-- Whoever reads a value that may change, other than a handler, has a source. -/
theorem Tree.hasSource_of_isConstant
    (hpayload : ∀ k ∈ t.scopes, ∀ b ∈ k.bindings, b.HandlesPayload) {k : Placed}
    (hk : k ∈ t.scopes) {r : Read} (hr : r ∈ k.reads) (hh : r.binding.kind.isHandler = false)
    (hc : k.isConstant r.binding = false) : t.HasSource ms k := by
  have huses : k.Uses (.value (k.readingFrames r.binding) r.binding.value) := .value hr hh
  have hmay := (Tree.isConstant_eq_false_iff h ⟨k, hk, huses.reads⟩).1 hc
  exact Tree.sourced_of_mayChange h hms hpayload hmay k hk huses

omit hms in
/-- A native value stands on a saved node. -/
private theorem Tree.exists_slot_of_isNative {k : Placed} (hk : k ∈ t.scopes) {r : Read}
    (hr : r ∈ k.reads) (hn : r.binding.kind.isNative = true) :
    ∃ s ∈ k.scope.saved, r.binding ∈ s.node.bindings ∧ r.node = some s.index := by
  have hpair : (r.node, r.binding) ∈ k.readPairs := by
    rw [← Placed.map_node_binding_reads]
    exact List.mem_map_of_mem hr
  rcases List.mem_append.1 hpair with hown | hfed
  · obtain ⟨s, hs, hmem⟩ := List.mem_flatMap.1 hown
    obtain ⟨b, hb, heq⟩ := List.mem_map.1 hmem
    obtain ⟨hnode, rfl⟩ := Prod.mk.inj heq
    exact ⟨s, hs, (List.mem_filter.1 hb).1, hnode.symm⟩
  · obtain ⟨b, hb, heq⟩ := List.mem_map.1 hfed
    obtain ⟨-, rfl⟩ := Prod.mk.inj heq
    have hself := ((Tree.laidOut h).isLaid k hk).fed.isSelf _ hb
    rw [BindingKind.not_isSelf_of_isNative hn] at hself
    cases hself

/-- A native value that may change is written to its node. -/
private theorem Tree.mem_valuesAt_of_isNative {k : Placed} (hk : k ∈ t.scopes) {r : Read}
    (hr : r ∈ k.reads) (hn : r.binding.kind.isNative = true) (hc : k.isConstant r.binding = false)
    {i : Nat} (hi : r.node = some i) : k.occurrence r ∈ (ms.of k.id).valuesAt i := by
  rw [Tree.of_changes h hms hk]
  change k.occurrence r ∈ k.writes.valuesAt i
  rw [Placed.valuesAt_writes]
  refine List.mem_map_of_mem (List.mem_filter.2 ⟨hr, ?_⟩)
  simp [Placed.writesTo, hi, hn, hc]

/-- Without a source there is nothing to do. -/
private theorem Tree.isEmpty_of_forall_not_hasSource
    (hpayload : ∀ k ∈ t.scopes, ∀ b ∈ k.bindings, b.HandlesPayload)
    (hnone : ∀ k ∈ t.scopes, ¬t.HasSource ms k) {k : Placed} (hk : k ∈ t.scopes) :
    (ms.of k.id).isEmpty = true := by
  have hpasses : t.passes = [] := by
    unfold Tree.passes
    refine List.flatMap_eq_nil_iff.2 fun k hk => List.flatMap_eq_nil_iff.2 fun r hr =>
      List.flatMap_eq_nil_iff.2 fun e he => ?_
    obtain ⟨v, o, rfl, hdep⟩ := (Tree.mem_dependencies h hk hr).1 he
    exact (hnone k hk (Tree.hasSource_of_isConstant h hms hpayload hk hr hdep.isHandler
      hdep.isConstant)).elim
  have hwritten : k.reads.filterMap k.written? = [] := by
    refine List.filterMap_eq_nil_iff.2 fun r hr => Option.eq_none_iff_forall_ne_some.2 ?_
    rintro ⟨i, v⟩ hv
    obtain ⟨-, hread, -⟩ := Placed.written?_eq_some_iff.1 hv
    rw [Bool.and_eq_true, Bool.not_eq_true'] at hread
    have hh := BindingKind.not_isHandler_of_isNative hread.1
    exact hnone k hk (Tree.hasSource_of_isConstant h hms hpayload hk hr hh hread.2)
  rw [Tree.of_changes h hms hk, hpasses, Placed.writes_eq, hwritten]
  rfl

end Built

/-- In a tree built from templates that were read, a value that may change and is read outside a
handler is updated: its scope has a source, and a native value is written to its node. If no
property of any instance can be assigned, there is nothing to update anywhere. -/
theorem Tree.updates_delivered {lib : Library} {firstId : Nat} {d : Definition} {t : Tree}
    (hroot : ∃ name source, parse name source = .ok d.template)
    (hlib : ∀ tag d', lib.find? tag = some d' → ∃ name source, parse name source = .ok d'.template)
    (h : Tree.build lib firstId (some d) = .ok t) :
    ∃ ms, t.changes = .ok ms ∧
      (∀ k ∈ t.scopes, ∀ r ∈ k.reads, r.binding.kind.isHandler = false →
        k.isConstant r.binding = false →
        t.HasSource ms k ∧
          (r.binding.kind.isNative = true → ∃ s ∈ k.scope.saved, r.binding ∈ s.node.bindings ∧
            r.node = some s.index ∧ k.occurrence r ∈ (ms.of k.id).valuesAt s.index)) ∧
      ((∀ k ∈ t.scopes, ¬k.CanMutate) → ∀ k ∈ t.scopes, (ms.of k.id).isEmpty = true) := by
  have hpayload : ∀ k ∈ t.scopes, ∀ b ∈ k.bindings, b.HandlesPayload := by
    refine Tree.allBindings (fun tag d' hd' => ?_) h ?_
    · obtain ⟨name, source, hparse⟩ := hlib tag d' hd'
      exact handlesPayload_of_parse hparse
    · obtain ⟨name, source, hparse⟩ := hroot
      exact handlesPayload_of_parse hparse
  have hms := Tree.changes_eq h
  refine ⟨_, hms, ?_, ?_⟩
  · intro k hk r hr hh hc
    refine ⟨Tree.hasSource_of_isConstant h hms hpayload hk hr hh hc, fun hn => ?_⟩
    obtain ⟨s, hs, hb, hi⟩ := Tree.exists_slot_of_isNative h hk hr hn
    exact ⟨s, hs, hb, hi, Tree.mem_valuesAt_of_isNative h hms hk hr hn hc hi⟩
  · intro hconst k hk
    refine Tree.isEmpty_of_forall_not_hasSource h hms hpayload ?_ hk
    rintro k hk ⟨source, hs, -, hmutate, -⟩
    exact hconst source hs hmutate

/-- The page with two inputs delivers the change of its property into the child. -/
theorem HiddenInput.updates_delivered_page :
    Tree.build HiddenInput.library 0 (some HiddenInput.page) = .ok HiddenInput.tree ∧
    ∃ ms, HiddenInput.tree.changes = .ok ms ∧
      (∀ k ∈ HiddenInput.tree.scopes, ∀ r ∈ k.reads, r.binding.kind.isHandler = false →
        k.isConstant r.binding = false →
        HiddenInput.tree.HasSource ms k ∧
          (r.binding.kind.isNative = true → ∃ s ∈ k.scope.saved, r.binding ∈ s.node.bindings ∧
            r.node = some s.index ∧ k.occurrence r ∈ (ms.of k.id).valuesAt s.index)) ∧
      ((∀ k ∈ HiddenInput.tree.scopes, ¬k.CanMutate) →
        ∀ k ∈ HiddenInput.tree.scopes, (ms.of k.id).isEmpty = true) := by
  refine ⟨HiddenInput.build_page, Tree.updates_delivered ⟨_, _, HiddenInput.parse_page⟩ ?_
    HiddenInput.build_page⟩
  intro tag d hd
  rcases HiddenInput.eq_of_find? hd with rfl | rfl
  · exact ⟨_, _, HiddenInput.parse_page⟩
  · exact ⟨_, _, HiddenInput.parse_child⟩

end ViewCompiler
