import ViewCompiler.Proofs.Scope.Passing

/-!
# Change maps meet their specification

The change maps of a tree are filled by nested loops over scopes, bindings, dependencies and steps,
with reasons merged on the way. `Tree.IsChangeMap` says without any loop what the map of a scope has
to hold: at each saved node the native values that may change, and for each child the values whose
consumers lie in it, with a reason to push if the scope observes the declaration of the value and a
reason to forward if the scope lies inside it. On a built tree the loops succeed and fill exactly
these maps (`Tree.changes_eq_ok`).

The proof takes the loops apart from the inside.

* Passing one value into a child either adds an entry or merges a reason into the one that is there.
  So a list of passes amounts to one reason for each child and value (`reasonFor_passInto`), and no
  entry is made twice (`IsMerged`).
* The loops over a tree are one run over all passes of all dependencies (`Tree.passes`), and the map
  of a scope is what the passes from this scope leave in it.
* The values written to nodes are numbered reads, no two of them with the same number, so the values
  at one node are different.
* `Placed.DependsOn` says which declarations a read depends on, one case for each kind of value; the
  dependencies that the loops go over are these (`mem_argumentDependencies` and its neighbours).

The specification speaks of consumers, observed declarations and scopes within others, and never of
the steps by which a value goes down. That the steps lead from the scope of a declaration to that of
a consumer is the business of `Scope/Passing`.
-/

namespace ViewCompiler

open ViewCompiler.Template

/-! ### Merging reasons -/

/-- Reasons are equal if they agree on pushing and on forwarding. -/
theorem Reason.eq_iff {a b : Reason} :
    a = b ↔ (b.push = true ↔ a.push = true) ∧ (b.forward = true ↔ a.forward = true) := by
  obtain ⟨p, f⟩ := a
  obtain ⟨p', f'⟩ := b
  rw [Reason.mk.injEq, ← Bool.eq_iff_iff, ← Bool.eq_iff_iff, eq_comm, eq_comm (a := f)]

/-- There is some reason in a union if there is one in either part. -/
private theorem Reason.isSome_union (a b : Reason) :
    (a.union b).isSome = (a.isSome || b.isSome) := by
  simp only [Reason.isSome, Reason.union]
  rw [Bool.or_assoc, Bool.or_assoc, Bool.or_left_comm b.push]

/-- The child and the value of an entry. -/
def passedKey (e : Nat × Trigger) : Nat × Occurrence := (e.1, e.2.value)

/-- The reasons recorded for a value and a child. -/
def reasonFor (child : Nat) (value : Occurrence) : List (Nat × Trigger) → Reason
  | [] => ⟨false, false⟩
  | (c, t) :: rest => if c = child ∧ t.value = value then t.reason else reasonFor child value rest

/-- Entries with some reason, one for each child and value. -/
structure IsMerged (passed : List (Nat × Trigger)) : Prop where
  nodup : (passed.map passedKey).Nodup
  isSome : ∀ e ∈ passed, e.2.reason.isSome = true

section Merging

variable {child : Nat} {value : Occurrence} {reason : Reason} {passed : List (Nat × Trigger)}

/-- Passing a value into a child adds the pair of them unless it is there. -/
private theorem map_passedKey_passInto : (passInto child value reason passed).map passedKey =
    if (child, value) ∈ passed.map passedKey then passed.map passedKey
    else passed.map passedKey ++ [(child, value)] := by
  induction passed with
  | nil => simp [passInto, passedKey]
  | cons e rest ih =>
    obtain ⟨c, t⟩ := e
    rw [passInto]
    split
    · rename_i heq
      obtain ⟨rfl, rfl⟩ := heq
      simp [passedKey]
    · rename_i hne
      have hhead : (child, value) ≠ passedKey (c, t) := by
        intro heq
        exact hne ⟨(congrArg Prod.fst heq).symm, (congrArg Prod.snd heq).symm⟩
      rw [List.map_cons, ih, List.map_cons]
      by_cases hmem : (child, value) ∈ rest.map passedKey
      · rw [if_pos hmem, if_pos (List.mem_cons_of_mem _ hmem)]
      · rw [if_neg hmem, if_neg (fun h => (List.mem_cons.1 h).elim hhead hmem)]
        rfl

/-- Passing a value adds a reason to its own pair and leaves the others as they are. -/
theorem reasonFor_passInto {c : Nat} {v : Occurrence} :
    reasonFor c v (passInto child value reason passed) =
      if child = c ∧ value = v then (reasonFor c v passed).union reason
      else reasonFor c v passed := by
  induction passed with
  | nil => simp [passInto, reasonFor, Reason.union]
  | cons e rest ih =>
    obtain ⟨c', t⟩ := e
    rw [passInto]
    by_cases hmerge : c' = child ∧ t.value = value
    · obtain ⟨rfl, rfl⟩ := hmerge
      by_cases hkey : c' = c ∧ t.value = v
      · simp [reasonFor, hkey]
      · simp [reasonFor, hkey]
    · rw [if_neg hmerge, reasonFor, ih, reasonFor]
      by_cases hkey : c' = c ∧ t.value = v
      · rw [if_pos hkey, if_pos hkey, if_neg]
        rintro ⟨rfl, rfl⟩
        exact hmerge hkey
      · rw [if_neg hkey, if_neg hkey]

/-- Where everything is passed for some reason, it still is when one more value is. -/
private theorem isSome_of_mem_passInto (hr : reason.isSome = true)
    (hall : ∀ e ∈ passed, e.2.reason.isSome = true) :
    ∀ e ∈ passInto child value reason passed, e.2.reason.isSome = true := by
  induction passed with
  | nil => simpa [passInto] using hr
  | cons e rest ih =>
    obtain ⟨c, t⟩ := e
    obtain ⟨ht, hrest⟩ := List.forall_mem_cons.1 hall
    rw [passInto]
    split
    · refine List.forall_mem_cons.2 ⟨?_, hrest⟩
      simp only [Reason.isSome, Reason.union, Bool.or_eq_true] at ht ⊢
      exact ht.imp Or.inl Or.inl
    · exact List.forall_mem_cons.2 ⟨ht, ih hrest⟩

/-- Passed values stay merged when one more is passed. -/
theorem IsMerged.passInto (h : IsMerged passed) (hr : reason.isSome = true) :
    IsMerged (passInto child value reason passed) where
  nodup := by
    rw [map_passedKey_passInto]
    split
    · exact h.nodup
    · rename_i hnew
      rw [← List.concat_eq_append]
      exact h.nodup.concat hnew
  isSome := isSome_of_mem_passInto hr h.isSome

/-- The reason that stands beside a value is the reason for it. -/
private theorem reasonFor_of_mem (hnodup : (passed.map passedKey).Nodup) {c : Nat} {t : Trigger}
    (hmem : (c, t) ∈ passed) : reasonFor c t.value passed = t.reason := by
  induction passed with
  | nil => cases hmem
  | cons e rest ih =>
    obtain ⟨c', t'⟩ := e
    rw [List.map_cons, List.nodup_cons] at hnodup
    rw [reasonFor]
    rcases List.mem_cons.1 hmem with heq | hmem
    · obtain ⟨rfl, rfl⟩ := Prod.mk.inj heq
      rw [if_pos ⟨rfl, rfl⟩]
    · rw [if_neg, ih hnodup.2 hmem]
      rintro ⟨rfl, hv⟩
      refine hnodup.1 (List.mem_map.2 ⟨_, hmem, ?_⟩)
      rw [passedKey, passedKey, hv]

/-- A value with a reason is among the passed ones. -/
private theorem mem_of_reasonFor (h : (reasonFor child value passed).isSome = true) :
    (child, ⟨value, reasonFor child value passed⟩) ∈ passed := by
  induction passed with
  | nil => cases h
  | cons e rest ih =>
    obtain ⟨c, t⟩ := e
    rw [reasonFor] at h ⊢
    split
    · rename_i hkey
      obtain ⟨rfl, rfl⟩ := hkey
      exact List.mem_cons_self
    · rename_i hkey
      rw [if_neg hkey] at h
      exact List.mem_cons_of_mem _ (ih h)

/-- An entry is known by its child and value. -/
theorem IsMerged.mem_iff (h : IsMerged passed) {c : Nat} {t : Trigger} :
    (c, t) ∈ passed ↔ t.reason.isSome = true ∧ reasonFor c t.value passed = t.reason := by
  constructor
  · intro hmem
    exact ⟨h.isSome _ hmem, reasonFor_of_mem h.nodup hmem⟩
  · rintro ⟨hsome, hreason⟩
    rw [← hreason] at hsome
    have hmem := mem_of_reasonFor hsome
    rw [hreason] at hmem
    exact hmem

end Merging

/-- Adds the passes of a scope one after the other. -/
def passAll (passed : List (Nat × Trigger)) (xs : List Pass) : List (Nat × Trigger) :=
  xs.foldl (fun l x => passInto x.child x.value x.reason l) passed

/-- A part of the recorded reasons is there if a pass had it, for both parts alike. -/
theorem reasonFor_passAll {part : Reason → Bool}
    (hunion : ∀ a b : Reason, part (a.union b) = (part a || part b))
    {passed : List (Nat × Trigger)} {xs : List Pass} {c : Nat} {v : Occurrence} :
    part (reasonFor c v (passAll passed xs)) = true ↔
      part (reasonFor c v passed) = true ∨
        ∃ x ∈ xs, x.child = c ∧ x.value = v ∧ part x.reason = true := by
  induction xs generalizing passed with
  | nil => simp [passAll]
  | cons x xs ih =>
    change part (reasonFor c v (passAll (passInto x.child x.value x.reason passed) xs)) = true ↔ _
    rw [ih, reasonFor_passInto]
    by_cases hkey : x.child = c ∧ x.value = v
    · simp [hkey, hunion, or_assoc]
    · simp only [hkey, if_false, List.mem_cons, exists_eq_or_imp]
      rw [← and_assoc (a := x.child = c)]
      simp [hkey]

/-- Passed values stay merged through a whole list. -/
theorem IsMerged.passAll {passed : List (Nat × Trigger)} (h : IsMerged passed) {xs : List Pass}
    (hxs : ∀ x ∈ xs, x.reason.isSome = true) : IsMerged (passAll passed xs) := by
  induction xs generalizing passed with
  | nil => exact h
  | cons x xs ih =>
    obtain ⟨hx, hxs⟩ := List.forall_mem_cons.1 hxs
    exact ih (h.passInto hx) hxs

/-! ### Filling the maps -/

/-- A pass is added to the map of its own scope. -/
private theorem ChangeMaps.lookup_add (ms : ChangeMaps) (x : Pass) (id : Nat) :
    (ms.add x).maps.lookup id = (ms.maps.lookup id).map fun m =>
      if id = x.scope then m.pass x.child x.value x.reason else m := by
  rw [ChangeMaps.add]
  generalize ms.maps = maps
  induction maps with
  | nil => rfl
  | cons e rest ih =>
    obtain ⟨n, m⟩ := e
    simp only [List.map_cons, List.lookup_cons]
    by_cases hid : id = n
    · subst hid
      simp
    · simp only [beq_eq_false_iff_ne.2 hid]
      exact ih

/-- The map of a scope gets the passes of that scope, and nothing else in it changes. -/
private theorem ChangeMaps.lookup_foldl_add (ms : ChangeMaps) (xs : List Pass) (id : Nat) :
    (xs.foldl ChangeMaps.add ms).maps.lookup id =
      (ms.maps.lookup id).map fun m =>
        { m with passed := passAll m.passed (xs.filter (·.scope = id)) } := by
  induction xs generalizing ms with
  | nil =>
    rw [List.foldl_nil]
    cases ms.maps.lookup id with
    | none => rfl
    | some m => rfl
  | cons x xs ih =>
    rw [List.foldl_cons, ih, ChangeMaps.lookup_add]
    cases ms.maps.lookup id with
    | none => rfl
    | some m =>
      by_cases hid : x.scope = id
      · simp [hid, passAll, ChangeMap.pass]
      · simp [hid, Ne.symm hid]

/-- How a value is passed down, if it can be. -/
def Placed.passesOf (p : Placed) (d : Dependency) : List Pass := (p.passes d).toOption.getD []

/-- All passes of a tree, in the order in which they are found. -/
def Tree.passes (t : Tree) : List Pass :=
  t.scopes.flatMap fun p => p.reads.flatMap fun r => (p.dependencies r).flatMap p.passesOf

/-- If every value can be passed down, the nested loops add all passes of the tree. -/
private theorem Tree.changes_eq_foldl {t : Tree}
    (h : ∀ p ∈ t.scopes, ∀ r ∈ p.reads, ∀ d ∈ p.dependencies r, ∃ xs, p.passes d = .ok xs) :
    t.changes =
      .ok (t.passes.foldl ChangeMaps.add ⟨t.scopes.map fun p => (p.id, p.writes)⟩) := by
  unfold Tree.changes Tree.passes
  rw [List.foldl_flatMap]
  refine foldlM_eq_ok (fun p hp ms => ?_) _
  rw [List.foldl_flatMap]
  refine foldlM_eq_ok (fun r hr ms => ?_) ms
  rw [List.foldl_flatMap]
  refine foldlM_eq_ok (fun d hd ms => ?_) ms
  obtain ⟨xs, hxs⟩ := h p hp r hr d hd
  rw [ChangeMaps.propagate, Placed.passesOf, hxs]
  rfl

/-! ### Values written to nodes -/

namespace Placed

/-- The nodes and bindings of the reads of a scope, without their numbers. -/
def readPairs (p : Placed) : List (Option Nat × Binding) :=
  (p.scope.saved.flatMap fun s =>
    (s.node.bindings.filter (!·.kind.isSelf)).map fun b => (some s.index, b)) ++
  p.frame.feeds.map fun b => (none, b)

/-- What is read are the bindings of the saved nodes and those that feed the scope. -/
theorem map_node_binding_reads (p : Placed) :
    (p.reads.map fun r => (r.node, r.binding)) = p.readPairs := by
  unfold reads
  rw [List.map_map]
  exact List.zipIdx_map_fst 0 _

theorem binding_mem_of_mem_reads {p : Placed} {r : Read} (hr : r ∈ p.reads) :
    r.binding ∈ p.bindings := by
  have hpair : (r.node, r.binding) ∈ p.readPairs := by
    rw [← map_node_binding_reads]
    exact List.mem_map_of_mem hr
  have hsnd := List.mem_map_of_mem (f := Prod.snd) hpair
  rw [readPairs, List.map_append, List.map_flatMap] at hsnd
  simpa [bindings, ownBindings] using hsnd

/-- No two reads have the same number. -/
theorem nodup_numbers (p : Placed) : (p.reads.map Read.number).Nodup := by
  have hnumbers : p.reads.map Read.number = List.range' 0 p.readPairs.length := by
    unfold reads
    rw [List.map_map]
    exact List.zipIdx_map_snd 0 _
  rw [hnumbers]
  exact List.nodup_range'

/-- What a read writes to a node. -/
def written? (p : Placed) (r : Read) : Option (Nat × Occurrence) :=
  r.node.bind fun index =>
    if r.binding.kind.isNative && !p.isConstant r.binding then some (index, p.occurrence r)
      else none

/-- A read is written into a saved node if its binding is native and not constant. -/
theorem written?_eq_some_iff {p : Placed} {r : Read} {i : Nat} {v : Occurrence} :
    p.written? r = some (i, v) ↔
      r.node = some i ∧ (r.binding.kind.isNative && !p.isConstant r.binding) = true ∧
        p.occurrence r = v := by
  unfold written?
  cases r.node with
  | none => simp
  | some j =>
    cases r.binding.kind.isNative && !p.isConstant r.binding with
    | false => simp
    | true => simp

/-- No value is written twice. -/
private theorem nodup_written (p : Placed) : (p.reads.filterMap p.written?).Nodup := by
  have hnumbers := p.nodup_numbers
  rw [List.Nodup, List.pairwise_map] at hnumbers
  refine hnumbers.filterMap _ ?_
  rintro r r' hne ⟨i, v⟩ hv ⟨i', v'⟩ hv' heq
  obtain ⟨-, -, rfl⟩ := written?_eq_some_iff.1 hv
  obtain ⟨-, -, rfl⟩ := written?_eq_some_iff.1 hv'
  exact hne (congrArg (·.2.binding) heq)

end Placed

/-- New values are appended. -/
private theorem ChangeMap.foldl_write {es : List (Nat × Occurrence)} {m : ChangeMap}
    (h : (m.written ++ es).Nodup) :
    es.foldl (fun m e => m.write e.1 e.2) m = { m with written := m.written ++ es } := by
  induction es generalizing m with
  | nil => simp
  | cons e es ih =>
    have hnew : e ∉ m.written := by
      intro hmem
      exact List.disjoint_of_nodup_append h hmem List.mem_cons_self
    have hwrite : m.write e.1 e.2 = { m with written := m.written ++ [e] } := if_neg hnew
    rw [List.foldl_cons, hwrite, ih (by simpa using h)]
    simp

namespace Placed

/-- A scope writes each of its native values that may change once. -/
theorem writes_eq (p : Placed) : p.writes = { written := p.reads.filterMap p.written? } := by
  have hstep : p.writes = (p.reads.filterMap p.written?).foldl (fun m e => m.write e.1 e.2) {} := by
    rw [List.foldl_filterMap, writes]
    congr 1
    funext m r
    rw [written?]
    cases r.node with
    | none => rfl
    | some i => cases r.binding.kind.isNative && !p.isConstant r.binding <;> simp
  rw [hstep, ChangeMap.foldl_write p.nodup_written]
  rfl

/-- Whether a binding on the given node is written to the node with index `i`. -/
def writesTo (p : Placed) (i : Nat) (e : Option Nat × Binding) : Bool :=
  e.1 = some i && (e.2.kind.isNative && !p.isConstant e.2)

/-- The reads that write to the saved node with the given index. -/
def writersAt (p : Placed) (i : Nat) : List Read :=
  p.reads.filter fun r => p.writesTo i (r.node, r.binding)

/-- A node is rewritten by the values of the reads that write into it. -/
theorem valuesAt_writes (p : Placed) (i : Nat) :
    p.writes.valuesAt i = (p.writersAt i).map p.occurrence := by
  rw [writes_eq, ChangeMap.valuesAt, writersAt, List.filterMap_filterMap, ← List.filterMap_eq_map,
    List.filterMap_filter]
  refine List.filterMap_congr fun r _ => ?_
  rw [written?, writesTo]
  cases r.node with
  | none => simp
  | some j =>
    by_cases hj : j = i <;> cases r.binding.kind.isNative && !p.isConstant r.binding <;> simp [hj]

/-- A saved node is written by its own native bindings. -/
private theorem filter_writesTo_slot (p : Placed) (i : Nat) (s : Slot) :
    (((s.node.bindings.filter (!·.kind.isSelf)).map fun b => (some s.index, b)).filter
      (p.writesTo i)).map Prod.snd =
      if s.index = i then s.node.bindings.filter fun b => b.kind.isNative && !p.isConstant b
      else [] := by
  rw [List.filter_map, List.map_map, List.filter_filter]
  split
  · rename_i hi
    rw [← List.map_id (s.node.bindings.filter fun b => b.kind.isNative && !p.isConstant b)]
    congr 1
    refine List.filter_congr fun b _ => ?_
    cases hn : b.kind.isNative with
    | false => simp [writesTo, hn]
    | true => simp [writesTo, hn, hi, BindingKind.not_isSelf_of_isNative hn]
  · rename_i hi
    simp [writesTo, hi]

/-- What is collected at one index comes from the one node that has it. -/
theorem flatMap_of_index {β : Type} {saved : List Slot}
    (hsaved : saved.Pairwise (·.index < ·.index))
    {s : Slot} (hs : s ∈ saved) (g : Slot → List β) :
    (saved.flatMap fun s' => if s'.index = s.index then g s' else []) = g s := by
  -- The indexes ascend, so no other node has this one.
  obtain ⟨pre, post, rfl⟩ := List.append_of_mem hs
  rw [List.pairwise_append, List.pairwise_cons] at hsaved
  obtain ⟨-, ⟨hpost, -⟩, hpre⟩ := hsaved
  have hbefore : (pre.flatMap fun s' => if s'.index = s.index then g s' else []) = [] := by
    refine List.flatMap_eq_nil_iff.2 fun s' hs' => if_neg ?_
    have hlt := hpre s' hs' s List.mem_cons_self
    omega
  have hafter : (post.flatMap fun s' => if s'.index = s.index then g s' else []) = [] := by
    refine List.flatMap_eq_nil_iff.2 fun s' hs' => if_neg ?_
    have hlt := hpost s' hs'
    omega
  rw [List.flatMap_append, List.flatMap_cons, if_pos rfl, hbefore, hafter, List.nil_append,
    List.append_nil]

/-- What is written to a saved node are its own native values that may change. -/
private theorem map_binding_writersAt {p : Placed}
    (hsaved : p.scope.saved.Pairwise (·.index < ·.index)) {s : Slot} (hs : s ∈ p.scope.saved) :
    (p.writersAt s.index).map Read.binding =
      s.node.bindings.filter fun b => b.kind.isNative && !p.isConstant b := by
  have hpairs : (p.writersAt s.index).map Read.binding =
      (p.readPairs.filter (p.writesTo s.index)).map Prod.snd := by
    rw [← map_node_binding_reads, List.filter_map, List.map_map]
    rfl
  have hfed : (p.frame.feeds.map fun b => ((none : Option Nat), b)).filter
      (p.writesTo s.index) = [] := by
    simp [writesTo]
  rw [hpairs, readPairs, List.filter_append, hfed, List.append_nil, List.filter_flatMap,
    List.map_flatMap]
  simp only [filter_writesTo_slot]
  exact flatMap_of_index hsaved hs _

/-- No node is rewritten twice by one value. -/
private theorem nodup_occurrences_writersAt (p : Placed) (i : Nat) :
    ((p.writersAt i).map p.occurrence).Nodup := by
  have hnumbers := p.nodup_numbers
  rw [List.Nodup, List.pairwise_map] at hnumbers
  rw [List.Nodup, List.pairwise_map]
  refine (hnumbers.sublist List.filter_sublist).imp ?_
  intro r r' hne heq
  exact hne (congrArg Occurrence.binding heq)

/-- Only saved nodes are written. -/
private theorem exists_slot_of_writersAt {p : Placed} {i : Nat} (h : p.writersAt i ≠ []) :
    ∃ s ∈ p.scope.saved, s.index = i := by
  obtain ⟨r, hr⟩ := List.exists_mem_of_ne_nil _ h
  obtain ⟨hr, hi⟩ := List.mem_filter.1 hr
  have hpair : (r.node, r.binding) ∈ p.readPairs := by
    rw [← map_node_binding_reads]
    exact List.mem_map_of_mem hr
  have hnode : r.node = some i := by
    simp only [writesTo, Bool.and_eq_true, decide_eq_true_eq] at hi
    exact hi.1
  rw [hnode, readPairs] at hpair
  obtain ⟨s, hs, -, hindex⟩ : ∃ s ∈ p.scope.saved,
      (r.binding ∈ s.node.bindings ∧ r.binding.kind.isSelf = false) ∧ s.index = i := by
    simpa using hpair
  exact ⟨s, hs, hindex⟩

end Placed

/-! ### The map of one scope -/

/-- The triggers into a child are the values that are passed into it. -/
theorem ChangeMap.mem_triggersInto {m : ChangeMap} {id : Nat} {t : Trigger} :
    t ∈ m.triggersInto id ↔ (id, t) ∈ m.passed := by
  unfold ChangeMap.triggersInto
  rw [List.mem_filterMap]
  constructor
  · rintro ⟨⟨c, t'⟩, hmem, ht⟩
    simp only at ht
    split at ht
    · rename_i hc
      obtain rfl := Option.some.inj ht
      exact hc ▸ hmem
    · cases ht
  · intro hmem
    exact ⟨_, hmem, if_pos rfl⟩

/-- With merged entries a value is passed into a child once. -/
private theorem ChangeMap.nodup_triggersInto {m : ChangeMap} (h : IsMerged m.passed) (id : Nat) :
    ((m.triggersInto id).map Trigger.value).Nodup := by
  have hkeys := h.nodup
  rw [List.Nodup, List.pairwise_map] at hkeys
  rw [List.Nodup, List.pairwise_map]
  refine hkeys.filterMap _ ?_
  rintro ⟨c, t⟩ ⟨c', t'⟩ hne b hb b' hb' hv
  simp only at hb hb'
  split at hb
  · rename_i hc
    obtain rfl := Option.some.inj hb
    split at hb'
    · rename_i hc'
      obtain rfl := Option.some.inj hb'
      exact hne (Prod.ext (hc.trans hc'.symm) hv)
    · cases hb'
  · cases hb

private theorem nodup_eraseDups (l : List Nat) : l.eraseDups.Nodup := by
  match l with
  | [] => simp
  | a :: l =>
    rw [List.eraseDups_cons, List.nodup_cons]
    refine ⟨?_, nodup_eraseDups _⟩
    simp
termination_by l.length
decreasing_by
  have := List.length_filter_le (fun b => !b == a) l
  simp
  omega

namespace ChangeMap

variable (m : ChangeMap)

/-- The indexes of the nodes that are written ascend. -/
private theorem pairwise_indexes : m.indexes.Pairwise (· < ·) := by
  have hsorted : m.indexes.Pairwise fun a b => decide (a ≤ b) = true := by
    refine List.pairwise_mergeSort (fun a b c => ?_) (fun a b => ?_) _
    · simp only [decide_eq_true_eq]
      omega
    · simp only [Bool.or_eq_true, decide_eq_true_eq]
      omega
  have hnodup : m.indexes.Nodup :=
    (List.mergeSort_perm _ _).nodup_iff.2 (nodup_eraseDups _)
  exact (hsorted.and hnodup).imp fun hle =>
    Nat.lt_of_le_of_ne (of_decide_eq_true hle.1) hle.2

/-- The indexes are those of the nodes with some value. -/
theorem mem_indexes_iff {i : Nat} : i ∈ m.indexes ↔ m.valuesAt i ≠ [] := by
  rw [indexes, (List.mergeSort_perm _ _).mem_iff, List.mem_eraseDups]
  simp [valuesAt]

/-- The routine updates the nodes with values by ascending index, and then the children with
triggers in their order, each with its values. -/
private theorem actions_eq (children : List Nat) :
    m.actions children =
      m.indexes.map (fun i => .node i (m.valuesAt i)) ++
        (children.filter fun c => m.triggersInto c ≠ []).map fun c =>
          .child c ((m.triggersInto c).map Trigger.value) := by
  have hchildren : ((m.childUpdates children).map fun u => Action.child u.child
      (u.triggers.map Trigger.value)) =
      (children.filter fun c => m.triggersInto c ≠ []).map fun c =>
        .child c ((m.triggersInto c).map Trigger.value) := by
    induction children with
    | nil => rfl
    | cons c children ih =>
      simp only [childUpdates, List.filterMap_cons, List.filter_cons] at ih ⊢
      cases hc : m.triggersInto c with
      | nil => simpa using ih
      | cons t ts => simpa [hc] using ih
  rw [actions, hchildren, nodeUpdates, List.map_map]
  rfl

end ChangeMap

/-! ### Dependencies -/

/-- A binding of a scope that is no handler depends on a value: the value may change and is that of
the binding, or an argument of the call that is the value of the binding. The declaration that the
value refers to comes with it. -/
inductive Placed.DependsOn (p : Placed) (r : Read) : Occurrence → Frames.Origin → Prop where
  | access {path o} (hk : r.binding.kind.isHandler = false) (hv : r.binding.value = .access path)
      (hc : p.isConstant r.binding = false)
      (ho : (p.readingFrames r.binding).resolve? path.root = some o) :
      p.DependsOn r (p.occurrence r) o
  | call {method arguments o} (hk : r.binding.kind.isHandler = false)
      (hv : r.binding.value = .call method arguments) (hc : p.isConstant r.binding = false)
      (ho : (p.readingFrames r.binding).resolve? method = some o) :
      p.DependsOn r (p.occurrence r) o
  | argument {method arguments i path o} (hk : r.binding.kind.isHandler = false)
      (hv : r.binding.value = .call method arguments) (ha : arguments[i]? = some (.access path))
      (hc : (p.readingFrames r.binding).argumentConstant (.access path) = false)
      (ho : (p.readingFrames r.binding).resolve? path.root = some o) :
      p.DependsOn r ⟨p.id, r.number, some i, (Argument.access path).render⟩ o

namespace Placed

variable {p : Placed} {r : Read}

/-- A binding is read in the frames of its scope or in some of them. -/
theorem readingFrames_suffix (p : Placed) (b : Binding) : p.readingFrames b <:+ p.frames := by
  unfold readingFrames
  split
  · exact List.tail_suffix _
  · exact List.suffix_refl _

/-- What a scope depends on is declared around it. -/
theorem DependsOn.inside {v : Occurrence} {o : Frames.Origin} (h : p.DependsOn r v o) :
    p.Inside o := by
  cases h with
  | access _ _ _ ho => exact (Frames.suffix_of_resolve? ho).trans (p.readingFrames_suffix _)
  | call _ _ _ ho => exact (Frames.suffix_of_resolve? ho).trans (p.readingFrames_suffix _)
  | argument _ _ _ _ ho => exact (Frames.suffix_of_resolve? ho).trans (p.readingFrames_suffix _)

/-- Handlers depend on nothing. -/
theorem DependsOn.isHandler {v : Occurrence} {o : Frames.Origin} (h : p.DependsOn r v o) :
    r.binding.kind.isHandler = false := by
  cases h with
  | access hk _ _ _ => exact hk
  | call hk _ _ _ => exact hk
  | argument hk _ _ _ _ => exact hk

/-- A call depends on those of its arguments that are paths and can change. -/
theorem mem_argumentDependencies {fs : Frames} {arguments : List Argument} {d : Dependency} :
    d ∈ p.argumentDependencies r fs arguments ↔
      ∃ i path, arguments[i]? = some (.access path) ∧ fs.argumentConstant (.access path) = false ∧
        d = ⟨⟨p.id, r.number, some i, (Argument.access path).render⟩, fs.resolve? path.root⟩ := by
  unfold argumentDependencies
  rw [List.mem_filterMap]
  constructor
  · rintro ⟨⟨a, i⟩, ha, hd⟩
    cases a with
    | literal => cases hd
    | payload => cases hd
    | access path =>
      simp only at hd
      split at hd
      · cases hd
      · rename_i hc
        rw [Bool.not_eq_true] at hc
        exact ⟨i, path, List.mk_mem_zipIdx_iff_getElem?.1 ha, hc, (Option.some.inj hd).symm⟩
  · rintro ⟨i, path, ha, hc, rfl⟩
    refine ⟨(.access path, i), List.mk_mem_zipIdx_iff_getElem?.2 ha, ?_⟩
    simp [hc]

/-- A path that can change depends on what its root refers to. -/
theorem dependencies_access {path : Path} (hk : r.binding.kind.isHandler = false)
    (hc : p.isConstant r.binding = false) (hv : r.binding.value = .access path) :
    p.dependencies r =
      [⟨p.occurrence r, (p.readingFrames r.binding).resolve? path.root⟩] := by
  unfold isConstant at hc
  unfold dependencies
  simp only [hk, hc, Bool.or_self, Bool.false_eq_true, if_false]
  rw [hv]

/-- A call that can change depends on its method and on its arguments. -/
theorem dependencies_call {method : String} {arguments : List Argument}
    (hk : r.binding.kind.isHandler = false) (hc : p.isConstant r.binding = false)
    (hv : r.binding.value = .call method arguments) :
    p.dependencies r =
      ⟨p.occurrence r, (p.readingFrames r.binding).resolve? method⟩ ::
        p.argumentDependencies r (p.readingFrames r.binding) arguments := by
  unfold isConstant at hc
  unfold dependencies
  simp only [hk, hc, Bool.or_self, Bool.false_eq_true, if_false]
  rw [hv]

/-- A call with an argument that may change may change. -/
theorem isConstant_of_argument {method : String} {arguments : List Argument} {a : Argument}
    (hv : r.binding.value = .call method arguments) (ha : a ∈ arguments)
    (hc : (p.readingFrames r.binding).argumentConstant a = false) :
    p.isConstant r.binding = false := by
  rw [isConstant, hv, Frames.valueConstant, Bool.and_eq_false_iff]
  exact .inr (List.all_eq_false.2 ⟨a, ha, by simp [hc]⟩)

/-- Only a binding whose own value may change depends on any. -/
theorem DependsOn.isConstant {v : Occurrence} {o : Frames.Origin} (h : p.DependsOn r v o) :
    p.isConstant r.binding = false := by
  cases h with
  | access _ _ hc _ => exact hc
  | call _ _ hc _ => exact hc
  | argument _ hv ha hc _ => exact isConstant_of_argument hv (List.mem_of_getElem? ha) hc

/-- In frames that admit the value of a binding, the dependencies that are found are those that
there are. -/
theorem mem_dependencies (hadm : (p.readingFrames r.binding).Admits r.binding.value)
    {d : Dependency} : d ∈ p.dependencies r ↔ ∃ v o, d = ⟨v, some o⟩ ∧ p.DependsOn r v o := by
  constructor
  · intro hd
    by_cases hcond : r.binding.kind.isHandler = false ∧ p.isConstant r.binding = false
    · obtain ⟨hk, hc⟩ := hcond
      cases hv : r.binding.value with
      | text => simp [isConstant, hv, Frames.valueConstant] at hc
      | literal => simp [isConstant, hv, Frames.valueConstant] at hc
      | access path =>
        rw [hv] at hadm
        obtain ⟨o, ho, -⟩ := hadm
        rw [dependencies_access hk hc hv, ho, List.mem_singleton] at hd
        exact ⟨_, o, hd, .access hk hv hc ho⟩
      | call method arguments =>
        rw [hv] at hadm
        obtain ⟨⟨o, ho, -⟩, hargs⟩ := hadm
        rw [dependencies_call hk hc hv, ho, List.mem_cons, mem_argumentDependencies] at hd
        rcases hd with hd | ⟨i, path, ha, hca, hd⟩
        · exact ⟨_, o, hd, .call hk hv hc ho⟩
        · obtain ⟨o', ho', -⟩ := hargs _ (List.mem_of_getElem? ha)
          rw [ho'] at hd
          exact ⟨_, o', hd, .argument hk hv ha hca ho'⟩
    · -- Nothing is found of handlers and of bindings that are constant.
      rw [← Bool.or_eq_false_iff, Bool.not_eq_false] at hcond
      unfold isConstant at hcond
      simp [dependencies, hcond] at hd
  · rintro ⟨v, o, rfl, hdep⟩
    cases hdep with
    | access hk hv hc ho =>
      rw [dependencies_access hk hc hv, ho]
      exact List.mem_cons_self
    | call hk hv hc ho =>
      rw [dependencies_call hk hc hv, ho]
      exact List.mem_cons_self
    | @argument method arguments i path o hk hv ha hca ho =>
      have hc := isConstant_of_argument hv (List.mem_of_getElem? ha) hca
      rw [dependencies_call hk hc hv, ← ho]
      exact List.mem_cons_of_mem _ (mem_argumentDependencies.2 ⟨i, path, ha, hca, rfl⟩)

end Placed

/-! ### The specification -/

/-- Some scope in the child `c` of `p`, which may be `c` itself, depends on the value. -/
def Tree.Consumes (t : Tree) (p : Placed) (c : Scope) (v : Occurrence) (o : Frames.Origin) : Prop :=
  ∃ k ∈ t.scopes, (p.child c).frames <:+ k.frames ∧ ∃ r ∈ k.reads, k.DependsOn r v o

/-- The value is passed into the child because the scope observes its declaration. -/
def Tree.Pushes (t : Tree) (p : Placed) (c : Scope) (v : Occurrence) : Prop :=
  ∃ o, t.Consumes p c v o ∧ p.Observes o

/-- The value is passed into the child because the scope lies inside the declaration. -/
def Tree.Forwards (t : Tree) (p : Placed) (c : Scope) (v : Occurrence) : Prop :=
  ∃ o, t.Consumes p c v o ∧ p.Inside o

/-- What the change map of a scope has to hold. -/
structure Tree.IsChangeMap (t : Tree) (p : Placed) (m : ChangeMap) : Prop where
  /-- At a saved node: the values of its native bindings that may change. -/
  written : ∀ s ∈ p.scope.saved, ∃ rs : List Read, rs.Sublist p.reads ∧
    rs.map Read.binding = (s.node.bindings.filter fun b => b.kind.isNative && !p.isConstant b) ∧
    m.valuesAt s.index = rs.map p.occurrence
  /-- Each value is written once. -/
  written_nodup : ∀ i, (m.valuesAt i).Nodup
  /-- Nothing is written but to saved nodes. -/
  written_saved : ∀ i, m.valuesAt i ≠ [] → ∃ s ∈ p.scope.saved, s.index = i
  /-- For a child: the values that are pushed or forwarded into it, with their reasons. -/
  passed : ∀ c ∈ p.scope.children, ∀ v reason,
    ⟨v, reason⟩ ∈ m.triggersInto c.frame.id ↔
      reason.isSome = true ∧ (reason.push = true ↔ t.Pushes p c v) ∧
        (reason.forward = true ↔ t.Forwards p c v)
  /-- Each value is passed into a child once. -/
  passed_nodup : ∀ id, ((m.triggersInto id).map Trigger.value).Nodup
  /-- Nothing is passed but into children. -/
  passed_child : ∀ id, m.triggersInto id ≠ [] → ∃ c ∈ p.scope.children, c.frame.id = id
  /-- The update routine goes through the nodes with values by ascending index, and then through the
  children with triggers in their order. -/
  actions : ∃ indexes : List Nat, indexes.Pairwise (· < ·) ∧
    (∀ i, i ∈ indexes ↔ m.valuesAt i ≠ []) ∧
    m.actions (p.scope.children.map (·.frame.id)) =
      indexes.map (fun i => .node i (m.valuesAt i)) ++
        ((p.scope.children.map (·.frame.id)).filter fun c => m.triggersInto c ≠ []).map fun c =>
          .child c ((m.triggersInto c).map Trigger.value)

section Built

variable {lib : Library} {firstId : Nat} {d : Option Definition} {t : Tree}
  (h : Tree.build lib firstId d = .ok t)
include h

/-- The dependencies of a scope in a built tree. -/
theorem Tree.mem_dependencies {k : Placed} (hk : k ∈ t.scopes) {r : Read} (hr : r ∈ k.reads)
    {e : Placed.Dependency} :
    e ∈ k.dependencies r ↔ ∃ v o, e = ⟨v, some o⟩ ∧ k.DependsOn r v o :=
  Placed.mem_dependencies (Tree.admits h hk (Placed.binding_mem_of_mem_reads hr)).2

/-- Every value in a built tree can be passed down. -/
theorem Tree.exists_passes {k : Placed} (hk : k ∈ t.scopes) {r : Read} (hr : r ∈ k.reads)
    {e : Placed.Dependency} (he : e ∈ k.dependencies r) : ∃ xs, k.passes e = .ok xs := by
  obtain ⟨v, o, rfl, hdep⟩ := (Tree.mem_dependencies h hk hr).1 he
  obtain ⟨xs, hxs, -⟩ := (Tree.laidOut h).exists_passes hk hdep.inside (v := v)
  exact ⟨xs, hxs⟩

/-- The passes of a scope into a child are those that the specification asks for. -/
theorem Tree.mem_passes_iff {p : Placed} (hp : p ∈ t.scopes) {c : Scope}
    (hc : c ∈ p.scope.children) {v : Occurrence} {reason : Reason} :
    (⟨p.id, c.frame.id, v, reason⟩ : Pass) ∈ t.passes ↔
      reason = .pushed ∧ t.Pushes p c v ∨ reason = .forwarded ∧ t.Forwards p c v := by
  have hlaid := Tree.laidOut h
  unfold Tree.passes
  simp only [List.mem_flatMap]
  constructor
  · rintro ⟨k, hk, r, hr, e, he, hx⟩
    obtain ⟨v', o, rfl, hdep⟩ := (Tree.mem_dependencies h hk hr).1 he
    obtain ⟨xs, hxs, hmem⟩ := hlaid.exists_passes hk hdep.inside (v := v')
    rw [Placed.passesOf, hxs] at hx
    obtain ⟨rfl, hchild, hreason⟩ := (hmem p hp c hc v reason).1 hx
    have hconsumes : t.Consumes p c v o := ⟨k, hk, hchild, r, hr, hdep⟩
    exact hreason.imp (fun hpush => ⟨hpush.1, o, hconsumes, hpush.2⟩)
      (fun hforward => ⟨hforward.1, o, hconsumes, hforward.2⟩)
  · intro hreason
    have hpass : ∃ o, t.Consumes p c v o ∧
        (reason = .pushed ∧ p.Observes o ∨ reason = .forwarded ∧ p.Inside o) := by
      rcases hreason with ⟨rfl, o, hconsumes, hobs⟩ | ⟨rfl, o, hconsumes, hinside⟩
      · exact ⟨o, hconsumes, .inl ⟨rfl, hobs⟩⟩
      · exact ⟨o, hconsumes, .inr ⟨rfl, hinside⟩⟩
    obtain ⟨o, ⟨k, hk, hchild, r, hr, hdep⟩, hreason⟩ := hpass
    obtain ⟨xs, hxs, hmem⟩ := hlaid.exists_passes hk hdep.inside (v := v)
    refine ⟨k, hk, r, hr, _, (Tree.mem_dependencies h hk hr).2 ⟨v, o, rfl, hdep⟩, ?_⟩
    rw [Placed.passesOf, hxs]
    exact (hmem p hp c hc v reason).2 ⟨rfl, hchild, hreason⟩

/-- Every pass leads from a scope of the tree into one of its children. -/
theorem Tree.exists_child_of_mem_passes {x : Pass} (hx : x ∈ t.passes) :
    ∃ p ∈ t.scopes, ∃ c ∈ p.scope.children, p.id = x.scope ∧ c.frame.id = x.child := by
  unfold Tree.passes at hx
  simp only [List.mem_flatMap] at hx
  obtain ⟨k, hk, r, hr, e, he, hx⟩ := hx
  obtain ⟨xs, hxs⟩ := Tree.exists_passes h hk hr he
  rw [Placed.passesOf, hxs] at hx
  exact Scope.LaidOut.exists_child_of_mem_passes hk hxs hx

/-- Every pass has a reason. -/
private theorem Tree.isSome_of_mem_passes {x : Pass} (hx : x ∈ t.passes) :
    x.reason.isSome = true := by
  obtain ⟨p, hp, c, hc, hid, hchild⟩ := Tree.exists_child_of_mem_passes h hx
  obtain ⟨scope, child, v, reason⟩ := x
  change p.id = scope at hid
  change c.frame.id = child at hchild
  subst hid hchild
  rcases (Tree.mem_passes_iff h hp hc).1 hx with ⟨rfl, -⟩ | ⟨rfl, -⟩
  · rfl
  · rfl

/-- The map that the loops fill for a scope. -/
theorem Tree.of_foldl_passes {p : Placed} (hp : p ∈ t.scopes) :
    (t.passes.foldl ChangeMaps.add ⟨t.scopes.map fun p => (p.id, p.writes)⟩).of p.id =
      { p.writes with passed := passAll [] (t.passes.filter (·.scope = p.id)) } := by
  have hlookup : (t.scopes.map fun p => (p.id, p.writes)).lookup p.id = some p.writes := by
    have hnodup := (Tree.laidOut h).nodup
    change (t.scopes.map Placed.id).Nodup at hnodup
    generalize t.scopes = scopes at hp hnodup
    induction scopes with
    | nil => cases hp
    | cons q scopes ih =>
      rw [List.map_cons, List.nodup_cons] at hnodup
      rw [List.map_cons, List.lookup_cons]
      rcases List.mem_cons.1 hp with rfl | hp
      · simp
      · have hne : p.id ≠ q.id := fun heq => hnodup.1 (heq ▸ List.mem_map_of_mem hp)
        rw [beq_eq_false_iff_ne.2 hne]
        exact ih hp hnodup.2
  rw [ChangeMaps.of, ChangeMaps.lookup_foldl_add, hlookup, Option.map_some, Option.getD_some,
    Placed.writes_eq]

/-- The reasons recorded for a child are those that the specification asks for. -/
private theorem Tree.reasonFor_passes {p : Placed} (hp : p ∈ t.scopes) {c : Scope}
    (hc : c ∈ p.scope.children) (v : Occurrence) :
    let reason := reasonFor c.frame.id v (passAll [] (t.passes.filter (·.scope = p.id)))
    (reason.push = true ↔ t.Pushes p c v) ∧ (reason.forward = true ↔ t.Forwards p c v) := by
  intro reason
  -- A child is told once of a value, whether it is pushed to it, forwarded to it, or both.
  have hpasses : ∀ part : Reason → Bool,
      (∃ x ∈ t.passes.filter (·.scope = p.id), x.child = c.frame.id ∧ x.value = v ∧
        part x.reason = true) ↔
      part .pushed = true ∧ t.Pushes p c v ∨ part .forwarded = true ∧ t.Forwards p c v := by
    intro part
    constructor
    · rintro ⟨⟨scope, child, value, r⟩, hx, rfl, rfl, hpart⟩
      obtain ⟨hx, hscope⟩ := List.mem_filter.1 hx
      obtain rfl : scope = p.id := of_decide_eq_true hscope
      rcases (Tree.mem_passes_iff h hp hc).1 hx with ⟨rfl, hpush⟩ | ⟨rfl, hforward⟩
      · exact .inl ⟨hpart, hpush⟩
      · exact .inr ⟨hpart, hforward⟩
    · rintro (⟨hpart, hpush⟩ | ⟨hpart, hforward⟩)
      · have hx := (Tree.mem_passes_iff h hp hc).2 (.inl ⟨rfl, hpush⟩)
        exact ⟨_, List.mem_filter.2 ⟨hx, by simp⟩, rfl, rfl, hpart⟩
      · have hx := (Tree.mem_passes_iff h hp hc).2 (.inr ⟨rfl, hforward⟩)
        exact ⟨_, List.mem_filter.2 ⟨hx, by simp⟩, rfl, rfl, hpart⟩
  constructor
  · have hunion : ∀ a b : Reason, (a.union b).push = (a.push || b.push) := fun _ _ => rfl
    rw [reasonFor_passAll hunion, hpasses]
    simp [reasonFor, Reason.pushed, Reason.forwarded]
  · have hunion : ∀ a b : Reason, (a.union b).forward = (a.forward || b.forward) := fun _ _ => rfl
    rw [reasonFor_passAll hunion, hpasses]
    simp [reasonFor, Reason.pushed, Reason.forwarded]

/-- The loops fill the map that the specification asks for. -/
theorem Tree.isChangeMap {p : Placed} (hp : p ∈ t.scopes) :
    t.IsChangeMap p { p.writes with passed := passAll [] (t.passes.filter (·.scope = p.id)) } := by
  have hlaid := (Tree.laidOut h).isLaid p hp
  have hmerged : IsMerged (passAll [] (t.passes.filter (·.scope = p.id))) := by
    refine IsMerged.passAll ⟨by simp, by simp⟩ fun x hx => ?_
    exact Tree.isSome_of_mem_passes h (List.mem_filter.1 hx).1
  refine ⟨?_, ?_, ?_, ?_, ChangeMap.nodup_triggersInto hmerged, ?_, ?_⟩
  · intro s hs
    obtain ⟨_, _, _, hcontent⟩ := hlaid.content
    exact ⟨p.writersAt s.index, List.filter_sublist,
      Placed.map_binding_writersAt hcontent.ascending.pairwise hs, p.valuesAt_writes s.index⟩
  · intro i
    exact p.valuesAt_writes i ▸ p.nodup_occurrences_writersAt i
  · intro i hne
    refine Placed.exists_slot_of_writersAt fun hnil => hne ?_
    change p.writes.valuesAt i = []
    rw [p.valuesAt_writes, hnil]
    rfl
  · intro c hc v reason
    obtain ⟨hpush, hforward⟩ := Tree.reasonFor_passes h hp hc v
    rw [ChangeMap.mem_triggersInto, hmerged.mem_iff, ← hpush, ← hforward]
    exact and_congr_right fun _ => Reason.eq_iff
  · intro id hne
    obtain ⟨⟨v, reason⟩, hmem⟩ := List.exists_mem_of_ne_nil _ hne
    obtain ⟨hsome, hreason⟩ := hmerged.mem_iff.1 (ChangeMap.mem_triggersInto.1 hmem)
    rw [← hreason, reasonFor_passAll Reason.isSome_union] at hsome
    rcases hsome with hsome | ⟨x, hx, rfl, -, -⟩
    · cases hsome
    · obtain ⟨hx, hscope⟩ := List.mem_filter.1 hx
      -- What triggers a child was passed by its parent, which is the scope that stands here.
      obtain ⟨q, hq, c, hc, hid, hchild⟩ := Tree.exists_child_of_mem_passes h hx
      have hqp : q = p :=
        (Tree.laidOut h).eq_of_id_eq hq hp (hid.trans (of_decide_eq_true hscope))
      exact ⟨c, hqp ▸ hc, hchild⟩
  · exact ⟨_, ChangeMap.pairwise_indexes _, fun i => ChangeMap.mem_indexes_iff _,
      ChangeMap.actions_eq _ _⟩

/-- The changes of a tree are those of its passes, on top of what is written in every scope. -/
theorem Tree.changes_eq :
    t.changes = .ok (t.passes.foldl ChangeMaps.add ⟨t.scopes.map fun p => (p.id, p.writes)⟩) :=
  Tree.changes_eq_foldl fun _ hk _ hr _ he => Tree.exists_passes h hk hr he

theorem Tree.of_changes {ms : ChangeMaps} (hms : t.changes = .ok ms) {p : Placed}
    (hp : p ∈ t.scopes) :
    ms.of p.id = { p.writes with passed := passAll [] (t.passes.filter (·.scope = p.id)) } := by
  rw [Tree.changes_eq h] at hms
  rw [← Except.ok.inj hms, Tree.of_foldl_passes h hp]

/-- The change maps of a built tree are computed, and that of each scope is the one that the
specification asks for. -/
theorem Tree.changes_eq_ok :
    ∃ ms, t.changes = .ok ms ∧ ∀ p ∈ t.scopes, t.IsChangeMap p (ms.of p.id) := by
  refine ⟨_, Tree.changes_eq h, fun p hp => ?_⟩
  rw [Tree.of_foldl_passes h hp]
  exact Tree.isChangeMap h hp

end Built

/-- The change maps of a page with two inputs for one property. -/
theorem HiddenInput.isChangeMap_page :
    Tree.build HiddenInput.library 0 (some HiddenInput.page) = .ok HiddenInput.tree ∧
    ∃ ms, HiddenInput.tree.changes = .ok ms ∧
      ∀ p ∈ HiddenInput.tree.scopes, HiddenInput.tree.IsChangeMap p (ms.of p.id) :=
  ⟨HiddenInput.build_page, Tree.changes_eq_ok HiddenInput.build_page⟩

end ViewCompiler
