import Mathlib.Data.Finset.Insert
import Mathlib.Data.Finset.Dedup
import Mathlib.Data.Finset.Erase
import ViewCompiler.Proofs.Registry.History

/-!
# What watchers are told

Every operation makes some changes (`Operation.changes`), which take the names that were registered
before to those that are registered afterwards (`replay?_changes`), and it tells every watcher just
these changes in this order (`watchers_apply`). Watchers come, take what waits for them, and leave
while the registry changes. One that stays and is never more changes behind than its queue can hold
has been told all of them (`exists_waiting_after`), so it can replay them to what is registered,
whoever else leaves meanwhile (`events_replay`).

Replaying is partial: a name can be added only where it is missing, and updated or removed only
where it is there. So that events can be replayed says more than that they lead to the right names
in the end; none of them is superfluous and none is missing.

A session is a list of activities, of which some change the registry and some concern a single
watcher. What is announced and what is received are functions of the session (`announced`,
`received`), and both are put together part by part. The invariant of a session is that what a
watcher has received and what still waits for it are together what was announced since it came. It
holds as long as the watcher keeps up (`KeepsUp`), because a full queue drops what comes next.

That watchers do not disturb each other is a statement about two registries that differ in the queue
of one watcher only (`SameBut`): every activity keeps them so.
-/

namespace ViewCompiler

/-! ### Replaying changes -/

namespace RegistryChange

/-- The registered names after a change, if it applies to those before. -/
def applyTo? (names : Finset String) (e : RegistryChange) : Option (Finset String) :=
  match e.kind with
  | .added => if e.name ∈ names then none else some (insert e.name names)
  | .updated => if e.name ∈ names then some names else none
  | .removed => if e.name ∈ names then some (names.erase e.name) else none

/-- The registered names after some changes, the earliest first, if every one of them applies. -/
def replay? (names : Finset String) (es : List RegistryChange) : Option (Finset String) :=
  es.foldlM applyTo? names

private theorem replay?_singleton {names : Finset String} {e : RegistryChange} :
    replay? names [e] = applyTo? names e := by
  rw [replay?, List.foldlM_cons]
  exact bind_pure _

/-- Events are replayed one part behind the other. -/
private theorem replay?_append {names : Finset String} {es es' : List RegistryChange} :
    replay? names (es ++ es') = (replay? names es).bind (replay? · es') :=
  List.foldlM_append

end RegistryChange

/-- Tells a watcher of some changes, the earliest first. -/
def Watcher.tellAll (w : Watcher) (es : List RegistryChange) : Watcher := es.foldl Watcher.tell w

/-- A watcher with room for all changes is told all of them. -/
private theorem Watcher.tellAll_eq {w : Watcher} {es : List RegistryChange} (h : w.listening = true)
    (hroom : w.pending.length + es.length ≤ capacity) :
    w.tellAll es = { w with pending := w.pending ++ es } := by
  induction es generalizing w with
  | nil => simp [tellAll]
  | cons e es ih =>
    rw [List.length_cons] at hroom
    have hfree : w.pending.length < capacity := by omega
    have htell : w.tell e = { w with pending := w.pending ++ [e] } :=
      if_pos (by rw [h, Bool.true_and, decide_eq_true hfree])
    have hlater : (w.pending ++ [e]).length + es.length ≤ capacity := by
      rw [List.length_append, List.length_singleton]
      omega
    change (w.tell e).tellAll es = _
    rw [htell, ih (w := { w with pending := w.pending ++ [e] }) h hlater]
    simp

namespace Registry

open RegistryChange

/-! ### One operation -/

/-- The changes that an operation makes, in the order in which they are announced. -/
def Operation.changes (r : Registry) : Operation → List RegistryChange
  | register c => [⟨if (r.get? c.name).isSome then .updated else .added, c.name⟩]
  | remove name => if (r.get? name).isSome then [⟨.removed, name⟩] else []
  | removeAt path => (r.namesAt path).map (⟨.removed, ·⟩)

/-- The registered names as a set. -/
def nameSet (r : Registry) : Finset String := r.names.toFinset

variable {r r' : Registry}

/-- The set of names has those of the registered components. -/
theorem mem_nameSet_iff {name : String} : name ∈ r.nameSet ↔ ∃ c ∈ r.components, c.name = name := by
  rw [nameSet, List.mem_toFinset, names, List.mem_map]

/-- A component is found exactly under the names in the set. -/
theorem isSome_get?_iff {name : String} : (r.get? name).isSome ↔ name ∈ r.nameSet := by
  rw [get?, List.find?_isSome, mem_nameSet_iff]
  simp only [decide_eq_true_eq]

/-- Removing a component takes its name out of the set. -/
theorem nameSet_remove (name : String) : (r.remove name).nameSet = r.nameSet.erase name := by
  ext n
  rw [mem_nameSet_iff, Finset.mem_erase, mem_nameSet_iff]
  simp only [mem_components_remove]
  constructor
  · rintro ⟨c, ⟨hc, hne⟩, rfl⟩
    exact ⟨hne, c, hc, rfl⟩
  · rintro ⟨hne, c, hc, rfl⟩
    exact ⟨c, ⟨hc, hne⟩, rfl⟩

/-- Registering a component puts its name into the set. -/
private theorem nameSet_register (h : r.Sorted) (c : Component) :
    (r.register c).nameSet = insert c.name r.nameSet := by
  ext n
  rw [mem_nameSet_iff, Finset.mem_insert, mem_nameSet_iff, components_register]
  simp only [mem_place h, Component.name_withTag]
  constructor
  · rintro ⟨d, rfl | ⟨hd, -⟩, rfl⟩
    · exact .inl c.name_withTag
    · exact .inr ⟨d, hd, rfl⟩
  · intro hn
    by_cases heq : n = c.name
    · exact ⟨c.withTag, .inl rfl, c.name_withTag.trans heq.symm⟩
    · obtain ⟨d, hd, rfl⟩ := hn.resolve_left heq
      exact ⟨d, .inr ⟨hd, heq⟩, rfl⟩

/-- Removing registered names one after the other. -/
private theorem replay?_foldl_remove {ns : List String} (hnodup : ns.Nodup)
    (hns : ∀ n ∈ ns, n ∈ r.nameSet) :
    replay? r.nameSet (ns.map (⟨.removed, ·⟩)) = some (ns.foldl remove r).nameSet := by
  induction ns generalizing r with
  | nil => rfl
  | cons n ns ih =>
    obtain ⟨hn, hlater⟩ := List.forall_mem_cons.1 hns
    obtain ⟨hnew, hnodup⟩ := List.nodup_cons.1 hnodup
    have hstep : applyTo? r.nameSet ⟨.removed, n⟩ = some (r.remove n).nameSet := by
      rw [nameSet_remove]
      exact if_pos hn
    rw [List.map_cons, replay?, List.foldlM_cons, hstep]
    refine ih hnodup fun m hm => ?_
    rw [nameSet_remove]
    exact Finset.mem_erase.2 ⟨fun heq => hnew (heq ▸ hm), hlater m hm⟩

/-- The changes that an operation makes apply to the names that were registered before, and give
those that are registered afterwards. -/
theorem replay?_changes (h : r.Sorted) (op : Operation) :
    replay? r.nameSet (op.changes r) = some (op.apply r).nameSet := by
  cases op with
  | register c =>
    change replay? r.nameSet [_] = some (r.register c).nameSet
    rw [nameSet_register h, replay?_singleton]
    by_cases hc : c.name ∈ r.nameSet
    · simp [isSome_get?_iff, hc, applyTo?]
    · simp [isSome_get?_iff, hc, applyTo?]
  | remove name =>
    change replay? r.nameSet (if (r.get? name).isSome then _ else _) = some (r.remove name).nameSet
    rw [nameSet_remove]
    by_cases hname : name ∈ r.nameSet
    · rw [if_pos (isSome_get?_iff.2 hname), replay?_singleton]
      exact if_pos hname
    · rw [if_neg (mt isSome_get?_iff.1 hname), Finset.erase_eq_of_notMem hname]
      rfl
  | removeAt path =>
    have hsub : (r.namesAt path).Sublist r.names := List.filter_sublist.map _
    refine replay?_foldl_remove ?_ fun n hn => List.mem_toFinset.2 (hsub.subset hn)
    exact (h.sublist hsub).imp ne_of_lt

/-- Every watcher is told of a removal, if there was something to remove. -/
theorem watchers_remove (name : String) :
    (r.remove name).watchers =
      r.watchers.map (·.tellAll (if (r.get? name).isSome then [⟨.removed, name⟩] else [])) := by
  unfold remove
  cases r.get? name with
  | none => simp [Watcher.tellAll]
  | some c => rfl

/-- Every watcher is told of several removals in their order. -/
private theorem watchers_foldl_remove {ns : List String} (hnodup : ns.Nodup)
    (hns : ∀ n ∈ ns, n ∈ r.nameSet) :
    (ns.foldl remove r).watchers = r.watchers.map (·.tellAll (ns.map (⟨.removed, ·⟩))) := by
  induction ns generalizing r with
  | nil => simp [Watcher.tellAll]
  | cons n ns ih =>
    obtain ⟨hn, hlater⟩ := List.forall_mem_cons.1 hns
    obtain ⟨hnew, hnodup⟩ := List.nodup_cons.1 hnodup
    have hkept : ∀ m ∈ ns, m ∈ (r.remove n).nameSet := fun m hm => by
      rw [nameSet_remove]
      exact Finset.mem_erase.2 ⟨fun heq => hnew (heq ▸ hm), hlater m hm⟩
    rw [List.foldl_cons, ih hnodup hkept, watchers_remove, if_pos (isSome_get?_iff.2 hn),
      List.map_map]
    rfl

/-- An operation tells every watcher the changes that it makes. -/
theorem watchers_apply (h : r.Sorted) (op : Operation) :
    (op.apply r).watchers = r.watchers.map (·.tellAll (op.changes r)) := by
  cases op with
  | register c =>
    change (r.register c).watchers =
      r.watchers.map (·.tell ⟨if (r.get? c.name).isSome then .updated else .added, c.name⟩)
    rw [← c.name_withTag]
    simp only [register]
    cases r.get? c.withTag.name with
    | none => rfl
    | some o => rfl
  | remove name => exact watchers_remove name
  | removeAt path =>
    have hsub : (r.namesAt path).Sublist r.names := List.filter_sublist.map _
    refine watchers_foldl_remove ?_ fun n hn => List.mem_toFinset.2 (hsub.subset hn)
    exact (h.sublist hsub).imp ne_of_lt

/-! ### Sessions -/

/-- What may happen while a registry is watched. A removal by path in another order is a sequence of
removals by name. -/
inductive Activity where
  | change (op : Operation)
  | watch
  | unwatch (number : Nat)
  /-- The watcher with the number takes the first change that waits for it. -/
  | receive (number : Nat)
  /-- All watchers take everything that waits for them. -/
  | drain

/-- What the watcher with the number has not taken yet. -/
def pendingOf (r : Registry) (number : Nat) : List RegistryChange :=
  r.watchers[number]?.elim [] (·.pending)

namespace Activity

/-- The registry after an activity. -/
def act (r : Registry) : Activity → Registry
  | change op => op.apply r
  | watch => r.watch
  | unwatch number => r.unwatch number
  | receive number =>
    { r with watchers := r.watchers.modify number fun w => { w with pending := w.pending.tail } }
  | drain => r.drain.2

/-- The changes that an activity announces. -/
def announces (r : Registry) : Activity → List RegistryChange
  | change op => op.changes r
  | watch | unwatch _ | receive _ | drain => []

/-- The changes that the watcher with the number takes. -/
def takes (r : Registry) (number : Nat) : Activity → List RegistryChange
  | receive other => if other = number then (r.pendingOf number).take 1 else []
  | drain => r.pendingOf number
  | change _ | watch | unwatch _ => []

end Activity

/-- The registry after some activities, the earliest first. -/
def after (r : Registry) (as : List Activity) : Registry := as.foldl Activity.act r

/-- The changes that are announced in the course of some activities. -/
def announced (r : Registry) : List Activity → List RegistryChange
  | [] => []
  | a :: as => a.announces r ++ (a.act r).announced as

/-- The changes that the watcher with the number takes in the course of some activities. -/
def received (r : Registry) (number : Nat) : List Activity → List RegistryChange
  | [] => []
  | a :: as => a.takes r number ++ (a.act r).received number as

/-- All changes that the watcher with the number is told: those it has taken, and those that
wait. -/
def events (r : Registry) (number : Nat) (as : List Activity) : List RegistryChange :=
  r.received number as ++ (r.after as).pendingOf number

/-- How many of the changes that are announced the watcher with the number has not taken. -/
def undelivered (r : Registry) (number : Nat) (as : List Activity) : Nat :=
  (r.announced as).length - (r.received number as).length

/-- The watcher with the number stays, and is never further behind than its queue can hold. -/
structure KeepsUp (r : Registry) (number : Nat) (as : List Activity) : Prop where
  stays : .unwatch number ∉ as
  room : ∀ before, before <+: as → r.undelivered number before ≤ Watcher.capacity

section Append

variable {as as' : List Activity} {a : Activity} {number : Nat}

theorem after_append : r.after (as ++ as') = (r.after as).after as' := List.foldl_append

/-- What is announced in two parts is announced one part behind the other. -/
theorem announced_append :
    r.announced (as ++ as') = r.announced as ++ (r.after as).announced as' := by
  induction as generalizing r with
  | nil => rfl
  | cons a as ih =>
    rw [List.cons_append, announced, ih, announced, List.append_assoc]
    rfl

/-- What is received in two parts is received one part behind the other. -/
theorem received_append :
    r.received number (as ++ as') = r.received number as ++ (r.after as).received number as' := by
  induction as generalizing r with
  | nil => rfl
  | cons a as ih =>
    rw [List.cons_append, received, ih, received, List.append_assoc]
    rfl

end Append

/-! ### One watcher -/

/-- A registry stays sorted through an activity. -/
theorem Sorted.act (h : r.Sorted) (a : Activity) : (a.act r).Sorted := by
  cases a with
  | change op => exact h.apply op
  | watch => exact h
  | unwatch number => exact h
  | receive number => exact h
  | drain => exact h

theorem Sorted.after (h : r.Sorted) (as : List Activity) : (r.after as).Sorted := by
  induction as generalizing r with
  | nil => exact h
  | cons a as ih => exact ih (h.act a)

/-- What is announced takes the names that were registered before to those that are registered
afterwards. -/
private theorem replay?_announced (h : r.Sorted) (as : List Activity) :
    replay? r.nameSet (r.announced as) = some (r.after as).nameSet := by
  induction as generalizing r with
  | nil => rfl
  | cons a as ih =>
    have hstep : replay? r.nameSet (a.announces r) = some (a.act r).nameSet := by
      cases a with
      | change op => exact replay?_changes h op
      | watch => rfl
      | unwatch number => rfl
      | receive number => rfl
      | drain => rfl
    rw [announced, replay?_append, hstep]
    exact ih (h.act a)

section Watcher

variable {number : Nat} {es : List RegistryChange}

/-- What a listening watcher takes, and what waits for it afterwards, is what waited for it before
and what is announced. -/
private theorem exists_waiting_act (hsorted : r.Sorted) (h : r.watchers[number]? = some ⟨es, true⟩)
    {a : Activity} (ha : a ≠ .unwatch number)
    (hroom : es.length + (a.announces r).length ≤ Watcher.capacity) :
    ∃ es', (a.act r).watchers[number]? = some ⟨es', true⟩ ∧
      a.takes r number ++ es' = es ++ a.announces r := by
  have hpending : r.pendingOf number = es := by rw [pendingOf, h]; rfl
  cases a with
  | change op =>
    refine ⟨es ++ op.changes r, ?_, rfl⟩
    rw [Activity.act, watchers_apply hsorted, List.getElem?_map, h, Option.map_some,
      Watcher.tellAll_eq rfl hroom]
  | watch =>
    refine ⟨es, ?_, (List.append_nil es).symm⟩
    exact (List.getElem?_append_left (List.getElem?_eq_some_iff.1 h).1).trans h
  | unwatch other =>
    refine ⟨es, ?_, (List.append_nil es).symm⟩
    have hne : other ≠ number := fun heq => ha (heq ▸ rfl)
    exact (List.getElem?_modify_ne _ _ hne).trans h
  -- Another watcher may take from its own queue; this one loses what it takes.
  | receive other =>
    by_cases heq : other = number
    · subst heq
      refine ⟨es.tail, ?_, ?_⟩
      · simp [Activity.act, h]
      · simp [Activity.takes, Activity.announces, hpending, ← List.drop_one]
    · refine ⟨es, (List.getElem?_modify_ne _ _ heq).trans h, ?_⟩
      simp [Activity.takes, Activity.announces, heq]
  | drain =>
    refine ⟨[], ?_, ?_⟩
    · simp [Activity.act, Registry.drain, h]
    · simp [Activity.takes, Activity.announces, hpending]

/-- A watcher that keeps up is told all that is announced. -/
theorem exists_waiting_after (hsorted : r.Sorted) (h : r.watchers[number]? = some ⟨[], true⟩)
    {as : List Activity} (hkeeps : r.KeepsUp number as) :
    ∃ es, (r.after as).watchers[number]? = some ⟨es, true⟩ ∧
      r.received number as ++ es = r.announced as := by
  induction as using List.reverseRecOn with
  | nil => exact ⟨[], h, rfl⟩
  | append_singleton as a ih =>
    have hbefore : r.KeepsUp number as :=
      ⟨fun hmem => hkeeps.stays (List.mem_append_left _ hmem),
        fun before hpre => hkeeps.room before (hpre.trans (List.prefix_append as [a]))⟩
    obtain ⟨es, hes, hannounced⟩ := ih hbefore
    have ha : a ≠ .unwatch number := fun heq => hkeeps.stays (by simp [heq])
    -- What waits before the activity and what it announces is not yet delivered.
    have hroom : es.length + (a.announces (r.after as)).length ≤ Watcher.capacity := by
      have hlength := congrArg List.length hannounced
      have hwaiting := hbefore.room as List.prefix_rfl
      have hlast := hkeeps.room (as ++ [a]) List.prefix_rfl
      rw [undelivered] at hwaiting
      rw [undelivered, announced_append, received_append] at hlast
      simp only [List.length_append, announced, received, List.append_nil] at hlength hlast
      cases a with
      | change op =>
        simp only [Activity.announces, Activity.takes, List.length_nil] at hlast ⊢
        omega
      | _ =>
        simp only [Activity.announces, List.length_nil]
        omega
    obtain ⟨es', hes', hstep⟩ := exists_waiting_act (hsorted.after as) hes ha hroom
    refine ⟨es', ?_, ?_⟩
    · rw [after_append]
      exact hes'
    · rw [received_append, announced_append, ← hannounced, List.append_assoc, List.append_assoc]
      simp only [received, announced, List.append_nil]
      rw [hstep]

end Watcher

/-! ### Watchers do not disturb each other -/

/-- The registries hold the same components, and the same watchers but for the one with the
number. -/
structure SameBut (number : Nat) (r r' : Registry) : Prop where
  components : r.components = r'.components
  length : r.watchers.length = r'.watchers.length
  watcher : ∀ n ≠ number, r.watchers[n]? = r'.watchers[n]?

/-- Removing leaves the components of other names. -/
theorem components_remove (name : String) :
    (r.remove name).components = r.components.filter (·.name ≠ name) := by
  unfold remove
  split
  · rename_i hnone
    refine (List.filter_eq_self.2 fun c hc => ?_).symm
    simpa using List.find?_eq_none.1 hnone c hc
  · rfl

/-- What an operation does to the components depends on the components only. -/
private theorem components_apply_congr (h : r.components = r'.components) (op : Operation) :
    (op.apply r).components = (op.apply r').components := by
  have hfoldl : ∀ {r r' : Registry} (ns : List String), r.components = r'.components →
      (ns.foldl remove r).components = (ns.foldl remove r').components := by
    intro r r' ns heq
    induction ns generalizing r r' with
    | nil => exact heq
    | cons n ns ih => exact ih (by rw [components_remove, components_remove, heq])
  cases op with
  | register c =>
    change (r.register c).components = (r'.register c).components
    rw [components_register, components_register, h]
  | remove name => exact hfoldl [name] h
  | removeAt path =>
    change ((r.namesAt path).foldl remove r).components =
      ((r'.namesAt path).foldl remove r').components
    rw [namesAt, namesAt, h]
    exact hfoldl _ h

/-- What an operation announces depends on the components only. -/
private theorem changes_congr (h : r.components = r'.components) (op : Operation) :
    op.changes r = op.changes r' := by
  have hget : ∀ name, r.get? name = r'.get? name := fun name => by rw [get?, get?, h]
  cases op with
  | register c => rw [Operation.changes, Operation.changes, hget]
  | remove name => rw [Operation.changes, Operation.changes, hget]
  | removeAt path => rw [Operation.changes, Operation.changes, namesAt, namesAt, h]

section SameBut

variable {number n : Nat} (h : SameBut number r r')
include h

theorem SameBut.sorted (hsorted : r.Sorted) : r'.Sorted := by
  rw [Sorted, names, ← h.components]
  exact hsorted

/-- Other watchers have the same announcements waiting. -/
theorem SameBut.pendingOf_eq (hn : n ≠ number) : r.pendingOf n = r'.pendingOf n := by
  rw [pendingOf, pendingOf, h.watcher n hn]

/-- Other watchers take the same announcements. -/
private theorem SameBut.takes_eq (hn : n ≠ number) (a : Activity) : a.takes r n = a.takes r' n := by
  cases a with
  | change op => rfl
  | watch => rfl
  | unwatch other => rfl
  | receive other => rw [Activity.takes, Activity.takes, h.pendingOf_eq hn]
  | drain => exact h.pendingOf_eq hn

/-- Registries that differ in one watcher do so after every activity. -/
theorem SameBut.act (hsorted : r.Sorted) (a : Activity) : SameBut number (a.act r) (a.act r') := by
  cases a with
  | change op =>
    refine ⟨components_apply_congr h.components op, ?_, fun n hn => ?_⟩
    · rw [Activity.act, Activity.act, watchers_apply hsorted, watchers_apply (h.sorted hsorted),
        List.length_map, List.length_map, h.length]
    · rw [Activity.act, Activity.act, watchers_apply hsorted, watchers_apply (h.sorted hsorted),
        List.getElem?_map, List.getElem?_map, h.watcher n hn, changes_congr h.components]
  | watch =>
    refine ⟨h.components, by simp [Activity.act, Registry.watch, h.length], fun n hn => ?_⟩
    simp [Activity.act, Registry.watch, List.getElem?_append, h.length, h.watcher n hn]
  | unwatch other =>
    refine ⟨h.components, by simp [Activity.act, Registry.unwatch, h.length], fun n hn => ?_⟩
    simp [Activity.act, Registry.unwatch, List.getElem?_modify, h.watcher n hn]
  | receive other =>
    refine ⟨h.components, by simp [Activity.act, h.length], fun n hn => ?_⟩
    simp [Activity.act, List.getElem?_modify, h.watcher n hn]
  | drain =>
    refine ⟨h.components, by simp [Activity.act, Registry.drain, h.length], fun n hn => ?_⟩
    simp [Activity.act, Registry.drain, h.watcher n hn]

/-- The other watchers are told the same. -/
private theorem SameBut.events_eq (hsorted : r.Sorted) (hn : n ≠ number) (as : List Activity) :
    r.events n as = r'.events n as := by
  induction as generalizing r r' with
  | nil => exact h.pendingOf_eq hn
  | cons a as ih =>
    have hlater : (a.act r).events n as = (a.act r').events n as :=
      ih (h.act hsorted a) (hsorted.act a)
    rw [events, received, List.append_assoc, h.takes_eq hn a, events, received, List.append_assoc]
    exact congrArg (a.takes r' n ++ ·) hlater

end SameBut

/-- Whether one watcher leaves makes no difference to what another one is told. -/
private theorem events_unwatch {number n : Nat} (hsorted : r.Sorted) (hn : n ≠ number)
    (as as' : List Activity) :
    r.events n (as ++ .unwatch number :: as') = r.events n (as ++ as') := by
  have hsame : SameBut number ((r.after as).unwatch number) (r.after as) := by
    refine ⟨rfl, by simp [unwatch], fun m hm => ?_⟩
    exact List.getElem?_modify_ne _ _ (Ne.symm hm)
  have hlater := hsame.events_eq (hsorted.after as) hn as'
  rw [events, events, received_append, received_append, after_append, after_append,
    List.append_assoc, List.append_assoc]
  exact congrArg _ hlater

/-- The changes that a new watcher is told from then on apply, in this order, to the names that were
registered when it was added, and give those that are registered now, provided it stays and is never
further behind than its queue can hold. Another watcher that leaves makes no difference to what it
is told. -/
theorem events_replay {r : Registry} {before later : List Activity}
    (hr : r = Registry.after {} before)
    (hkeeps : r.watch.KeepsUp r.watchers.length later) :
    replay? r.nameSet (r.watch.events r.watchers.length later) =
      some (r.watch.after later).nameSet ∧
    ∀ number n, n ≠ number → ∀ as as' : List Activity,
      Registry.events {} n (as ++ .unwatch number :: as') = Registry.events {} n (as ++ as') := by
  have hempty : Sorted {} := List.Pairwise.nil
  refine ⟨?_, fun number n hn as as' => events_unwatch hempty hn as as'⟩
  have hsorted : r.watch.Sorted := hr ▸ hempty.after before
  have hnew : r.watch.watchers[r.watchers.length]? = some ⟨[], true⟩ := List.getElem?_concat_length
  obtain ⟨es, hes, hannounced⟩ := exists_waiting_after hsorted hnew hkeeps
  have hpending : (r.watch.after later).pendingOf r.watchers.length = es := by
    rw [pendingOf, hes]
    rfl
  rw [events, hpending, hannounced]
  exact replay?_announced hsorted later

namespace Gallery

/-- A card is registered, and someone watches. -/
def opened : List Activity := [.change (.register { name := "Card", file := "card.html" }), .watch]

/-- The card gets a new template, a badge comes and goes with the card, and the first watcher
leaves. -/
def rearranged : List Activity :=
  [.change (.register { name := "Card", template := "<p>new</p>", file := "card.html" }),
   .receive 1,
   .unwatch 0, .change (.register { name := "Badge", stylePath := "card.html" }), .watch,
   .change (.removeAt "card.html"), .receive 1, .change (.remove "Badge")]

/-- The second watcher has taken two of the four changes, and can replay them all. -/
theorem events_replay_rearranged :
    (Registry.after {} opened).watch.KeepsUp 1 rearranged ∧
    (Registry.after {} opened).watch.events 1 rearranged =
      [⟨.updated, "Card"⟩, ⟨.added, "Badge"⟩, ⟨.removed, "Badge"⟩, ⟨.removed, "Card"⟩] ∧
    replay? {"Card"}
        [⟨.updated, "Card"⟩, ⟨.added, "Badge"⟩, ⟨.removed, "Badge"⟩, ⟨.removed, "Card"⟩] =
          some ∅ := by
  have hkeeps : (Registry.after {} opened).watch.KeepsUp 1 rearranged := by
    have hroom : ∀ before ∈ rearranged.inits,
        (Registry.after {} opened).watch.undelivered 1 before ≤ Watcher.capacity := by decide
    exact ⟨by simp [rearranged], fun before hpre => hroom before ((List.mem_inits _ _).2 hpre)⟩
  have hevents : (Registry.after {} opened).watch.events 1 rearranged =
      [⟨.updated, "Card"⟩, ⟨.added, "Badge"⟩, ⟨.removed, "Badge"⟩, ⟨.removed, "Card"⟩] := by decide
  have hreplay := (events_replay (r := Registry.after {} opened) rfl hkeeps).1
  refine ⟨hkeeps, hevents, ?_⟩
  rw [← hevents]
  exact hreplay

end Gallery

end Registry

end ViewCompiler
