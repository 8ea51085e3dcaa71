import Mathlib.Data.List.Nodup
import ViewCompiler.Reconcile.Instances

/-!
# Instances keep their identity

A keyed view is updated again and again, each time with its own key list and its own way to create
instances. `Instances.history` notes for every update which keys were passed, which calls of
`create` were made and what they returned; noting changes nothing (`Instances.run_mapM_obtainFor`).
From what one update does (`Instances.observe_updates`) follows what holds after any history
(`history_remembers`): the instance of a key is the one that was created for it when the key
appeared last, however the lists were reordered since, and whatever was refused in between.

Creating an instance may have effects. So an update is monadic, and a history threads a state
through all its calls: what one call of `create` returns may depend on every call before it. Nothing
is assumed of it beyond that.

`Event.Updates` says of one event what an update does with the instances before it, without the
update: a list with a repeated key is refused, creates nothing and leaves everything; any other list
is answered with one instance for each key, the ones that were there and newly created ones, and
these calls are made in the order of the list. `Recorded` is the invariant of histories: the keys
are those of the last list that was accepted, and each instance originates (`Originates`) in the
last event that created it, with its key in all accepted lists since.
-/

namespace ViewCompiler.Reconcile

variable {κ ν σ : Type} [DecidableEq κ]

/-! ### Repeated keys -/

/-- The key stands at both places of the list. -/
structure DuplicateKey.OccursIn (d : DuplicateKey κ) (keys : List κ) : Prop where
  first : keys[d.first]? = some d.key
  again : keys[d.again]? = some d.key
  lt : d.first < d.again

/-- A key has no position exactly if it is not among the keys. -/
theorem position?_eq_none_iff {k : κ} {keys : List κ} : position? k keys = none ↔ k ∉ keys := by
  rw [position?, List.findIdx?_eq_none_iff]
  constructor
  · intro h hk
    simpa using h k hk
  · intro h x hx
    simpa using fun heq : x = k => h (heq ▸ hx)

/-- The position of a key is one at which it stands. -/
theorem getElem?_of_position? {k : κ} {keys : List κ} {i : Nat} (h : position? k keys = some i) :
    keys[i]? = some k := by
  obtain ⟨hi, hk, -⟩ := List.findIdx?_eq_some_iff_getElem.1 h
  rw [List.getElem?_eq_getElem hi]
  exact congrArg some (of_decide_eq_true hk)

/-- No duplicate is found exactly if there is none. -/
theorem firstDuplicateFrom_eq_none_iff {seen keys : List κ} (hseen : seen.Nodup) :
    firstDuplicateFrom seen keys = none ↔ (seen.reverse ++ keys).Nodup := by
  induction keys generalizing seen with
  | nil => simpa [firstDuplicateFrom] using hseen
  | cons k ks ih =>
    rw [firstDuplicateFrom]
    split
    · rename_i i hi
      have hmem : k ∈ seen.reverse := List.mem_of_getElem? (getElem?_of_position? hi)
      refine iff_of_false nofun fun hnodup => ?_
      exact (List.nodup_append.1 hnodup).2.2 k hmem k List.mem_cons_self rfl
    · rename_i hnone
      have hnew : k ∉ seen := fun hk => position?_eq_none_iff.1 hnone (List.mem_reverse.2 hk)
      rw [ih (List.nodup_cons.2 ⟨hnew, hseen⟩), List.reverse_cons, List.append_assoc]
      rfl

/-- The duplicate that is found is one. -/
theorem occursIn_of_firstDuplicateFrom {seen keys : List κ} {d : DuplicateKey κ}
    (h : firstDuplicateFrom seen keys = some d) : d.OccursIn (seen.reverse ++ keys) := by
  induction keys generalizing seen with
  | nil => cases h
  | cons k ks ih =>
    rw [firstDuplicateFrom] at h
    split at h
    · rename_i i hi
      obtain rfl := Option.some.inj h
      have hk := getElem?_of_position? hi
      have hlt : i < seen.reverse.length := (List.getElem?_eq_some_iff.1 hk).1
      refine ⟨?_, ?_, by simpa using hlt⟩
      · rw [List.getElem?_append_left hlt]
        exact hk
      · rw [List.getElem?_append_right (by simp)]
        simp
    · have hk := ih h
      rwa [List.reverse_cons, List.append_assoc] at hk

/-- A plan can be made for lists without repeated keys. -/
theorem diff_eq_ok {prev next : List κ} (hprev : prev.Nodup) (hnext : next.Nodup) :
    diff prev next = .ok (planOf prev next) := by
  have hnone : ∀ keys : List κ, keys.Nodup → firstDuplicate keys = none := fun keys h =>
    (firstDuplicateFrom_eq_none_iff List.nodup_nil).2 h
  rw [diff, hnone prev hprev, hnone next hnext]

/-- A list with a repeated key is refused, and the key is named with its places. -/
theorem exists_diff_eq_error {prev next : List κ} (hprev : prev.Nodup) (hnext : ¬next.Nodup) :
    ∃ d, diff prev next = .error d ∧ d.OccursIn next := by
  have hnone : firstDuplicate prev = none :=
    (firstDuplicateFrom_eq_none_iff List.nodup_nil).2 hprev
  cases hd : firstDuplicate next with
  | none => exact absurd ((firstDuplicateFrom_eq_none_iff List.nodup_nil).1 hd) hnext
  | some d => exact ⟨d, by rw [diff, hnone, hd], occursIn_of_firstDuplicateFrom hd⟩

/-! ### One update -/

namespace Instances

variable {s : Instances κ ν}

theorem get?_eq_none_iff {k : κ} : s.get? k = none ↔ k ∉ s.keys := by
  rw [get?, keys, List.lookup_eq_none_iff, List.mem_map]
  simp only [bne_iff_ne, ne_eq]
  constructor
  · rintro h ⟨p, hp, rfl⟩
    exact h p hp rfl
  · rintro h p hp rfl
    exact h ⟨p, hp, rfl⟩

/-- Without repeated keys, the instance of a key is the one that stands beside it. -/
theorem get?_eq_some_iff (h : s.keys.Nodup) {k : κ} {v : ν} :
    s.get? k = some v ↔ (k, v) ∈ s.entries := by
  obtain ⟨entries⟩ := s
  change entries.lookup k = some v ↔ (k, v) ∈ entries
  change (entries.map Prod.fst).Nodup at h
  induction entries with
  | nil => simp
  | cons e entries ih =>
    obtain ⟨hnew, hrest⟩ := List.nodup_cons.1 h
    rw [List.lookup_cons, List.mem_cons]
    by_cases hk : k = e.1
    · have habsent : (k, v) ∉ entries := fun hmem => hnew (hk ▸ List.mem_map_of_mem hmem)
      simp [hk, hk ▸ habsent, Prod.ext_iff, eq_comm]
    · rw [beq_false_of_ne hk]
      refine (ih hrest).trans (or_iff_right fun heq => hk ?_).symm
      rw [← heq]

/-- What a plan reuses for a key is the instance of the key. -/
private theorem map_reused (k : κ) :
    ((position? k s.keys).bind (s.entries[·]?)).map Prod.snd = s.get? k := by
  obtain ⟨entries⟩ := s
  change ((position? k (entries.map Prod.fst)).bind (entries[·]?)).map Prod.snd = entries.lookup k
  induction entries with
  | nil => rfl
  | cons e entries ih =>
    rw [position?] at ih ⊢
    rw [List.map_cons, List.findIdx?_cons, List.lookup_cons]
    by_cases hk : e.1 = k
    · simp [hk]
    · rw [beq_false_of_ne (Ne.symm hk), ← ih]
      simp [hk, Option.bind_map, Function.comp_def]

/-- The instance for a key of the next list: the one it has, or a new one. -/
def obtainFor {m : Type → Type} [Monad m] (s : Instances κ ν) (create : κ → m ν) (k : κ) :
    m (κ × ν) :=
  match s.get? k with
  | some v => pure (k, v)
  | none => do return (k, ← create k)

/-- An update goes through the next list once and obtains an instance for each key. -/
theorem update_eq {m : Type → Type} [Monad m] [LawfulMonad m] (h : s.keys.Nodup) {keys : List κ}
    (hkeys : keys.Nodup) (create : κ → m ν) :
    s.update keys create = do
      let entries ← keys.mapM (s.obtainFor create)
      return .ok (planOf s.keys keys, ⟨entries⟩) := by
  have hreuse : (planOf s.keys keys).reuse = keys.map (position? · s.keys) := rfl
  rw [update, diff_eq_ok h hkeys]
  simp only [hreuse, ← List.map_prod_left_eq_zip, List.mapM_map]
  congr 2
  funext k
  have hreused := s.map_reused k
  cases hv : (position? k s.keys).bind (s.entries[·]?) with
  | none =>
    rw [hv] at hreused
    simp [obtainFor, ← hreused, hv]
  | some e =>
    rw [hv] at hreused
    simp [obtainFor, ← hreused, hv]

/-- Keys with duplicates are refused with one of them, and nothing is created. -/
theorem update_eq_error {m : Type → Type} [Monad m] (h : s.keys.Nodup) {keys : List κ}
    (hkeys : ¬keys.Nodup) (create : κ → m ν) :
    ∃ d, d.OccursIn keys ∧ s.update keys create = pure (.error d) := by
  obtain ⟨d, hdiff, hd⟩ := exists_diff_eq_error h hkeys
  exact ⟨d, hd, by rw [update, hdiff]⟩

end Instances

/-! ### Histories -/

/-- A call of `update`: the keys to render, and how an instance is created meanwhile. -/
structure Call (σ κ ν : Type) where
  keys : List κ
  create : κ → StateM σ ν

/-- Creates an instance and notes the call with what it returned. -/
def noting (create : κ → StateM σ ν) (k : κ) : StateM (List (κ × ν) × σ) ν := fun (calls, w) =>
  let (v, w) := (create k).run w
  (v, calls ++ [(k, v)], w)

/-- What happened in one update. -/
structure Event (κ ν : Type) where
  /-- The keys that were passed. -/
  keys : List κ
  /-- The calls of `create`, each with what it returned, in the order of the calls. -/
  created : List (κ × ν)
  answer : Except (DuplicateKey κ) Plan
  after : Instances κ ν

namespace Instances

/-- Carries out an update; the calls of `create` are those that are noted along the way. -/
def observe (s : Instances κ ν) (c : Call σ κ ν) (w : σ) : Event κ ν × σ :=
  let created := ((s.update c.keys (noting c.create)).run ([], w)).2.1
  match (s.update c.keys c.create).run w with
  | (.ok (plan, after), w) => (⟨c.keys, created, .ok plan, after⟩, w)
  | (.error d, w) => (⟨c.keys, created, .error d, s⟩, w)

/-- Carries out updates one after the other, from a world on. -/
def history (s : Instances κ ν) : List (Call σ κ ν) → σ → List (Event κ ν)
  | [], _ => []
  | c :: cs, w =>
    let (e, w) := s.observe c w
    e :: e.after.history cs w

private theorem run_mapM_cons {τ α β : Type} {f : α → StateM τ β} {x : α} {xs : List α}
    {t t₁ t₂ : τ} {y : β}
    {ys : List β} (hx : (f x).run t = (y, t₁)) (hxs : (xs.mapM f).run t₁ = (ys, t₂)) :
    ((x :: xs).mapM f).run t = (y :: ys, t₂) := by
  rw [List.mapM_cons, StateT.run_bind, hx]
  change (xs.mapM f >>= fun ys => pure (y :: ys)).run t₁ = _
  rw [StateT.run_bind, hxs]
  rfl

/-- Going through a list creates an instance for each key that has none, in list order. Noting the
calls changes neither the instances nor the world. -/
theorem run_mapM_obtainFor (s : Instances κ ν) (create : κ → StateM σ ν) (keys : List κ)
    (calls : List (κ × ν)) (w : σ) :
    ∃ entries created w',
      (keys.mapM (s.obtainFor (noting create))).run (calls, w) = (entries, calls ++ created, w') ∧
      (keys.mapM (s.obtainFor create)).run w = (entries, w') ∧
      entries.map Prod.fst = keys ∧
      created.map Prod.fst = keys.filter (· ∉ s.keys) ∧
      ∀ k v, (k, v) ∈ entries ↔ k ∈ keys ∧ s.get? k = some v ∨ (k, v) ∈ created := by
  induction keys generalizing calls w with
  | nil => exact ⟨[], [], w, by rw [List.append_nil]; rfl, rfl, rfl, rfl, by simp⟩
  | cons k keys ih =>
    cases hk : s.get? k with
    | some v =>
      have hmem : k ∈ s.keys := by
        by_contra habsent
        rw [get?_eq_none_iff.2 habsent] at hk
        cases hk
      obtain ⟨entries, created, w', hnoted, hplain, hkeys, hcreated, hentries⟩ := ih calls w
      refine ⟨(k, v) :: entries, created, w', ?_, ?_, ?_, ?_, ?_⟩
      · refine run_mapM_cons ?_ hnoted
        rw [obtainFor, hk]
        rfl
      · refine run_mapM_cons ?_ hplain
        rw [obtainFor, hk]
        rfl
      · rw [List.map_cons, hkeys]
      · simpa [hmem] using hcreated
      · intro k' v'
        rw [List.mem_cons, hentries, List.mem_cons, Prod.mk.injEq]
        grind
    | none =>
      have hnew : k ∉ s.keys := get?_eq_none_iff.1 hk
      -- The key is created first, in the world as it stands, and the rest in the world after that.
      obtain ⟨⟨v, w₁⟩, hv⟩ : ∃ r, (create k).run w = r := ⟨_, rfl⟩
      have hnoting : (noting create k).run (calls, w) = (v, calls ++ [(k, v)], w₁) := by
        change (((create k).run w).1, calls ++ [(k, ((create k).run w).1)], ((create k).run w).2) =
          _
        rw [hv]
      obtain ⟨entries, created, w', hnoted, hplain, hkeys, hcreated, hentries⟩ :=
        ih (calls ++ [(k, v)]) w₁
      rw [List.append_assoc] at hnoted
      refine ⟨(k, v) :: entries, (k, v) :: created, w', ?_, ?_, ?_, ?_, ?_⟩
      · refine run_mapM_cons ?_ hnoted
        rw [obtainFor, hk, StateT.run_bind, hnoting]
        rfl
      · refine run_mapM_cons ?_ hplain
        rw [obtainFor, hk, StateT.run_bind, hv]
        rfl
      · rw [List.map_cons, hkeys]
      · simpa [hnew] using hcreated
      · intro k' v'
        rw [List.mem_cons, hentries, List.mem_cons, List.mem_cons, Prod.mk.injEq]
        grind

end Instances

/-- What an update of `s` does: a list without repeated keys is taken over, with an instance created
for each key that had none, and any other list is refused. -/
structure Event.Updates (e : Event κ ν) (s : Instances κ ν) : Prop where
  accepted : e.keys.Nodup → e.answer = .ok (planOf s.keys e.keys) ∧ e.after.keys = e.keys ∧
    e.created.map Prod.fst = e.keys.filter (· ∉ s.keys) ∧
    ∀ k v, e.after.get? k = some v ↔ k ∈ e.keys ∧ s.get? k = some v ∨ (k, v) ∈ e.created
  refused : ¬e.keys.Nodup → (∃ d, d.OccursIn e.keys ∧ e.answer = .error d) ∧ e.created = [] ∧
    e.after = s

/-- What is observed of a call updates the instances. -/
theorem Instances.observe_updates {s : Instances κ ν} (h : s.keys.Nodup) (c : Call σ κ ν) (w : σ) :
    (s.observe c w).1.Updates s := by
  by_cases hkeys : c.keys.Nodup
  · obtain ⟨entries, created, w', hnoted, hplain, hfst, hcreated, hentries⟩ :=
      s.run_mapM_obtainFor c.create c.keys [] w
    have hupdate : (s.update c.keys c.create).run w =
        (.ok (planOf s.keys c.keys, ⟨entries⟩), w') := by
      rw [Instances.update_eq h hkeys, StateT.run_bind, hplain]
      rfl
    have hnotes : ((s.update c.keys (noting c.create)).run ([], w)).2.1 = created := by
      rw [Instances.update_eq h hkeys, StateT.run_bind, hnoted]
      rfl
    have hevent : (s.observe c w).1 =
        ⟨c.keys, created, .ok (planOf s.keys c.keys), ⟨entries⟩⟩ := by
      rw [Instances.observe, hupdate, hnotes]
    have hafter : Instances.keys (⟨entries⟩ : Instances κ ν) = c.keys := hfst
    rw [hevent]
    refine ⟨fun _ => ⟨rfl, hafter, hcreated, fun k v => ?_⟩,
      fun hrepeated => absurd hkeys hrepeated⟩
    exact (Instances.get?_eq_some_iff (hafter ▸ hkeys)).trans (hentries k v)
  · obtain ⟨d, hd, hupdate⟩ := Instances.update_eq_error h hkeys c.create
    obtain ⟨d', -, hnoted⟩ := Instances.update_eq_error h hkeys (noting c.create)
    have hevent : (s.observe c w).1 = ⟨c.keys, [], .error d, s⟩ := by
      rw [Instances.observe, hupdate, hnoted]
      rfl
    rw [hevent]
    exact ⟨fun hnodup => absurd hnodup hkeys, fun _ => ⟨⟨d, hd, rfl⟩, rfl, rfl⟩⟩

/-- An update succeeds exactly if its keys have no duplicates. -/
theorem Event.Updates.isOk_iff {e : Event κ ν} {s : Instances κ ν} (h : e.Updates s) :
    e.answer.isOk = true ↔ e.keys.Nodup := by
  by_cases hkeys : e.keys.Nodup
  · rw [(h.accepted hkeys).1]
    exact iff_of_true rfl hkeys
  · obtain ⟨⟨d, -, hd⟩, -⟩ := h.refused hkeys
    rw [hd]
    exact iff_of_false nofun hkeys

/-! ### What the past says about the present -/

/-- The updates that were not refused. -/
def successes (es : List (Event κ ν)) : List (Event κ ν) := es.filter (·.answer.isOk)

/-- The instances after some events. -/
def stateAfter (es : List (Event κ ν)) : Instances κ ν := (es.getLast?.map Event.after).getD {}

/-- The value was created for the key by the first update of the unbroken run of successful ones, up
to the last, whose key lists all hold the key; the one before that run, if any, did not hold it. -/
def Originates (es : List (Event κ ν)) (k : κ) (v : ν) : Prop :=
  ∃ earlier e later, successes es = earlier ++ e :: later ∧ (∀ e' ∈ e :: later, k ∈ e'.keys) ∧
    (∀ e' ∈ earlier.getLast?, k ∉ e'.keys) ∧ (k, v) ∈ e.created

omit [DecidableEq κ] in
/-- A refused call does not change where an instance comes from. -/
private theorem originates_concat_of_refused {es : List (Event κ ν)} {e : Event κ ν}
    (h : e.answer.isOk = false) (k : κ) (v : ν) :
    Originates (es ++ [e]) k v ↔ Originates es k v := by
  have hsame : successes (es ++ [e]) = successes es := by simp [successes, h]
  rw [Originates, Originates, hsame]

omit [DecidableEq κ] in
/-- With one more success, a key goes on with what it had, or starts anew where it was absent. -/
theorem originates_concat_iff {es : List (Event κ ν)} {e : Event κ ν} (h : e.answer.isOk = true)
    (k : κ) (v : ν) : Originates (es ++ [e]) k v ↔ k ∈ e.keys ∧ (Originates es k v ∨
      (∀ e' ∈ (successes es).getLast?, k ∉ e'.keys) ∧ (k, v) ∈ e.created) := by
  have hlast : successes (es ++ [e]) = successes es ++ [e] := by simp [successes, h]
  rw [Originates, hlast]
  constructor
  · rintro ⟨earlier, first, later, hsplit, hheld, hbefore, hcreated⟩
    rcases List.eq_nil_or_concat' later with rfl | ⟨later, last, rfl⟩
    · obtain ⟨rfl, heq⟩ := List.append_inj' hsplit rfl
      obtain rfl := List.singleton_inj.1 heq
      exact ⟨hheld _ List.mem_cons_self, .inr ⟨hbefore, hcreated⟩⟩
    · rw [← List.cons_append, ← List.append_assoc] at hsplit
      obtain ⟨hbut, heq⟩ := List.append_inj' hsplit rfl
      obtain rfl := List.singleton_inj.1 heq
      rw [List.forall_mem_cons, List.forall_mem_append] at hheld
      have hlater := hheld.2.2 _ List.mem_cons_self
      refine ⟨hlater, .inl ⟨earlier, first, later, hbut, ?_, hbefore, hcreated⟩⟩
      exact List.forall_mem_cons.2 ⟨hheld.1, hheld.2.1⟩
  · rintro ⟨hk, ⟨earlier, first, later, hsplit, hheld, hbefore, hcreated⟩ | ⟨habsent, hcreated⟩⟩
    · refine ⟨earlier, first, later ++ [e], ?_, ?_, hbefore, hcreated⟩
      · rw [hsplit, List.append_assoc, List.cons_append]
      · rw [← List.cons_append]
        exact List.forall_mem_append.2 ⟨hheld, List.forall_mem_singleton.2 hk⟩
    · exact ⟨successes es, e, [], rfl, List.forall_mem_singleton.2 hk, habsent, hcreated⟩

/-- The invariant of a history: what the instances are now, said by what happened. -/
structure Recorded (es : List (Event κ ν)) : Prop where
  isOk_iff : ∀ e ∈ es, e.answer.isOk = true ↔ e.keys.Nodup
  keys : (stateAfter es).keys = ((successes es).getLast?.map Event.keys).getD []
  nodup : (stateAfter es).keys.Nodup
  origin : ∀ k v, (stateAfter es).get? k = some v ↔ Originates es k v

private theorem recorded_nil : Recorded ([] : List (Event κ ν)) where
  isOk_iff := by simp
  keys := rfl
  nodup := List.nodup_nil
  origin k v := by
    refine iff_of_false nofun ?_
    rintro ⟨earlier, e, later, hsplit, -⟩
    simp [successes] at hsplit

omit [DecidableEq κ] in
private theorem stateAfter_concat (es : List (Event κ ν)) (e : Event κ ν) :
    stateAfter (es ++ [e]) = e.after := by
  simp [stateAfter]

/-- One update keeps the invariant. -/
theorem Recorded.concat {es : List (Event κ ν)} (h : Recorded es) {e : Event κ ν}
    (he : e.Updates (stateAfter es)) : Recorded (es ++ [e]) := by
  have hisOk : ∀ e' ∈ es ++ [e], e'.answer.isOk = true ↔ e'.keys.Nodup :=
    List.forall_mem_append.2 ⟨h.isOk_iff, List.forall_mem_singleton.2 he.isOk_iff⟩
  by_cases hkeys : e.keys.Nodup
  · obtain ⟨hanswer, hafter, hcreated, hget⟩ := he.accepted hkeys
    have hok : e.answer.isOk = true := he.isOk_iff.2 hkeys
    have hlast : successes (es ++ [e]) = successes es ++ [e] := by simp [successes, hok]
    refine ⟨hisOk, ?_, ?_, fun k v => ?_⟩
    · rw [stateAfter_concat, hafter, hlast]
      simp
    · rw [stateAfter_concat, hafter]
      exact hkeys
    · -- A key was absent exactly when the last success, if any, did not hold it.
      have habsent : (∀ e' ∈ (successes es).getLast?, k ∉ e'.keys) ↔ k ∉ (stateAfter es).keys := by
        rw [h.keys]
        cases (successes es).getLast? with
        | none => simp
        | some last => simp
      have hnew : (k, v) ∈ e.created → k ∈ e.keys ∧ k ∉ (stateAfter es).keys := by
        intro hmem
        have hk : k ∈ e.created.map Prod.fst := List.mem_map_of_mem hmem
        rw [hcreated, List.mem_filter] at hk
        exact ⟨hk.1, of_decide_eq_true hk.2⟩
      rw [stateAfter_concat, hget, originates_concat_iff hok, habsent, h.origin]
      constructor
      · rintro (⟨hk, hv⟩ | hmem)
        · exact ⟨hk, .inl hv⟩
        · exact ⟨(hnew hmem).1, .inr ⟨(hnew hmem).2, hmem⟩⟩
      · rintro ⟨hk, hv | ⟨-, hmem⟩⟩
        · exact .inl ⟨hk, hv⟩
        · exact .inr hmem
  · obtain ⟨-, -, hafter⟩ := he.refused hkeys
    have hok : e.answer.isOk = false := by
      rw [Bool.eq_false_iff, ne_eq, he.isOk_iff]
      exact hkeys
    have hsame : successes (es ++ [e]) = successes es := by simp [successes, hok]
    have hstate : stateAfter (es ++ [e]) = stateAfter es := by rw [stateAfter_concat, hafter]
    refine ⟨hisOk, ?_, ?_, fun k v => ?_⟩
    · rw [hstate, hsame]
      exact h.keys
    · rw [hstate]
      exact h.nodup
    · rw [hstate, originates_concat_of_refused hok]
      exact h.origin k v

/-- Every update of a history starts from what the updates before it left. -/
theorem Recorded.history {past : List (Event κ ν)} (h : Recorded past) {calls : List (Call σ κ ν)}
    {w : σ} {before later : List (Event κ ν)} {e : Event κ ν}
    (hsplit : (stateAfter past).history calls w = before ++ e :: later) :
    Recorded (past ++ before) ∧ e.Updates (stateAfter (past ++ before)) := by
  induction calls generalizing past w before with
  | nil => simp [Instances.history] at hsplit
  | cons c calls ih =>
    have hfirst := Instances.observe_updates h.nodup c w
    rw [Instances.history] at hsplit
    cases before with
    | nil =>
      obtain ⟨rfl, -⟩ := List.cons.inj hsplit
      rw [List.append_nil]
      exact ⟨h, hfirst⟩
    | cons first before =>
      obtain ⟨rfl, hrest⟩ := List.cons.inj hsplit
      rw [← stateAfter_concat past] at hrest
      rw [List.append_cons]
      exact ih (h.concat hfirst) hrest

/-! ### Identity -/

/-- What holds after the update `e` that follows the updates of `past`. -/
structure Remembers (past : List (Event κ ν)) (e : Event κ ν) : Prop where
  /-- The keys are those of the last list without repeated keys. -/
  keys : e.after.keys = (((past ++ [e]).filter (·.keys.Nodup)).getLast?.map Event.keys).getD []
  nodup : e.after.keys.Nodup
  size : e.after.size = e.after.keys.length
  /-- The instances stand in the order of their keys. -/
  items : e.after.items.map some = e.after.keys.map e.after.get?
  /-- The instance of a key is the one that was created for it when its present run began. -/
  origin : ∀ k v, e.after.get? k = some v ↔ Originates (past ++ [e]) k v
  /-- Exactly the keys that were absent are created, once each and in list order. -/
  accepted : e.keys.Nodup → (∃ plan, e.answer = .ok plan) ∧
    e.created.map Prod.fst = e.keys.filter (· ∉ (stateAfter past).keys)
  /-- A repeated key is reported, nothing is created and nothing changes. -/
  refused : ¬e.keys.Nodup → (∃ d, d.OccursIn e.keys ∧ e.answer = .error d) ∧ e.created = [] ∧
    e.after = stateAfter past

private theorem Instances.map_some_items {s : Instances κ ν} (h : s.keys.Nodup) :
    s.items.map some = s.keys.map s.get? := by
  rw [items, keys, List.map_map, List.map_map]
  refine List.map_congr_left fun p hp => ?_
  exact ((get?_eq_some_iff h).2 hp).symm

/-- Over every history of updates from the empty view on, instances keep their identity. -/
theorem history_remembers (calls : List (Call σ κ ν)) (w : σ) {past later : List (Event κ ν)}
    {e : Event κ ν} (h : ({} : Instances κ ν).history calls w = past ++ e :: later) :
    Remembers past e := by
  obtain ⟨hpast, he⟩ := recorded_nil.history h
  rw [List.nil_append] at hpast he
  have hnow := hpast.concat he
  have hsuccesses : (past ++ [e]).filter (·.keys.Nodup) = successes (past ++ [e]) := by
    refine List.filter_congr fun e' he' => ?_
    exact Bool.eq_iff_iff.2 (decide_eq_true_iff.trans (hnow.isOk_iff e' he').symm)
  obtain ⟨-, hkeys, hnodup, horigin⟩ := hnow
  rw [stateAfter_concat] at hkeys hnodup
  simp only [stateAfter_concat] at horigin
  refine ⟨?_, hnodup, ?_, Instances.map_some_items hnodup, horigin, fun hunique => ?_, he.refused⟩
  · rw [hsuccesses]
    exact hkeys
  · exact (List.length_map _).symm
  · obtain ⟨hanswer, -, hcreated, -⟩ := he.accepted hunique
    exact ⟨⟨_, hanswer⟩, hcreated⟩

/-- A view whose second list is refused, and in which one key stays, one leaves and one comes back.
Instances are numbered in the order of their creation. -/
def visits : List (Call Nat Char Nat) :=
  [['a', 'b'], ['b', 'b'], ['c', 'b'], ['b', 'a', 'c']].map
    fun keys => ⟨keys, fun _ n => (n, n + 1)⟩

/-- In the fourth call the first key gets a new instance, the other ones keep theirs, and all of
them are what the history remembers. -/
theorem history_visits : ∃ past e, ({} : Instances Char Nat).history visits 0 = past ++ [e] ∧
    e.created = [('a', 3)] ∧ e.after.entries = [('b', 1), ('a', 3), ('c', 2)] ∧
      Remembers past e := by
  obtain ⟨past, e, hsplit, hcreated, hentries⟩ : ∃ past e,
      ({} : Instances Char Nat).history visits 0 = past ++ [e] ∧ e.created = [('a', 3)] ∧
        e.after.entries = [('b', 1), ('a', 3), ('c', 2)] :=
    ⟨(({} : Instances Char Nat).history visits 0).take 3, _, rfl, rfl, rfl⟩
  exact ⟨past, e, hsplit, hcreated, hentries, history_remembers visits 0 hsplit⟩

end ViewCompiler.Reconcile
