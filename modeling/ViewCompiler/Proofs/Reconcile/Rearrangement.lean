import Mathlib.Data.List.Sort
import ViewCompiler.Proofs.Reconcile.Moves

/-!
# Carrying out a plan

A plan is made for two key lists exactly if neither repeats a key; otherwise the first repetition is
named (`DuplicateKey.IsFirstIn`). To carry a plan out means to keep the instances that stay where
they are (`Plan.kept`) and to put the others in at their next positions, from the first to the last
(`Plan.rearrange`). A plan turns the previous list into the next one (`Plan.Turns`), because the
instances that stay stand in the same order in both lists (`diff_turns`).

A plan consists of positions only, and everything that is said of it is said of both lists. For each
position of the next list it tells which position of the previous one is reused, if any; a key that
comes again has its instance reused, and a new key has none (`reuse_eq_some_iff`,
`reuse_eq_none_iff`). What is removed, created, moved and left in place is read off that.

Inserting from the first position to the last means that whatever stands in front of a position is
there already when the position is filled. So what is put together are the filled part of the next
list and what is still kept, and the induction goes along the next list with that as its invariant.

The same list twice gives a plan that does nothing, and only then does a plan do nothing
(`isNoop_planOf_iff`).
-/

namespace ViewCompiler.Reconcile

variable {κ : Type}

/-! ### The first repeated key -/

/-- The key stands at both places, and up to the second one no key is repeated. -/
structure DuplicateKey.IsFirstIn (d : DuplicateKey κ) (keys : List κ) : Prop where
  occurs : d.OccursIn keys
  before : (keys.take d.again).Nodup

/-- Where there is a first duplicate there are duplicates. -/
private theorem DuplicateKey.IsFirstIn.not_nodup {d : DuplicateKey κ} {keys : List κ}
    (h : d.IsFirstIn keys) :
    ¬keys.Nodup := by
  intro hnodup
  have hlt := (List.getElem?_eq_some_iff.1 h.occurs.first).1
  have heq := (List.getElem?_inj hlt hnodup).1 (h.occurs.first.trans h.occurs.again.symm)
  exact Nat.ne_of_lt h.occurs.lt heq

/-- Up to the second place of the first repetition there is no other one. -/
theorem DuplicateKey.IsFirstIn.again_le {d d' : DuplicateKey κ} {keys : List κ}
    (h : d.IsFirstIn keys)
    (h' : d'.OccursIn keys) : d.again ≤ d'.again := by
  by_contra hgt
  have hlt : d'.again < d.again := Nat.not_le.1 hgt
  have hfirst : (keys.take d.again)[d'.first]? = some d'.key := by
    rw [List.getElem?_take_of_lt (Nat.lt_trans h'.lt hlt), h'.first]
  have hagain : (keys.take d.again)[d'.again]? = some d'.key := by
    rw [List.getElem?_take_of_lt hlt, h'.again]
  have hinside := (List.getElem?_eq_some_iff.1 hfirst).1
  have heq := (List.getElem?_inj hinside h.before).1 (hfirst.trans hagain.symm)
  exact Nat.ne_of_lt h'.lt heq

/-- A list has one first repetition. -/
private theorem DuplicateKey.IsFirstIn.eq {d d' : DuplicateKey κ} {keys : List κ}
    (h : d.IsFirstIn keys) (h' : d'.IsFirstIn keys) : d = d' := by
  obtain ⟨key, first, again⟩ := d
  obtain ⟨key', first', again'⟩ := d'
  obtain rfl : again = again' := Nat.le_antisymm (h.again_le h'.occurs) (h'.again_le h.occurs)
  obtain rfl : key = key' := Option.some.inj (h.occurs.again.symm.trans h'.occurs.again)
  have hfirst : (keys.take again)[first]? = some key := by
    rw [List.getElem?_take_of_lt h.occurs.lt]
    exact h.occurs.first
  have hfirst' : (keys.take again)[first']? = some key := by
    rw [List.getElem?_take_of_lt h'.occurs.lt]
    exact h'.occurs.first
  have hinside := (List.getElem?_eq_some_iff.1 hfirst).1
  obtain rfl := (List.getElem?_inj hinside h.before).1 (hfirst.trans hfirst'.symm)
  rfl

variable [DecidableEq κ]

/-- What the search finds is the first duplicate. -/
private theorem isFirstIn_of_firstDuplicateFrom {seen keys : List κ} {d : DuplicateKey κ}
    (hseen : seen.Nodup)
    (h : firstDuplicateFrom seen keys = some d) : d.IsFirstIn (seen.reverse ++ keys) := by
  refine ⟨occursIn_of_firstDuplicateFrom h, ?_⟩
  induction keys generalizing seen with
  | nil => cases h
  | cons k ks ih =>
    rw [firstDuplicateFrom] at h
    split at h
    · obtain rfl := Option.some.inj h
      rw [← List.length_reverse, List.take_left]
      exact List.nodup_reverse.2 hseen
    · rename_i hnone
      have hnew : k ∉ seen := fun hk => position?_eq_none_iff.1 hnone (List.mem_reverse.2 hk)
      have hmore := ih (List.nodup_cons.2 ⟨hnew, hseen⟩) h
      rwa [List.reverse_cons, List.append_assoc] at hmore

/-- What is named is the first repetition. -/
theorem firstDuplicate_eq_some_iff {keys : List κ} {d : DuplicateKey κ} :
    firstDuplicate keys = some d ↔ d.IsFirstIn keys := by
  have hfound : ∀ {d : DuplicateKey κ}, firstDuplicate keys = some d → d.IsFirstIn keys := fun h =>
    isFirstIn_of_firstDuplicateFrom List.nodup_nil h
  refine ⟨hfound, fun h => ?_⟩
  cases hd : firstDuplicate keys with
  | none => exact absurd ((firstDuplicateFrom_eq_none_iff List.nodup_nil).1 hd) h.not_nodup
  | some d' => rw [(hfound hd).eq h]

/-- A plan is refused for the first repetition in the previous list, or else for that in the next
one. -/
theorem diff_eq_error_iff {prev next : List κ} {d : DuplicateKey κ} :
    diff prev next = .error d ↔ d.IsFirstIn prev ∨ prev.Nodup ∧ d.IsFirstIn next := by
  have hnodup : ∀ keys : List κ, firstDuplicate keys = none ↔ keys.Nodup := fun keys =>
    firstDuplicateFrom_eq_none_iff List.nodup_nil
  simp only [← firstDuplicate_eq_some_iff, ← hnodup, diff]
  cases firstDuplicate prev with
  | some d' => simp
  | none => cases firstDuplicate next <;> simp

/-- There is a plan exactly if neither list has duplicates. -/
theorem exists_diff_eq_ok_iff {prev next : List κ} :
    (∃ p, diff prev next = .ok p) ↔ prev.Nodup ∧ next.Nodup := by
  constructor
  · rintro ⟨p, hp⟩
    have herror : ∀ d, diff prev next ≠ .error d := by simp [hp]
    have hprev : prev.Nodup := by
      by_contra hrepeated
      obtain ⟨d, hd⟩ : ∃ d, firstDuplicate prev = some d :=
        Option.ne_none_iff_exists'.1 fun hnone =>
        hrepeated ((firstDuplicateFrom_eq_none_iff List.nodup_nil).1 hnone)
      exact herror d (diff_eq_error_iff.2 (.inl (firstDuplicate_eq_some_iff.1 hd)))
    refine ⟨hprev, ?_⟩
    by_contra hrepeated
    obtain ⟨d, hd, -⟩ := exists_diff_eq_error hprev hrepeated
    exact herror d hd
  · rintro ⟨hprev, hnext⟩
    exact ⟨_, diff_eq_ok hprev hnext⟩

/-! ### Carrying out a plan -/

namespace Plan

variable {α : Type}

/-- The previous positions of the instances that are reused and not moved, in the order of their
next positions. -/
def staying (p : Plan) : List Nat :=
  ((reusedPositions p.reuse).filter fun r => r.next ∉ p.moved).map (·.previous)

/-- The previous instances without those that do not stay. -/
def kept (p : Plan) (previous : List α) : List α :=
  ((List.range previous.length).filter (· ∈ p.staying)).filterMap (previous[·]?)

/-- What is put in, with its place: new instances, and previous ones that have moved. -/
def inserted (p : Plan) (previous new : List α) : List (α × Nat) :=
  (List.range p.reuse.length).filterMap fun i =>
    (if i ∈ p.created then new[i]?
      else if i ∈ p.moved then p.reuse[i]?.join.bind (previous[·]?)
      else none).map (·, i)

/-- The next instances: those that stay, with the others put in at their next positions, from the
first to the last. A new instance is the one that `new` has at its position. -/
def rearrange (p : Plan) (previous new : List α) : List α :=
  (p.inserted previous new).foldl (fun shown x => shown.insertIdx x.2 x.1) (p.kept previous)

/-- An instance is created where none is reused. -/
theorem mem_created_iff {p : Plan} {i : Nat} : i ∈ p.created ↔ p.reuse[i]? = some none := by
  rw [created, List.mem_filterMap]
  constructor
  · rintro ⟨⟨r, i'⟩, hmem, hi⟩
    cases r with
    | none =>
      obtain rfl := Option.some.inj hi
      exact List.mk_mem_zipIdx_iff_getElem?.1 hmem
    | some j => cases hi
  · intro h
    exact ⟨(none, i), List.mk_mem_zipIdx_iff_getElem?.2 h, rfl⟩

/-- An instance stays if it is reused without being moved. -/
theorem mem_staying_iff {p : Plan} {j : Nat} :
    j ∈ p.staying ↔ ∃ i, p.reuse[i]? = some (some j) ∧ i ∉ p.moved := by
  simp only [staying, List.mem_map, List.mem_filter, mem_reusedPositions, decide_eq_true_eq]
  constructor
  · rintro ⟨r, ⟨hr, hstays⟩, rfl⟩
    exact ⟨r.next, hr, hstays⟩
  · rintro ⟨i, hi, hstays⟩
    exact ⟨⟨i, j⟩, ⟨hi, hstays⟩, rfl⟩

end Plan

private theorem insertIdx_length_append {α : Type} (done rest : List α) (x : α) :
    (done ++ rest).insertIdx done.length x = done ++ x :: rest := by
  induction done with
  | nil => rfl
  | cons d done ih =>
    rw [List.cons_append, List.length_cons, List.insertIdx_succ_cons, ih, List.cons_append]

/-- Whoever keeps some places of a list and puts the others in again, from the first to the last,
gets the list back. -/
private theorem foldl_insertIdx {α : Type} (stays : Nat → Bool) (done rest : List α) :
    ((rest.zipIdx done.length).filter (!stays ·.2)).foldl (fun shown x => shown.insertIdx x.2 x.1)
      (done ++ ((rest.zipIdx done.length).filter (stays ·.2)).map (·.1)) = done ++ rest := by
  induction rest generalizing done with
  | nil => simp
  | cons x rest ih =>
    have hmore := ih (done ++ [x])
    rw [List.length_append, List.length_singleton, List.append_assoc, List.append_assoc,
      List.singleton_append, List.singleton_append] at hmore
    rw [List.zipIdx_cons]
    cases hstays : stays done.length with
    | true =>
      rw [List.filter_cons_of_pos (by simp [hstays]), List.filter_cons_of_neg (by simp [hstays])]
      exact hmore
    | false =>
      rw [List.filter_cons_of_neg (by simp [hstays]), List.filter_cons_of_pos (by simp [hstays]),
        List.foldl_cons, insertIdx_length_append]
      exact hmore

/-! ### The plan for two lists -/

section PlanOf

variable {prev next : List κ}

private theorem getElem?_reuse (i : Nat) :
    (planOf prev next).reuse[i]? = next[i]?.map (position? · prev) :=
  List.getElem?_map

/-- A key has the position at which it stands. -/
theorem position?_eq_some_iff (h : prev.Nodup) {k : κ} {j : Nat} :
    position? k prev = some j ↔ prev[j]? = some k := by
  refine ⟨getElem?_of_position?, fun hj => ?_⟩
  cases hk : position? k prev with
  | none => exact absurd (List.mem_of_getElem? hj) (position?_eq_none_iff.1 hk)
  | some i =>
    have hi := getElem?_of_position? hk
    have hinside := (List.getElem?_eq_some_iff.1 hi).1
    rw [(List.getElem?_inj hinside h).1 (hi.trans hj.symm)]

/-- An instance is reused where its key comes again. -/
theorem reuse_eq_some_iff (h : prev.Nodup) {i j : Nat} :
    (planOf prev next).reuse[i]? = some (some j) ↔ ∃ k, next[i]? = some k ∧ prev[j]? = some k := by
  rw [getElem?_reuse, Option.map_eq_some_iff]
  simp only [position?_eq_some_iff h]

/-- No instance is reused where a key is new. -/
theorem reuse_eq_none_iff {i : Nat} :
    (planOf prev next).reuse[i]? = some none ↔ ∃ k, next[i]? = some k ∧ k ∉ prev := by
  rw [getElem?_reuse, Option.map_eq_some_iff]
  simp only [position?_eq_none_iff]

private theorem pairwise_removed : (planOf prev next).removed.Pairwise (· < ·) :=
  List.pairwise_lt_range.filter _

/-- An instance is removed if no position reuses it. -/
theorem mem_removed_iff {j : Nat} :
    j ∈ (planOf prev next).removed ↔ j < prev.length ∧ some j ∉ (planOf prev next).reuse := by
  change j ∈ (List.range prev.length).filter _ ↔ _
  rw [List.mem_filter, List.mem_range, Bool.not_eq_true', List.contains_eq_mem,
    decide_eq_false_iff_not]
  rfl

/-- What moves is listed by its next positions. -/
private theorem pairwise_moves (reuse : List (Option Nat)) : (moves reuse).Pairwise (· < ·) := by
  have hnext : ((reusedPositions reuse).map (·.next)).Pairwise (· < ·) :=
    List.pairwise_map.2 (pairwise_reusedPositions reuse)
  exact hnext.filter _

/-- Only reused instances are moved. -/
private theorem exists_reuse_of_mem_moves {reuse : List (Option Nat)} {i : Nat}
    (h : i ∈ moves reuse) :
    ∃ j, reuse[i]? = some (some j) := by
  obtain ⟨r, hr, rfl⟩ := List.mem_map.1 (mem_moves_iff.1 h).1
  exact ⟨r.previous, mem_reusedPositions.1 hr⟩

/-- The instances that stay stand in the order in which they stood before. -/
theorem pairwise_staying : (planOf prev next).staying.Pairwise (· < ·) := by
  have hmoved : (planOf prev next).moved = moves (planOf prev next).reuse := rfl
  generalize planOf prev next = p at hmoved
  obtain ⟨hsub, horder, -⟩ := longestRun_isLongest (reusedPositions p.reuse)
  have hrun : p.IsRun (p.reused \ p.moved.toFinset) :=
    toFinset_moved hmoved ▸ Plan.isRun_of_sublist hsub horder
  have hstays : ∀ r ∈ (reusedPositions p.reuse).filter (fun r => r.next ∉ p.moved),
      p.reuse[r.next]? = some (some r.previous) ∧ r.next ∈ p.reused \ p.moved.toFinset := by
    intro r hr
    obtain ⟨hr, hmoves⟩ := List.mem_filter.1 hr
    have hreuse := mem_reusedPositions.1 hr
    refine ⟨hreuse, Finset.mem_sdiff.2 ⟨Plan.mem_reused_iff.2 ⟨_, hreuse⟩, ?_⟩⟩
    rw [List.mem_toFinset]
    exact of_decide_eq_true hmoves
  have hnext := (pairwise_reusedPositions p.reuse).filter (fun r => r.next ∉ p.moved)
  refine List.pairwise_map.2 (hnext.imp_of_mem fun {a b} ha hb hlt => ?_)
  exact hrun.increasing _ (hstays a ha).2 _ (hstays b hb).2 hlt _ _ (hstays a ha).1 (hstays b hb).1

/-! ### Keeping and putting in -/

/-- Whether the instance of a next position stays in its place. -/
def Plan.staysAt (p : Plan) (i : Nat) : Bool := p.reuse[i]?.join.isSome && i ∉ p.moved

/-- What is kept are the keys that stay, in the new order. -/
private theorem kept_eq (h : prev.Nodup) :
    (planOf prev next).kept prev =
      (next.zipIdx.filter ((planOf prev next).staysAt ·.2)).map (·.1) := by
  have hrange : (List.range prev.length).filter (· ∈ (planOf prev next).staying) =
      (planOf prev next).staying := by
    refine List.Pairwise.eq_of_mem_iff (List.pairwise_lt_range.filter _) pairwise_staying fun j =>
      ?_
    rw [List.mem_filter, List.mem_range, decide_eq_true_eq]
    refine and_iff_right_of_imp fun hj => ?_
    obtain ⟨i, hi, -⟩ := Plan.mem_staying_iff.1 hj
    obtain ⟨k, -, hk⟩ := (reuse_eq_some_iff h).1 hi
    exact (List.getElem?_eq_some_iff.1 hk).1
  have hreuse : reusedPositions (planOf prev next).reuse =
      next.zipIdx.filterMap fun x => (position? x.1 prev).map (⟨x.2, ·⟩) := by
    change reusedPositions (next.map (position? · prev)) = _
    rw [reusedPositions, List.zipIdx_map, List.filterMap_map]
    rfl
  have hfilter : (next.zipIdx.filter ((planOf prev next).staysAt ·.2)).map (·.1) =
      next.zipIdx.filterMap fun x => if (planOf prev next).staysAt x.2 then some x.1 else none := by
    rw [← List.filterMap_eq_map, List.filterMap_filter]
    rfl
  -- Both sides go through the next list and keep a key under the same condition.
  rw [Plan.kept, hrange, Plan.staying, hreuse, hfilter, List.filter_filterMap, List.map_filterMap,
    List.filterMap_filterMap]
  refine List.filterMap_congr fun x hx => ?_
  obtain ⟨k, i⟩ := x
  have hi : next[i]? = some k := List.mk_mem_zipIdx_iff_getElem?.1 hx
  cases hk : position? k prev with
  | none => simp [Plan.staysAt, getElem?_reuse, hi, hk]
  | some j =>
    have hj := getElem?_of_position? hk
    by_cases hmoved : i ∈ (planOf prev next).moved
    · simp [Plan.staysAt, getElem?_reuse, hi, hk, hmoved, Option.filter]
    · simp [Plan.staysAt, getElem?_reuse, hi, hk, hmoved, hj, Option.filter]

/-- What is inserted are the keys that do not stay, where they come. -/
private theorem inserted_eq :
    (planOf prev next).inserted prev next =
      next.zipIdx.filter (!(planOf prev next).staysAt ·.2) := by
  have hrange : List.range (planOf prev next).reuse.length = next.zipIdx.map (·.2) := by
    change List.range (next.map (position? · prev)).length = _
    rw [List.length_map, List.zipIdx_map_snd, List.range_eq_range']
  rw [Plan.inserted, hrange, List.filterMap_map, ← List.filterMap_eq_filter]
  refine List.filterMap_congr fun x hx => ?_
  obtain ⟨k, i⟩ := x
  have hi : next[i]? = some k := List.mk_mem_zipIdx_iff_getElem?.1 hx
  cases hk : position? k prev with
  | none => simp [Plan.mem_created_iff, Plan.staysAt, getElem?_reuse, hi, hk]
  | some j =>
    have hj := getElem?_of_position? hk
    by_cases hmoved : i ∈ (planOf prev next).moved
    · simp [Plan.mem_created_iff, Plan.staysAt, getElem?_reuse, hi, hk, hj, hmoved]
    · simp [Plan.mem_created_iff, Plan.staysAt, getElem?_reuse, hi, hk, hmoved, Option.guard]

/-- The plan puts the next list together. -/
private theorem rearrange_planOf (h : prev.Nodup) :
    (planOf prev next).rearrange prev next = next := by
  have hback := foldl_insertIdx (planOf prev next).staysAt [] next
  rw [Plan.rearrange, kept_eq h, inserted_eq]
  exact hback

/-! ### Plans that change nothing -/

/-- Nothing moves where all instances are reused in the order in which they stood. -/
private theorem moves_eq_nil {reuse : List (Option Nat)} (h : InOrder (reusedPositions reuse)) :
    moves reuse = [] := by
  obtain ⟨hsub, -, hlongest⟩ := longestRun_isLongest (reusedPositions reuse)
  have hall : (longestRun (reusedPositions reuse)).reverse = reusedPositions reuse :=
    hsub.eq_of_length_le (by simpa using hlongest _ (List.Sublist.refl _) h)
  refine List.eq_nil_iff_forall_not_mem.2 fun i hi => ?_
  obtain ⟨hreused, hrun⟩ := mem_moves_iff.1 hi
  rw [← hall, List.map_reverse, List.mem_reverse] at hreused
  exact hrun hreused

/-- A plan does nothing exactly if it removes and moves nothing and reuses every instance in its
place. -/
theorem Plan.isNoop_iff {p : Plan} :
    p.isNoop = true ↔
      p.removed = [] ∧ p.moved = [] ∧ ∀ (i : Nat) r, p.reuse[i]? = some r → r = some i := by
  simp only [isNoop, Bool.and_eq_true, List.isEmpty_iff, List.all_eq_true, and_assoc, beq_iff_eq]
  refine and_congr_right fun _ => and_congr_right fun _ => ?_
  constructor
  · intro h i r hr
    exact h (r, i) (List.mk_mem_zipIdx_iff_getElem?.2 hr)
  · rintro h ⟨r, i⟩ hmem
    exact h i r (List.mk_mem_zipIdx_iff_getElem?.1 hmem)

/-- A plan changes nothing exactly if the lists are equal. -/
theorem isNoop_planOf_iff (h : prev.Nodup) : (planOf prev next).isNoop = true ↔ prev = next := by
  rw [Plan.isNoop_iff]
  constructor
  · rintro ⟨hremoved, -, hreuse⟩
    -- Every key of the next list stands in the previous one at the same position, and none is left
    -- over.
    have hnext : ∀ {i : Nat} {k}, next[i]? = some k → prev[i]? = some k := by
      intro i k hk
      have hi : (planOf prev next).reuse[i]? = some (position? k prev) := by
        rw [getElem?_reuse, hk]
        rfl
      exact getElem?_of_position? (hreuse i _ hi)
    refine List.ext_getElem? fun j => ?_
    cases hj : next[j]? with
    | some k => exact hnext hj
    | none =>
      refine List.getElem?_eq_none (Nat.not_lt.1 fun hlt => ?_)
      have hkept : j ∉ (planOf prev next).removed := hremoved ▸ List.not_mem_nil
      rw [mem_removed_iff, not_and_not_right] at hkept
      obtain ⟨i, hi⟩ := List.mem_iff_getElem?.1 (hkept hlt)
      obtain rfl := Option.some.inj (hreuse i _ hi)
      obtain ⟨k, hk, -⟩ := (reuse_eq_some_iff h).1 hi
      exact absurd (hj.symm.trans hk) nofun
  · rintro rfl
    have hreuse : ∀ (i : Nat) r, (planOf prev prev).reuse[i]? = some r → r = some i := by
      intro i r hr
      rw [getElem?_reuse] at hr
      obtain ⟨k, hk, rfl⟩ := Option.map_eq_some_iff.1 hr
      exact (position?_eq_some_iff h).2 hk
    refine ⟨List.eq_nil_iff_forall_not_mem.2 fun j hj => ?_, moves_eq_nil ?_, hreuse⟩
    · obtain ⟨hlt, hnone⟩ := mem_removed_iff.1 hj
      refine hnone (List.mem_iff_getElem?.2 ⟨j, ?_⟩)
      exact (reuse_eq_some_iff h).2 ⟨_, List.getElem?_eq_getElem hlt, List.getElem?_eq_getElem hlt⟩
    · refine (pairwise_reusedPositions _).imp_of_mem fun {a b} ha hb hlt => ?_
      have hsame : ∀ r ∈ reusedPositions (planOf prev prev).reuse, r.previous = r.next :=
        fun r hr =>
        Option.some.inj (hreuse _ _ (mem_reusedPositions.1 hr))
      rw [hsame a ha, hsame b hb]
      exact hlt

end PlanOf

/-! ### What a plan does -/

/-- The plan turns one key list into the other. -/
structure Plan.Turns (p : Plan) (prev next : List κ) : Prop where
  length_reuse : p.reuse.length = next.length
  /-- A next position reuses the previous one that has its key. -/
  reuse_iff : ∀ i j : Nat, p.reuse[i]? = some (some j) ↔ ∃ k, next[i]? = some k ∧ prev[j]? = some k
  /-- An instance is created for a key that is new. -/
  created_iff : ∀ i : Nat, p.reuse[i]? = some none ↔ ∃ k, next[i]? = some k ∧ k ∉ prev
  removed_ascending : p.removed.Pairwise (· < ·)
  removed_iff : ∀ j, j ∈ p.removed ↔ j < prev.length ∧ some j ∉ p.reuse
  moved_ascending : p.moved.Pairwise (· < ·)
  moved_reused : ∀ i ∈ p.moved, ∃ j : Nat, p.reuse[i]? = some (some j)
  staying_ascending : p.staying.Pairwise (· < ·)
  rearrange_eq : p.rearrange prev next = next
  isNoop_iff : p.isNoop = true ↔ prev = next

/-- Two lists have a plan exactly if neither repeats a key, and else the first repetition is named,
that in the previous list before that in the next one. The plan turns the previous list into the
next one. -/
theorem diff_turns (prev next : List κ) :
    ((∃ p, diff prev next = .ok p) ↔ prev.Nodup ∧ next.Nodup) ∧
    (∀ d, diff prev next = .error d ↔ d.IsFirstIn prev ∨ prev.Nodup ∧ d.IsFirstIn next) ∧
    ∀ p, diff prev next = .ok p → p.Turns prev next := by
  refine ⟨exists_diff_eq_ok_iff, fun d => diff_eq_error_iff, fun p hp => ?_⟩
  obtain ⟨hprev, hnext⟩ := exists_diff_eq_ok_iff.1 ⟨p, hp⟩
  obtain rfl := Except.ok.inj ((diff_eq_ok hprev hnext).symm.trans hp)
  exact {
    length_reuse := List.length_map _
    reuse_iff := fun i j => reuse_eq_some_iff hprev
    created_iff := fun i => reuse_eq_none_iff
    removed_ascending := pairwise_removed
    removed_iff := fun j => mem_removed_iff
    moved_ascending := pairwise_moves _
    moved_reused := fun i hi => exists_reuse_of_mem_moves hi
    staying_ascending := pairwise_staying
    rearrange_eq := rearrange_planOf hprev
    isNoop_iff := isNoop_planOf_iff hprev }

/-- Of four instances one is removed and one moves, around a new one. A list that repeats a key has
no plan. -/
theorem diff_turns_keys :
    (∃ p, diff [1, 2, 3, 4] [3, 1, 5, 2] = .ok p ∧ p = ⟨[some 2, some 0, none, some 1], [3], [0]⟩ ∧
      p.kept [1, 2, 3, 4] = [1, 2] ∧ p.rearrange [1, 2, 3, 4] [3, 1, 5, 2] = [3, 1, 5, 2]) ∧
    (⟨7, 1, 2⟩ : DuplicateKey Nat).IsFirstIn [6, 7, 7, 6] := by
  obtain ⟨hplan, -, hturns⟩ := diff_turns [1, 2, 3, 4] [3, 1, 5, 2]
  obtain ⟨-, herror, -⟩ := diff_turns [6, 7, 7, 6] []
  obtain ⟨p, hp⟩ := hplan.2 ⟨by decide, by decide⟩
  refine ⟨⟨p, hp, ?_, ?_, (hturns p hp).rearrange_eq⟩, ?_⟩
  · obtain rfl := Except.ok.inj hp
    rfl
  · obtain rfl := Except.ok.inj hp
    rfl
  · exact ((herror ⟨7, 1, 2⟩).1 rfl).resolve_right fun h => absurd h.1 (by decide)

end ViewCompiler.Reconcile
