import Mathlib.Data.Finset.Card
import ViewCompiler.Proofs.Reconcile.Identity

/-!
# As few moves as possible

A plan leaves reused instances in place as long as they stand in the order in which they stood
before. `longestRun` finds the most of them by patience sorting: for every length it keeps one run
whose end is as small as possible (`Ladder`), and the next instance goes on top of the longest run
that it can extend (`Ladder.extendRuns`). No other choice of instances in order is longer
(`Ladder.length_le`), so no plan gets by with fewer moves (`moved_minimal`).

A ladder is about the instances that were looked at so far. Its rungs are runs, of length one, two
and so on; each of them is made of these instances in their order, their ends ascend, and no run of
the same length ends further down. An instance is put on the rung above the last one whose end is
below it (`IsPlace`). That one rung changes, the ends still ascend, and whatever run ends with the
new instance is no longer than the new rung.

The longest run is the top rung, so a run of any other choice has a rung of its length in the
ladder, and is no longer than the top one. The positions that are moved are those that are reused
and not in the longest run. They are counted as a set, and any set of instances that are left in
place in order is a run.
-/

namespace ViewCompiler.Reconcile

/-! ### Runs -/

/-- Instances whose previous positions increase. -/
def InOrder (rs : List Reused) : Prop := rs.Pairwise fun a b => a.previous < b.previous

/-- What is greater than the last of some instances in order follows them. -/
theorem InOrder.concat {rs : List Reused} {x y : Reused} (h : InOrder (rs ++ [x]))
    (hlt : x.previous < y.previous) : InOrder (rs ++ [x] ++ [y]) := by
  refine List.pairwise_append.2 ⟨h, List.pairwise_singleton _ _, fun a ha b hb => ?_⟩
  obtain rfl := List.mem_singleton.1 hb
  rcases List.mem_append.1 ha with ha | ha
  · exact Nat.lt_trans ((List.pairwise_append.1 h).2.2 a ha x List.mem_cons_self) hlt
  · obtain rfl := List.mem_singleton.1 ha
    exact hlt

/-- The previous position on top of the run with the number `k`, if there is one. -/
def topAt (runs : List (List Reused)) (k : Nat) : Option Nat :=
  (runs[k]?.bind List.head?).map (·.previous)

/-- The run with the number `k` is the first one whose top is not smaller than the instance, which
goes on top of the run before it. -/
structure IsPlace (r : Reused) (below : List Reused) (runs : List (List Reused))
    (k : Nat) : Prop where
  le_length : k ≤ runs.length
  lower : ∀ i < k, ∃ t, topAt runs i = some t ∧ t < r.previous
  upper : ∀ t, topAt runs k = some t → r.previous ≤ t
  here : (extendRuns r below runs)[k]? = (below :: runs)[k]?.map (r :: ·)
  elsewhere : ∀ i ≠ k, (extendRuns r below runs)[i]? = runs[i]?

/-- Every instance has its place on runs that are not empty. -/
private theorem exists_isPlace (r : Reused) (below : List Reused) {runs : List (List Reused)}
    (hruns : ∀ run ∈ runs, run ≠ []) : ∃ k, IsPlace r below runs k := by
  induction runs generalizing below with
  | nil =>
    refine ⟨0, Nat.le_refl 0, nofun, nofun, rfl, fun i hi => ?_⟩
    obtain ⟨i, rfl⟩ := Nat.exists_eq_succ_of_ne_zero hi
    rfl
  | cons run runs ih =>
    obtain ⟨hrun, hlater⟩ := List.forall_mem_cons.1 hruns
    obtain ⟨top, rest, rfl⟩ := List.exists_cons_of_ne_nil hrun
    -- The first run whose top is not smaller is where the instance goes.
    by_cases hle : r.previous ≤ top.previous
    · have hextend : extendRuns r below ((top :: rest) :: runs) = (r :: below) :: runs :=
        if_pos (by simpa using hle)
      refine ⟨0, Nat.zero_le _, nofun, fun t ht => ?_, by rw [hextend]; rfl, fun i hi => ?_⟩
      · exact Option.some.inj ht ▸ hle
      · obtain ⟨i, rfl⟩ := Nat.exists_eq_succ_of_ne_zero hi
        rw [hextend]
        rfl
    · have hextend : extendRuns r below ((top :: rest) :: runs) =
          (top :: rest) :: extendRuns r (top :: rest) runs := if_neg (by simpa using hle)
      obtain ⟨k, hplace⟩ := ih (top :: rest) hlater
      refine ⟨k + 1, Nat.succ_le_succ hplace.le_length, fun i hi => ?_, hplace.upper, ?_,
        fun i hi => ?_⟩
      · cases i with
        | zero => exact ⟨top.previous, rfl, Nat.lt_of_not_le hle⟩
        | succ i => exact hplace.lower i (Nat.lt_of_succ_lt_succ hi)
      · rw [hextend]
        exact hplace.here
      · rw [hextend]
        cases i with
        | zero => rfl
        | succ i => exact hplace.elsewhere i fun h => hi (congrArg Nat.succ h)

section IsPlace

variable {r : Reused} {below : List Reused} {runs : List (List Reused)} {k : Nat}
  (h : IsPlace r below runs k)
include h

private theorem IsPlace.topAt_self : topAt (extendRuns r below runs) k = some r.previous := by
  have hlt : k < (below :: runs).length := Nat.lt_succ_of_le h.le_length
  rw [topAt, h.here, List.getElem?_eq_getElem hlt]
  rfl

private theorem IsPlace.topAt_of_ne {i : Nat} (hi : i ≠ k) :
    topAt (extendRuns r below runs) i = topAt runs i := by
  rw [topAt, h.elsewhere i hi, topAt]

/-- No top grows. -/
private theorem IsPlace.exists_topAt_le {i t : Nat} (ht : topAt runs i = some t) :
    ∃ t', topAt (extendRuns r below runs) i = some t' ∧ t' ≤ t := by
  by_cases hik : i = k
  · subst hik
    exact ⟨r.previous, h.topAt_self, h.upper t ht⟩
  · exact ⟨t, (h.topAt_of_ne hik).trans ht, Nat.le_refl t⟩

end IsPlace

/-! ### Patience sorting -/

/-- The runs that patience sorting has built from some instances. -/
structure Ladder (done : List Reused) (runs : List (List Reused)) : Prop where
  /-- The runs are in order, last instance first, each of them longer by one than the run before. -/
  run {k : Nat} {run : List Reused} (h : runs[k]? = some run) :
    run.length = k + 1 ∧ run.reverse.Sublist done ∧ InOrder run.reverse
  ascending {i j a b : Nat} (h : i < j) (hi : topAt runs i = some a) (hj : topAt runs j = some b) :
    a < b
  /-- Instances in order do not end below the run that has as many of them. -/
  smallest {c : List Reused} {x : Reused} (h : (c ++ [x]).Sublist done) (hc : InOrder (c ++ [x])) :
    ∃ t, topAt runs c.length = some t ∧ t ≤ x.previous

namespace Ladder

variable {done : List Reused} {runs : List (List Reused)}

theorem nil : Ladder [] [] where
  run h := nomatch h
  ascending _ hi := nomatch hi
  smallest h := absurd (List.sublist_nil.1 h) (List.append_ne_nil_of_right_ne_nil _ nofun)

section Step

variable (h : Ladder done runs)
include h

theorem ne_nil {run : List Reused} (hrun : run ∈ runs) : run ≠ [] := by
  rintro rfl
  obtain ⟨k, hk⟩ := List.mem_iff_getElem?.1 hrun
  exact absurd (h.run hk).1 nofun

variable {r : Reused} {k : Nat} (hplace : IsPlace r [] runs k)
include hplace

/-- Behind the place of an instance, all tops are greater than the instance. -/
theorem lt_of_topAt {i t : Nat} (hi : k < i) (ht : topAt runs i = some t) : r.previous < t := by
  have hlt : k < runs.length := by
    by_contra hge
    rw [topAt, List.getElem?_eq_none (by omega)] at ht
    cases ht
  have hget : runs[k]? = some runs[k] := List.getElem?_eq_getElem hlt
  obtain ⟨top, rest, htop⟩ := List.exists_cons_of_ne_nil (h.ne_nil (List.getElem_mem hlt))
  have htopAt : topAt runs k = some top.previous := by
    rw [topAt, hget, htop]
    rfl
  exact Nat.lt_of_le_of_lt (hplace.upper _ htopAt) (h.ascending hi htopAt ht)

/-- Every rung holds a run of its length from what was seen. -/
private theorem run_extendRuns {i : Nat} {run : List Reused}
    (hrun : (extendRuns r [] runs)[i]? = some run) :
    run.length = i + 1 ∧ run.reverse.Sublist (done ++ [r]) ∧ InOrder run.reverse := by
  by_cases hik : i = k
  · subst hik
    rw [hplace.here] at hrun
    cases i with
    | zero =>
      obtain rfl := Option.some.inj hrun
      exact ⟨rfl, List.sublist_append_right done [r], List.pairwise_singleton _ _⟩
    | succ i =>
      obtain ⟨prior, hprior, rfl⟩ := Option.map_eq_some_iff.1 hrun
      rw [List.getElem?_cons_succ] at hprior
      obtain ⟨hlength, hsub, horder⟩ := h.run hprior
      refine ⟨congrArg Nat.succ hlength, ?_, ?_⟩
      · rw [List.reverse_cons]
        exact hsub.append_right [r]
      · obtain ⟨top, rest, rfl⟩ := List.exists_cons_of_length_eq_add_one hlength
        obtain ⟨t, ht, hlt⟩ := hplace.lower i (Nat.lt_succ_self i)
        rw [topAt, hprior] at ht
        obtain rfl := Option.some.inj ht
        rw [List.reverse_cons, List.reverse_cons]
        exact InOrder.concat (List.reverse_cons ▸ horder) hlt
  · rw [hplace.elsewhere i hik] at hrun
    obtain ⟨hlength, hsub, horder⟩ := h.run hrun
    exact ⟨hlength, hsub.trans (List.sublist_append_left done [r]), horder⟩

/-- The tops of the rungs ascend. -/
private theorem ascending_extendRuns {i j a b : Nat} (hij : i < j)
    (hi : topAt (extendRuns r [] runs) i = some a) (hj : topAt (extendRuns r [] runs) j = some b) :
    a < b := by
  by_cases hik : i = k
  · subst hik
    rw [hplace.topAt_self] at hi
    rw [hplace.topAt_of_ne hij.ne'] at hj
    exact Option.some.inj hi ▸ h.lt_of_topAt hplace hij hj
  · rw [hplace.topAt_of_ne hik] at hi
    by_cases hjk : j = k
    · subst hjk
      rw [hplace.topAt_self] at hj
      obtain ⟨t, ht, hlt⟩ := hplace.lower i hij
      rw [hi] at ht
      exact Option.some.inj hj ▸ Option.some.inj ht ▸ hlt
    · rw [hplace.topAt_of_ne hjk] at hj
      exact h.ascending hij hi hj

/-- Instances in order that the new one follows are at most as many as those of the run that it goes
on top of. -/
private theorem length_le_of_concat {c : List Reused} (hsub : c.Sublist done)
    (hc : InOrder (c ++ [r])) :
    c.length ≤ k := by
  rcases List.eq_nil_or_concat' c with rfl | ⟨c, y, rfl⟩
  · exact Nat.zero_le k
  · obtain ⟨hbefore, -, hlast⟩ := List.pairwise_append.1 hc
    have hlt : y.previous < r.previous := hlast y (by simp) r List.mem_cons_self
    obtain ⟨t, ht, hle⟩ := h.smallest hsub hbefore
    rw [List.length_append, List.length_singleton]
    by_contra hgt
    rcases Nat.lt_or_eq_of_le (Nat.le_of_lt_succ (Nat.lt_of_not_le hgt)) with hlower | heq
    · have hbehind := h.lt_of_topAt hplace hlower ht
      omega
    · have hupper := hplace.upper t (heq ▸ ht)
      omega

/-- No run of a length ends below the top of its rung. -/
private theorem smallest_extendRuns {c : List Reused} {x : Reused}
    (hsub : (c ++ [x]).Sublist (done ++ [r])) (hc : InOrder (c ++ [x])) :
    ∃ t, topAt (extendRuns r [] runs) c.length = some t ∧ t ≤ x.previous := by
  obtain ⟨front, back, heq, hfront, hback⟩ := List.sublist_append_iff.1 hsub
  rcases List.sublist_singleton.1 hback with rfl | rfl
  · -- The instances were there before.
    rw [List.append_nil] at heq
    obtain ⟨t, ht, hle⟩ := h.smallest (heq ▸ hfront) hc
    obtain ⟨t', ht', hle'⟩ := hplace.exists_topAt_le ht
    exact ⟨t', ht', Nat.le_trans hle' hle⟩
  · -- They end with the new one.
    obtain ⟨rfl, hx⟩ := List.append_inj' heq rfl
    obtain ⟨rfl, -⟩ := List.cons.inj hx
    rcases Nat.lt_or_eq_of_le (h.length_le_of_concat hplace hfront hc) with hlt | heq
    · obtain ⟨t, ht, hle⟩ := hplace.lower _ hlt
      exact ⟨t, (hplace.topAt_of_ne hlt.ne).trans ht, hle.le⟩
    · exact ⟨x.previous, heq ▸ hplace.topAt_self, Nat.le_refl _⟩

end Step

theorem extendRuns (h : Ladder done runs) (r : Reused) :
    Ladder (done ++ [r]) (Reconcile.extendRuns r [] runs) := by
  obtain ⟨k, hplace⟩ := exists_isPlace r [] fun run hrun => h.ne_nil hrun
  exact ⟨h.run_extendRuns hplace, h.ascending_extendRuns hplace, h.smallest_extendRuns hplace⟩

/-- The runs that are built from all instances. -/
theorem foldl (rs : List Reused) :
    Ladder rs (rs.foldl (fun runs r => Reconcile.extendRuns r [] runs) []) := by
  induction rs using List.reverseRecOn with
  | nil => exact nil
  | append_singleton rs r ih =>
    rw [List.foldl_concat]
    exact ih.extendRuns r

/-- No instances in order are more than there are runs. -/
theorem length_le (h : Ladder done runs) {c : List Reused} (hsub : c.Sublist done)
    (hc : InOrder c) :
    c.length ≤ runs.length := by
  rcases List.eq_nil_or_concat' c with rfl | ⟨c, x, rfl⟩
  · exact Nat.zero_le _
  · obtain ⟨t, ht, -⟩ := h.smallest hsub hc
    rw [List.length_append, List.length_singleton]
    by_contra hge
    rw [topAt, List.getElem?_eq_none (by omega)] at ht
    cases ht

/-- The last run is the longest there is. -/
private theorem getLast?_getD (h : Ladder done runs) :
    (runs.getLast?.getD []).length = runs.length ∧ (runs.getLast?.getD []).reverse.Sublist done ∧
      InOrder (runs.getLast?.getD []).reverse := by
  rw [List.getLast?_eq_getElem?]
  cases hlast : runs[runs.length - 1]? with
  | none =>
    have hempty := List.getElem?_eq_none_iff.1 hlast
    obtain rfl : runs = [] := List.length_eq_zero_iff.1 (by omega)
    exact ⟨rfl, List.nil_sublist done, List.Pairwise.nil⟩
  | some run =>
    obtain ⟨hlength, hrest⟩ := h.run hlast
    have hlt := (List.getElem?_eq_some_iff.1 hlast).1
    exact ⟨by rw [Option.getD_some]; omega, hrest⟩

end Ladder

/-- `longestRun` finds instances in order, and no others are more. -/
theorem longestRun_isLongest (rs : List Reused) :
    (longestRun rs).reverse.Sublist rs ∧ InOrder (longestRun rs).reverse ∧
      ∀ c : List Reused, c.Sublist rs → InOrder c → c.length ≤ (longestRun rs).length := by
  have hladder := Ladder.foldl rs
  obtain ⟨hlength, hsub, horder⟩ := hladder.getLast?_getD
  refine ⟨hsub, horder, fun c hc hcorder => ?_⟩
  rw [longestRun, hlength]
  exact hladder.length_le hc hcorder

/-! ### Plans -/

/-- The reused positions are those that reuse an instance. -/
theorem mem_reusedPositions {reuse : List (Option Nat)} {r : Reused} :
    r ∈ reusedPositions reuse ↔ reuse[r.next]? = some (some r.previous) := by
  rw [reusedPositions, List.mem_filterMap]
  constructor
  · rintro ⟨⟨o, i⟩, hmem, ho⟩
    obtain ⟨j, rfl, rfl⟩ := Option.map_eq_some_iff.1 ho
    exact List.mk_mem_zipIdx_iff_getElem?.1 hmem
  · intro h
    exact ⟨(some r.previous, r.next), List.mk_mem_zipIdx_iff_getElem?.2 h, rfl⟩

/-- Reused instances are listed by their next positions. -/
theorem pairwise_reusedPositions (reuse : List (Option Nat)) :
    (reusedPositions reuse).Pairwise fun a b => a.next < b.next := by
  have hindexes : reuse.zipIdx.Pairwise fun a b => a.2 < b.2 := by
    rw [← List.pairwise_map (f := Prod.snd) (R := (· < ·)), List.zipIdx_map_snd]
    exact List.pairwise_lt_range'
  rw [reusedPositions, List.pairwise_filterMap]
  refine hindexes.imp fun {a b} hlt x hx y hy => ?_
  obtain ⟨_, -, rfl⟩ := Option.map_eq_some_iff.1 hx
  obtain ⟨_, -, rfl⟩ := Option.map_eq_some_iff.1 hy
  exact hlt

theorem nodup_next {rs : List Reused} {reuse : List (Option Nat)}
    (h : rs.Sublist (reusedPositions reuse)) : (rs.map (·.next)).Nodup := by
  have hlt := (pairwise_reusedPositions reuse).sublist h
  exact List.pairwise_map.2 (hlt.imp Nat.ne_of_lt)

/-- What is moved are the reused positions outside of the longest run. -/
theorem mem_moves_iff {reuse : List (Option Nat)} {i : Nat} :
    i ∈ moves reuse ↔ i ∈ (reusedPositions reuse).map (·.next) ∧
      i ∉ (longestRun (reusedPositions reuse)).map (·.next) := by
  rw [moves, List.mem_filter, Bool.not_eq_true', List.contains_eq_mem, decide_eq_false_iff_not]

namespace Plan

/-- The next positions whose instance is reused. -/
def reused (p : Plan) : Finset Nat :=
  (Finset.range p.reuse.length).filter fun i => p.reuse[i]?.join.isSome

/-- Next positions with reused instances that stand in the order in which they stood before. -/
structure IsRun (p : Plan) (s : Finset Nat) : Prop where
  subset : s ⊆ p.reused
  increasing : ∀ i ∈ s, ∀ i' ∈ s, i < i' → ∀ j j', p.reuse[i]? = some (some j) →
    p.reuse[i']? = some (some j') → j < j'

variable {p : Plan}

theorem mem_reused_iff {i : Nat} : i ∈ p.reused ↔ ∃ j, p.reuse[i]? = some (some j) := by
  rw [reused, Finset.mem_filter, Finset.mem_range]
  constructor
  · rintro ⟨-, h⟩
    obtain ⟨j, hj⟩ := Option.isSome_iff_exists.1 h
    exact ⟨j, Option.join_eq_some_iff.1 hj⟩
  · rintro ⟨j, hj⟩
    exact ⟨(List.getElem?_eq_some_iff.1 hj).1, by rw [hj]; rfl⟩

private theorem mem_map_next_iff {i : Nat} :
    i ∈ (reusedPositions p.reuse).map (·.next) ↔ i ∈ p.reused := by
  rw [mem_reused_iff, List.mem_map]
  constructor
  · rintro ⟨r, hr, rfl⟩
    exact ⟨r.previous, mem_reusedPositions.1 hr⟩
  · rintro ⟨j, hj⟩
    exact ⟨⟨i, j⟩, mem_reusedPositions.2 hj, rfl⟩

/-- A run of a plan is a choice of reused instances in order. -/
private theorem IsRun.exists_sublist {s : Finset Nat} (h : p.IsRun s) :
    ∃ c : List Reused, c.Sublist (reusedPositions p.reuse) ∧ InOrder c ∧ c.length = s.card := by
  have hsub : ((reusedPositions p.reuse).filter (·.next ∈ s)).Sublist (reusedPositions p.reuse) :=
    List.filter_sublist
  refine ⟨_, hsub, ?_, ?_⟩
  · have hlt := (pairwise_reusedPositions p.reuse).sublist hsub
    refine hlt.imp_of_mem fun {a b} ha hb hab => ?_
    obtain ⟨ha, has⟩ := List.mem_filter.1 ha
    obtain ⟨hb, hbs⟩ := List.mem_filter.1 hb
    exact h.increasing _ (of_decide_eq_true has) _ (of_decide_eq_true hbs) hab _ _
      (mem_reusedPositions.1 ha) (mem_reusedPositions.1 hb)
  · have hset : (((reusedPositions p.reuse).filter (·.next ∈ s)).map (·.next)).toFinset = s := by
      ext i
      rw [List.mem_toFinset, List.mem_map]
      constructor
      · rintro ⟨r, hr, rfl⟩
        exact of_decide_eq_true (List.mem_filter.1 hr).2
      · intro hi
        obtain ⟨j, hj⟩ := mem_reused_iff.1 (h.subset hi)
        exact ⟨⟨i, j⟩, List.mem_filter.2 ⟨mem_reusedPositions.2 hj, decide_eq_true hi⟩, rfl⟩
    rw [← List.length_map (·.next), ← List.toFinset_card_of_nodup (nodup_next hsub), hset]

/-- Reused instances in order are a run of the plan. -/
theorem isRun_of_sublist {c : List Reused} (hsub : c.Sublist (reusedPositions p.reuse))
    (hc : InOrder c) : p.IsRun (c.map (·.next)).toFinset := by
  have hmem : ∀ i ∈ (c.map (·.next)).toFinset, ∃ r ∈ c, r.next = i := fun i hi =>
    List.mem_map.1 (List.mem_toFinset.1 hi)
  refine ⟨fun i hi => ?_, fun i hi i' hi' hlt j j' hj hj' => ?_⟩
  · obtain ⟨r, hr, rfl⟩ := hmem i hi
    exact mem_map_next_iff.1 (List.mem_map_of_mem (hsub.subset hr))
  · obtain ⟨r, hr, rfl⟩ := hmem i hi
    obtain ⟨r', hr', rfl⟩ := hmem i' hi'
    rw [mem_reusedPositions.1 (hsub.subset hr), Option.some.injEq, Option.some.injEq] at hj
    rw [mem_reusedPositions.1 (hsub.subset hr'), Option.some.injEq, Option.some.injEq] at hj'
    -- The instances are listed by their next positions, so the earlier one comes first.
    have hnext := (pairwise_reusedPositions p.reuse).sublist hsub
    have hforth : c.Pairwise fun a b => a.next < b.next → a.previous < b.previous := by
      refine List.Pairwise.imp ?_ hc
      intro a b hab _
      exact hab
    have hback : c.Pairwise fun a b => b.next < a.next → b.previous < a.previous :=
      hnext.imp fun h hlt => absurd hlt (Nat.lt_asymm h)
    have hself : ∀ a ∈ c, a.next < a.next → a.previous < a.previous :=
      fun a _ hlt => absurd hlt (Nat.lt_irrefl _)
    exact hj ▸ hj' ▸ List.Pairwise.forall_of_forall_of_flip hself hforth hback hr hr' hlt

end Plan

/-- What a plan moves is what it reuses without the longest run. -/
theorem toFinset_moved {p : Plan} (h : p.moved = moves p.reuse) :
    p.reused \ p.moved.toFinset =
      ((longestRun (reusedPositions p.reuse)).reverse.map (·.next)).toFinset := by
  obtain ⟨hsub, -, -⟩ := longestRun_isLongest (reusedPositions p.reuse)
  ext i
  rw [Finset.mem_sdiff, List.mem_toFinset, List.mem_toFinset, h, mem_moves_iff,
    ← Plan.mem_map_next_iff, List.map_reverse, List.mem_reverse, not_and_not_right]
  constructor
  · rintro ⟨hreused, hstable⟩
    exact hstable hreused
  · intro hstable
    obtain ⟨r, hr, rfl⟩ := List.mem_map.1 hstable
    exact ⟨List.mem_map_of_mem (hsub.subset (List.mem_reverse.2 hr)), fun _ => hstable⟩

/-- The plan for two lists without repeated keys moves as few instances as possible: no instances
that stand in the same order in both lists are more than those that are left in place. -/
theorem moved_minimal {κ : Type} [DecidableEq κ] {prev next : List κ} (hprev : prev.Nodup)
    (hnext : next.Nodup) :
    ∃ p, diff prev next = .ok p ∧
      (∀ s, p.IsRun s → s.card ≤ p.reused.card - p.moved.length) ∧
      p.moved.Nodup ∧ p.moved.toFinset ⊆ p.reused ∧ p.IsRun (p.reused \ p.moved.toFinset) := by
  refine ⟨_, diff_eq_ok hprev hnext, ?_⟩
  have hmoved : (planOf prev next).moved = moves (planOf prev next).reuse := rfl
  generalize planOf prev next = p at hmoved
  obtain ⟨hsub, horder, hlongest⟩ := longestRun_isLongest (reusedPositions p.reuse)
  have hkept := toFinset_moved hmoved
  have hnodup : p.moved.Nodup := by
    rw [hmoved]
    exact (nodup_next (List.Sublist.refl _)).filter _
  have hsubset : p.moved.toFinset ⊆ p.reused := by
    intro i hi
    rw [List.mem_toFinset, hmoved, mem_moves_iff] at hi
    exact Plan.mem_map_next_iff.1 hi.1
  refine ⟨fun s hs => ?_, hnodup, hsubset, hkept ▸ Plan.isRun_of_sublist hsub horder⟩
  obtain ⟨c, hc, hcorder, hlength⟩ := hs.exists_sublist
  calc s.card = c.length := hlength.symm
    _ ≤ (longestRun (reusedPositions p.reuse)).length := hlongest c hc hcorder
    _ = (p.reused \ p.moved.toFinset).card := by
      rw [hkept, List.toFinset_card_of_nodup (nodup_next hsub), List.length_map,
        List.length_reverse]
    _ = p.reused.card - p.moved.length := by
      rw [Finset.card_sdiff_of_subset hsubset, List.toFinset_card_of_nodup hnodup]

/-- Of three instances that are reused, one has to move. -/
theorem moved_minimal_keys :
    [1, 2, 3, 4].Nodup ∧ [3, 1, 5, 2].Nodup ∧
    ∃ p, diff [1, 2, 3, 4] [3, 1, 5, 2] = .ok p ∧ p.reuse = [some 2, some 0, none, some 1] ∧
      p.moved = [0] ∧ ∀ s, p.IsRun s → s.card ≤ 2 := by
  obtain ⟨p, hp, hminimal, -⟩ :=
    @moved_minimal Nat _ [1, 2, 3, 4] [3, 1, 5, 2] (by decide) (by decide)
  obtain rfl := Except.ok.inj hp
  exact ⟨by decide, by decide, _, hp, rfl, rfl, hminimal⟩

end ViewCompiler.Reconcile
