import Mathlib
import ViewCompiler.Proofs.Graph
import ViewCompiler.Proofs.Text.Order

/-!
# The cycles of a graph

The search for cycles enters every name once and looks at every edge once. What it reports are
cycles, it reports one wherever a name reaches itself, and it reports none twice, not even started
elsewhere (`Graph.findsCycles`).

That no cycle comes twice has two reasons. The names of a cycle are reported in the order in which
the search entered them, so that of all rotations of a cycle only one can be reported. And a cycle
is reported for its last edge, which is looked at only once as long as no successor is listed twice.

A search is a recursion over a path of visits, each with the successors that it has still to look
at, and the names that were seen. `IsSearch` is what holds of these whenever the search comes by:
the path leads from the start along edges, its names are among the seen ones, and they were entered
in this order. It is kept by the three things that a search does next: to turn back from a visit, to
skip a successor that was seen, and to enter one that was not (`tail`, `skip`, `push`). Every other
fact about the search is an induction with these three cases.

An edge is pending (`Pending`) if the search will still look at it. A cycle that is reported ends
with a pending edge, and afterwards the edge is pending no more; so two reported cycles end apart
(`EndApart`), across all searches from all starts.
-/

namespace ViewCompiler.Graph

open Relation ViewCompiler.Text

variable {g : Graph} {start : String} {path : List Visit} {seen c : List String}

/-- Names along edges that end where they start and pass no name twice otherwise. -/
structure IsCycle (g : Graph) (c : List String) : Prop where
  two_le_length : 2 ≤ c.length
  head?_eq_getLast? : c.head? = c.getLast?
  nodup_dropLast : c.dropLast.Nodup
  isChain : c.IsChain g.Edge

namespace IsCycle

variable {c' : List String}

/-- A cycle ends where it starts. -/
theorem exists_eq (h : g.IsCycle c) : ∃ n rest, c = n :: (rest ++ [n]) := by
  cases c with
  | nil => exact absurd h.two_le_length (by simp)
  | cons n tail =>
    obtain rfl | ⟨rest, m, rfl⟩ := List.eq_nil_or_concat' tail
    · exact absurd h.two_le_length (by simp)
    · have hends := h.head?_eq_getLast?
      rw [← List.cons_append, List.getLast?_concat] at hends
      obtain rfl : n = m := Option.some.inj hends
      exact ⟨n, rest, rfl⟩

/-- A cycle is known by its names without the repetition at its end. -/
private theorem eq_of_dropLast_eq (h : g.IsCycle c) (h' : g.IsCycle c')
    (heq : c.dropLast = c'.dropLast) :
    c = c' := by
  obtain ⟨n, rest, rfl⟩ := h.exists_eq
  obtain ⟨m, rest', rfl⟩ := h'.exists_eq
  rw [← List.cons_append, ← List.cons_append, List.dropLast_concat, List.dropLast_concat] at heq
  obtain ⟨rfl, rfl⟩ := List.cons.inj heq
  rfl

/-- A cycle has a last edge. -/
private theorem exists_suffix (h : g.IsCycle c) : ∃ n d, [n, d] <:+ c := by
  obtain ⟨d, rest, rfl⟩ := h.exists_eq
  obtain ⟨before, n, hbefore⟩ := (List.eq_nil_or_concat' (d :: rest)).resolve_left nofun
  refine ⟨n, d, before, ?_⟩
  rw [← List.cons_append, hbefore, List.append_assoc]
  rfl

/-- The name at which a cycle starts reaches itself. -/
private theorem exists_reaches_self (h : g.IsCycle c) : ∃ n ∈ c, g.Reaches n n := by
  obtain ⟨n, rest, rfl⟩ := h.exists_eq
  exact ⟨n, List.mem_cons_self, reaches_of_isChain h.isChain (by simp)⟩

end IsCycle

/-! ### Closing a cycle -/

/-- A cycle is closed by the names of a path up to the one that comes again. -/
theorem exists_closeCycle {n : String} (h : n ∈ path.map (·.name)) :
    ∃ names, names <+: path.map (·.name) ∧ names ≠ [] ∧ names.getLast? = some n ∧
      closeCycle path n = (n :: names).reverse := by
  refine ⟨(path.map (·.name)).takeWhile (· ≠ n) ++ [n], ?_, by simp, by simp, ?_⟩
  · generalize path.map (·.name) = names at h ⊢
    induction names with
    | nil => cases h
    | cons a names ih =>
      by_cases ha : a = n
      · subst ha
        simp
      · have hmem := (List.mem_cons.1 h).resolve_left (Ne.symm ha)
        simpa [ha] using ih hmem
  · rw [closeCycle, List.reverse_cons]

/-- The last edge of a cycle leads from the innermost name of the path to the one that comes
again. -/
private theorem suffix_closeCycle (v : Visit) (outer : List Visit) (d : String) :
    [v.name, d] <:+ closeCycle (v :: outer) d := by
  by_cases hd : v.name = d
  · refine ⟨[], ?_⟩
    simp [closeCycle, hd]
  · refine ⟨(((outer.map (·.name)).takeWhile (· ≠ d)) ++ [d]).reverse, ?_⟩
    simp [closeCycle, hd]

/-- The last edge of a cycle that is closed leads from the top of the path. -/
theorem eq_of_suffix_closeCycle {v : Visit} {outer : List Visit} {d n x : String}
    (h : [n, x] <:+ closeCycle (v :: outer) d) : n = v.name ∧ x = d := by
  have hsuffix := List.suffix_of_suffix_length_le h (suffix_closeCycle v outer d) (Nat.le_refl 2)
  have heq := hsuffix.eq_of_length rfl
  simpa using heq

/-! ### A search -/

/-- A depth-first search on its way: its path runs along edges, and the names of the path have been
entered one after the other, as all names in `seen`. -/
structure IsSearch (g : Graph) (start : String) (path : List Visit)
    (seen : List String) : Prop where
  isPath : g.IsPath start path
  sublist : (path.map (·.name)).Sublist seen
  nodup : seen.Nodup

namespace IsSearch

variable {v : Visit} {n d : String} {ds : List String}

/-- What holds of a search holds when it turns back. -/
theorem tail (h : g.IsSearch start (v :: path) seen) : g.IsSearch start path seen :=
  ⟨h.isPath.tail, (List.sublist_cons_self _ _).trans h.sublist, h.nodup⟩

/-- What holds of a search holds when an edge is skipped. -/
theorem skip (h : g.IsSearch start (⟨n, d :: ds⟩ :: path) seen) :
    g.IsSearch start (⟨n, ds⟩ :: path) seen :=
  ⟨h.isPath.skip, h.sublist, h.nodup⟩

/-- What holds of a search holds when a new name is entered. -/
theorem push (h : g.IsSearch start (⟨n, d :: ds⟩ :: path) seen) (hd : d ∉ seen) :
    g.IsSearch start (⟨d, g.next d⟩ :: ⟨n, ds⟩ :: path) (d :: seen) :=
  ⟨h.isPath.push, h.sublist.cons_cons d, List.nodup_cons.2 ⟨hd, h.nodup⟩⟩

/-- A search that starts with a name not yet entered. -/
theorem single (hseen : seen.Nodup) (hstart : start ∉ seen) :
    g.IsSearch start [⟨start, g.next start⟩] (start :: seen) where
  isPath := ⟨.singleton _, by simp [Edge], by simp⟩
  sublist := (List.nil_sublist seen).cons_cons start
  nodup := List.nodup_cons.2 ⟨hstart, hseen⟩

/-- A successor of the innermost name that is on the path closes a cycle. -/
private theorem isCycle_closeCycle (h : g.IsSearch start (v :: path) seen) (hedge : g.Edge v.name d)
    (hd : d ∈ (v :: path).map (·.name)) : g.IsCycle (closeCycle (v :: path) d) := by
  obtain ⟨names, hpart, hne, hlast, hclose⟩ := exists_closeCycle hd
  have hnames : names.Nodup := (hpart.sublist.trans h.sublist).nodup h.nodup
  rw [hclose]
  refine ⟨?_, ?_, ?_, ?_⟩
  · cases names with
    | nil => exact absurd rfl hne
    | cons a rest => simp
  · rw [List.head?_reverse, List.getLast?_reverse, List.getLast?_cons, hlast]
    rfl
  · rw [List.reverse_cons, List.dropLast_concat]
    exact List.nodup_reverse.2 hnames
  · -- Read backwards, the cycle is the edge that closes it and then a part of the path.
    rw [List.isChain_reverse]
    have hchain : ((v :: path).map (·.name)).IsChain (flip g.Edge) :=
      List.isChain_map_of_isChain Visit.name (fun _ _ huw => huw) h.isPath.chain
    cases names with
    | nil => exact absurd rfl hne
    | cons a rest =>
      obtain rfl : a = v.name := (List.cons_prefix_cons.1 hpart).1
      obtain ⟨behind, hpath⟩ := hpart
      rw [← hpath] at hchain
      exact List.isChain_cons_cons.2 ⟨hedge, hchain.left_of_append⟩

end IsSearch

/-- A list that a search from `start` may report, `entered` being the names that it has entered, the
last one first. -/
structure IsFound (g : Graph) (start : String) (entered c : List String) : Prop where
  isCycle : g.IsCycle c
  sublist : c.dropLast.reverse.Sublist entered
  reached : ∀ n ∈ c, n = start ∨ g.Reaches start n

/-- An edge to a name on the path closes a cycle of the graph. -/
private theorem IsSearch.isFound_closeCycle {v : Visit} {d : String} {entered : List String}
    (h : g.IsSearch start (v :: path) seen) (hedge : g.Edge v.name d)
    (hd : d ∈ (v :: path).map (·.name)) (hsuffix : seen <:+ entered) :
    g.IsFound start entered (closeCycle (v :: path) d) := by
  refine ⟨h.isCycle_closeCycle hedge hd, ?_, ?_⟩
  · obtain ⟨names, hpart, -, -, hclose⟩ := exists_closeCycle hd
    rw [hclose, List.reverse_cons, List.dropLast_concat, List.reverse_reverse]
    exact (hpart.sublist.trans h.sublist).trans hsuffix.sublist
  · obtain ⟨names, hpart, -, -, hclose⟩ := exists_closeCycle hd
    have hnames : ∀ n ∈ (v :: path).map (·.name), n = start ∨ g.Reaches start n := by
      intro n hn
      obtain ⟨u, hu, rfl⟩ := List.mem_map.1 hn
      exact h.isPath.reached u hu
    intro n hn
    rw [hclose, List.mem_reverse] at hn
    rcases List.mem_cons.1 hn with rfl | hn
    · exact hnames n hd
    · exact hnames n (hpart.subset hn)

/-- What a search reports are cycles, their names in the order in which it has entered them. -/
theorem IsSearch.isFound (h : g.IsSearch start path seen) :
    ∀ c ∈ (g.searchCycles path seen).1, g.IsFound start (g.searchCycles path seen).2 c := by
  -- Here and below: the path is empty, its innermost name is left, or its next successor is on the
  -- path, has been entered before, or is new.
  fun_induction searchCycles g path seen with
  | case1 => simp
  | case2 seen n outer ih => exact ih h.tail
  | case3 seen n d ds outer cycles seen' hsearch hany ih =>
    have hsuffix := suffix_searchCycles g (⟨n, ds⟩ :: outer) seen
    rw [hsearch] at ih hsuffix
    rw [if_pos hany, hsearch]
    obtain ⟨u, hu, hname⟩ := List.any_eq_true.1 hany
    obtain rfl : u.name = d := of_decide_eq_true hname
    have hedge : g.Edge n u.name := h.isPath.remaining _ List.mem_cons_self _ List.mem_cons_self
    exact List.forall_mem_cons.2
      ⟨h.isFound_closeCycle hedge (List.mem_map_of_mem hu) hsuffix, ih h.skip⟩
  | case4 seen n d ds outer hd hany ih =>
    rw [if_neg hany, if_pos hd]
    exact ih h.skip
  | case5 seen n d ds outer hd hany ih =>
    rw [if_neg hany, if_neg hd]
    exact ih (h.push hd)

/-- A search enters no name twice. -/
theorem IsSearch.nodup_entered (h : g.IsSearch start path seen) :
    (g.searchCycles path seen).2.Nodup := by
  fun_induction searchCycles g path seen with
  | case1 => exact h.nodup
  | case2 seen n outer ih => exact ih h.tail
  | case3 seen n d ds outer cycles seen' hsearch hany ih =>
    rw [hsearch] at ih
    rw [if_pos hany, hsearch]
    exact ih h.skip
  | case4 seen n d ds outer hd hany ih =>
    rw [if_neg hany, if_pos hd]
    exact ih h.skip
  | case5 seen n d ds outer hd hany ih =>
    rw [if_neg hany, if_neg hd]
    exact ih (h.push hd)

/-! ### Edges are looked at once -/

/-- A search still has to look at an edge: it remains at a name of the path, or it starts at a name
that is not yet entered. -/
def Pending (g : Graph) (path : List Visit) (seen : List String) (n d : String) : Prop :=
  (∃ v ∈ path, v.name = n ∧ d ∈ v.remaining) ∨ n ∉ seen ∧ g.Edge n d

private theorem Pending.of_skip {n d m x : String} {ds : List String}
    (h : g.Pending (⟨n, ds⟩ :: path) seen m x) : g.Pending (⟨n, d :: ds⟩ :: path) seen m x := by
  rcases h with ⟨v, hv, hname, hx⟩ | hnew
  · rcases List.mem_cons.1 hv with rfl | hv
    · exact .inl ⟨_, List.mem_cons_self, hname, List.mem_cons_of_mem _ hx⟩
    · exact .inl ⟨v, List.mem_cons_of_mem _ hv, hname, hx⟩
  · exact .inr hnew

private theorem Pending.of_push {n d m x : String} {ds : List String} (hd : d ∉ seen)
    (h : g.Pending (⟨d, g.next d⟩ :: ⟨n, ds⟩ :: path) (d :: seen) m x) :
    g.Pending (⟨n, d :: ds⟩ :: path) seen m x := by
  rcases h with ⟨v, hv, rfl, hx⟩ | ⟨hnew, hedge⟩
  · rcases List.mem_cons.1 hv with rfl | hv
    · exact .inr ⟨hd, hx⟩
    · exact Pending.of_skip (.inl ⟨v, hv, rfl, hx⟩)
  · exact .inr ⟨fun hm => hnew (List.mem_cons_of_mem _ hm), hedge⟩

/-- A cycle is reported for an edge that the search still has to look at. -/
theorem pending_of_mem_searchCycles {n d : String} (hc : c ∈ (g.searchCycles path seen).1)
    (hend : [n, d] <:+ c) : g.Pending path seen n d := by
  fun_induction searchCycles g path seen with
  | case1 => cases hc
  | case2 seen m outer ih =>
    rcases ih hc with ⟨v, hv, hrest⟩ | hnew
    · exact .inl ⟨v, List.mem_cons_of_mem _ hv, hrest⟩
    · exact .inr hnew
  | case3 seen m e es outer cycles seen' hsearch hany ih =>
    rw [hsearch] at ih
    rw [if_pos hany, hsearch] at hc
    rcases List.mem_cons.1 hc with rfl | hc
    · obtain ⟨rfl, rfl⟩ := eq_of_suffix_closeCycle hend
      exact .inl ⟨_, List.mem_cons_self, rfl, List.mem_cons_self⟩
    · exact (ih hc).of_skip
  | case4 seen m e es outer he hany ih =>
    rw [if_neg hany, if_pos he] at hc
    exact (ih hc).of_skip
  | case5 seen m e es outer he hany ih =>
    rw [if_neg hany, if_neg he] at hc
    exact (ih hc).of_push he

/-- Two lists that do not end with the same edge. -/
def EndApart (c c' : List String) : Prop := ∀ n d, [n, d] <:+ c → ¬[n, d] <:+ c'

/-- An edge that has been looked at does not come again. -/
private theorem IsSearch.not_pending {n d : String} {ds : List String}
    (h : g.IsSearch start (⟨n, d :: ds⟩ :: path) seen) (hds : d ∉ ds) :
    ¬g.Pending (⟨n, ds⟩ :: path) seen n d := by
  have hnames := h.sublist.nodup h.nodup
  rw [List.map_cons, List.nodup_cons] at hnames
  rintro (⟨v, hv, hname, hd⟩ | ⟨hnew, -⟩)
  · rcases List.mem_cons.1 hv with rfl | hv
    · exact hds hd
    · exact hnames.1 (List.mem_map.2 ⟨v, hv, hname⟩)
  · exact hnew (h.sublist.subset List.mem_cons_self)

/-- The cycles that a search reports end with different edges. -/
private theorem IsSearch.pairwise_endApart (hnext : ∀ n, (g.next n).Nodup)
    (h : g.IsSearch start path seen)
    (hpath : ∀ v ∈ path, v.remaining.Nodup) : (g.searchCycles path seen).1.Pairwise EndApart := by
  fun_induction searchCycles g path seen with
  | case1 => exact List.Pairwise.nil
  | case2 seen n outer ih => exact ih h.tail (List.forall_mem_cons.1 hpath).2
  | case3 seen n d ds outer cycles seen' hsearch hany ih =>
    obtain ⟨hrest, houter⟩ := List.forall_mem_cons.1 hpath
    obtain ⟨hds, hrest⟩ := List.nodup_cons.1 hrest
    rw [if_pos hany, hsearch]
    rw [hsearch] at ih
    refine List.pairwise_cons.2 ⟨fun c hc m x hend hend' => ?_,
      ih h.skip (List.forall_mem_cons.2 ⟨hrest, houter⟩)⟩
    obtain ⟨rfl, rfl⟩ := eq_of_suffix_closeCycle hend
    have hc : c ∈ (g.searchCycles (⟨m, ds⟩ :: outer) seen).1 := by
      rw [hsearch]
      exact hc
    exact h.not_pending hds (pending_of_mem_searchCycles hc hend')
  | case4 seen n d ds outer hd hany ih =>
    obtain ⟨hrest, houter⟩ := List.forall_mem_cons.1 hpath
    rw [if_neg hany, if_pos hd]
    exact ih h.skip (List.forall_mem_cons.2 ⟨(List.nodup_cons.1 hrest).2, houter⟩)
  | case5 seen n d ds outer hd hany ih =>
    obtain ⟨hrest, houter⟩ := List.forall_mem_cons.1 hpath
    rw [if_neg hany, if_neg hd]
    exact ih (h.push hd) (List.forall_mem_cons.2
      ⟨hnext d, List.forall_mem_cons.2 ⟨(List.nodup_cons.1 hrest).2, houter⟩⟩)

/-! ### Searches from several starts -/

/-- All names that searches from several starts enter, and the cycles that they report. -/
theorem exists_entered_cyclesOver (starts : List String) (hseen : seen.Nodup) :
    ∃ entered, entered.Nodup ∧ seen <:+ entered ∧
      ∀ c ∈ g.cyclesOver starts seen, g.IsCycle c ∧ c.dropLast.reverse.Sublist entered := by
  induction starts generalizing seen with
  | nil => exact ⟨seen, hseen, List.suffix_rfl, by simp [cyclesOver]⟩
  | cons n starts ih =>
    rw [cyclesOver]
    split
    · exact ih hseen
    · rename_i hn
      have hsearch : g.IsSearch n [⟨n, g.next n⟩] (n :: seen) := .single hseen hn
      obtain ⟨entered, hnodup, hsuffix, hrest⟩ := ih hsearch.nodup_entered
      have hentered := (suffix_searchCycles g [⟨n, g.next n⟩] (n :: seen)).trans hsuffix
      refine ⟨entered, hnodup, (List.suffix_cons n seen).trans hentered,
        List.forall_mem_append.2 ⟨fun c hc => ?_, hrest⟩⟩
      have hfound := hsearch.isFound c hc
      exact ⟨hfound.isCycle, hfound.sublist.trans hsuffix.sublist⟩

/-- The last edge of a cycle starts at a name that was not entered before. -/
private theorem notMem_of_mem_cyclesOver {starts : List String} {n d : String}
    (hc : c ∈ g.cyclesOver starts seen) (hend : [n, d] <:+ c) : n ∉ seen := by
  induction starts generalizing seen with
  | nil => cases hc
  | cons m starts ih =>
    rw [cyclesOver] at hc
    split at hc
    · exact ih hc
    · rename_i hm
      rcases List.mem_append.1 hc with hc | hc
      · rcases pending_of_mem_searchCycles hc hend with ⟨v, hv, rfl, -⟩ | ⟨hnew, -⟩
        · obtain rfl := List.mem_singleton.1 hv
          exact hm
        · exact fun hn => hnew (List.mem_cons_of_mem _ hn)
      · have hsuffix := suffix_searchCycles g [⟨m, g.next m⟩] (m :: seen)
        exact fun hn => ih hc (hsuffix.subset (List.mem_cons_of_mem _ hn))

/-- No two reported cycles end with the same edge. -/
private theorem pairwise_endApart_cyclesOver (hnext : ∀ n, (g.next n).Nodup) (starts : List String)
    (hseen : seen.Nodup) : (g.cyclesOver starts seen).Pairwise EndApart := by
  induction starts generalizing seen with
  | nil => exact List.Pairwise.nil
  | cons n starts ih =>
    rw [cyclesOver]
    split
    · exact ih hseen
    · rename_i hn
      have hsearch : g.IsSearch n [⟨n, g.next n⟩] (n :: seen) := .single hseen hn
      refine List.pairwise_append.2 ⟨hsearch.pairwise_endApart hnext ?_, ih hsearch.nodup_entered,
        ?_⟩
      · exact List.forall_mem_singleton.2 (hnext n)
      · -- What starts an edge that closes a cycle has been entered by the search that reports it.
        rintro c hc c' hc' m d hend hend'
        refine notMem_of_mem_cyclesOver hc' hend' ?_
        refine (hsearch.isFound c hc).sublist.subset (List.mem_reverse.2 ?_)
        obtain ⟨rest, rfl⟩ := hend
        rw [List.dropLast_append_cons, List.dropLast_cons_cons]
        simp

/-- If searches from several starts report nothing, nothing that they start from reaches a cycle. -/
theorem settled_of_cyclesOver_eq_nil {starts : List String} (hseen : ∀ n ∈ seen, g.Settled n)
    (h : g.cyclesOver starts seen = []) : ∀ n ∈ starts, g.Settled n := by
  induction starts generalizing seen with
  | nil => simp
  | cons n starts ih =>
    rw [cyclesOver] at h
    split at h
    · rename_i hn
      exact List.forall_mem_cons.2 ⟨hseen n hn, ih hseen h⟩
    · obtain ⟨hfirst, hrest⟩ := List.append_eq_nil_iff.1 h
      have hpath : g.Awaits [] [⟨n, g.next n⟩] := ⟨fun b hb => .inl hb, trivial⟩
      have hstart : ∀ a ∈ n :: seen, (∃ v ∈ [Visit.mk n (g.next n)], v.name = a) ∨ g.Settled a :=
        List.forall_mem_cons.2
          ⟨.inl ⟨_, List.mem_cons_self, rfl⟩, fun a ha => .inr (hseen a ha)⟩
      have hsettled := settled_of_searchCycles_eq_nil hpath hstart hfirst
      refine List.forall_mem_cons.2 ⟨hsettled n ?_, ih hsettled hrest⟩
      exact (suffix_searchCycles g _ _).subset List.mem_cons_self

/-! ### All cycles -/

/-- Parts of a list without repetitions are the same if they have the same members. -/
private theorem eq_of_sublist_of_perm {l l₁ l₂ : List String} (hl : l.Nodup) (h₁ : l₁.Sublist l)
    (h₂ : l₂.Sublist l) (hperm : l₁.Perm l₂) : l₁ = l₂ := by
  induction h₁ generalizing l₂ with
  | slnil => exact hperm.nil_eq
  | cons a h₁ ih =>
    obtain ⟨ha, hl⟩ := List.nodup_cons.1 hl
    refine ih hl ((List.sublist_cons_iff.1 h₂).resolve_right ?_) hperm
    rintro ⟨rest, rfl, -⟩
    exact ha (h₁.subset (hperm.mem_iff.2 List.mem_cons_self))
  | cons_cons a h₁ ih =>
    obtain ⟨ha, hl⟩ := List.nodup_cons.1 hl
    rcases List.sublist_cons_iff.1 h₂ with h₂ | ⟨rest, rfl, hrest⟩
    · exact absurd (h₂.subset (hperm.mem_iff.1 List.mem_cons_self)) ha
    · rw [ih hl hrest hperm.cons_inv]

/-- No cycle is reported exactly if no name reaches itself. -/
theorem cycles_eq_nil_iff : g.cycles = [] ↔ ∀ n ∈ g.names, ¬g.Reaches n n := by
  constructor
  · intro h n hn hself
    have hn : n ∈ sortedSet g.names := mem_sortedSet.2 hn
    exact settled_of_cyclesOver_eq_nil (by simp) h n hn n (.inl rfl) hself
  · intro h
    refine List.eq_nil_iff_forall_not_mem.2 fun c hc => ?_
    obtain ⟨entered, -, -, hfound⟩ := exists_entered_cyclesOver (g := g) (sortedSet g.names) .nil
    obtain ⟨n, -, hself⟩ := (hfound c hc).1.exists_reaches_self
    -- A name without successors is on no cycle.
    refine h n (by_contra fun hn => ?_) hself
    obtain ⟨d, hd, -⟩ := hself.exists_first_edge
    rw [Edge, next_eq_nil_of_not_mem hn] at hd
    cases hd

/-- No cycle is reported twice, whatever name it is started from. -/
private theorem pairwise_not_isRotated_cycles (hnext : ∀ n, (g.next n).Nodup) :
    g.cycles.Pairwise fun c c' => ¬c.dropLast ~r c'.dropLast := by
  obtain ⟨entered, hnodup, -, hfound⟩ :=
    exists_entered_cyclesOver (g := g) (sortedSet g.names) .nil
  refine (pairwise_endApart_cyclesOver hnext _ .nil).imp_of_mem fun {c c'} hc hc' hapart hrot => ?_
  obtain ⟨hcycle, hsub⟩ := hfound c hc
  obtain ⟨hcycle', hsub'⟩ := hfound c' hc'
  have hperm : c.dropLast.reverse.Perm c'.dropLast.reverse :=
    (c.dropLast.reverse_perm.trans hrot.perm).trans c'.dropLast.reverse_perm.symm
  -- Both come in the order of what is entered, so that the rotation is none.
  have heq := List.reverse_injective (eq_of_sublist_of_perm hnodup hsub hsub' hperm)
  obtain rfl := hcycle.eq_of_dropLast_eq hcycle' heq
  obtain ⟨n, d, hend⟩ := hcycle.exists_suffix
  exact hapart n d hend hend

/-- What the searches of a graph find. `reachable` gives everything reached by one or more edges,
`cycleFrom?` a cycle that is reached from a name, and `cycles` a cycle wherever there is one. -/
structure FindsCycles (g : Graph) : Prop where
  pairwise_reachable : ∀ n, (g.reachable n).Pairwise (· < ·)
  mem_reachable_iff : ∀ n x, x ∈ g.reachable n ↔ TransGen g.Edge n x
  isCycle : ∀ c ∈ g.cycles, g.IsCycle c
  isCycle_from : ∀ n c, g.cycleFrom? n = some c → g.IsCycle c
  mem_from : ∀ n c, g.cycleFrom? n = some c → ∀ x ∈ c, x = n ∨ x ∈ g.reachable n
  exists_from_iff : ∀ n, (∃ c, g.cycleFrom? n = some c) ↔
    ∃ x, (x = n ∨ x ∈ g.reachable n) ∧ x ∈ g.reachable x
  ne_nil_iff : g.cycles ≠ [] ↔ ∃ n ∈ g.names, n ∈ g.reachable n
  not_isRotated : g.cycles.Pairwise fun c c' => ¬c.dropLast ~r c'.dropLast

/-- The searches find what there is, as long as no successor is listed twice. -/
theorem findsCycles (g : Graph) (hnext : ∀ n, (g.next n).Nodup) : g.FindsCycles := by
  -- The cycle found from a name is the first one of the search that starts at that name.
  have hfrom : ∀ n c, g.cycleFrom? n = some c →
      g.IsFound n (g.searchCycles [⟨n, g.next n⟩] [n]).2 c := by
    intro n c h
    have hsearch : g.IsSearch n [⟨n, g.next n⟩] [n] := .single .nil (by simp)
    exact hsearch.isFound c (List.mem_of_head? h)
  obtain ⟨entered, -, -, hfound⟩ := exists_entered_cyclesOver (g := g) (sortedSet g.names) .nil
  constructor
  case pairwise_reachable => exact fun n => pairwise_sortedSet _
  case mem_reachable_iff => exact fun n x => mem_reachable_iff.trans reaches_iff_transGen
  case isCycle => exact fun c hc => (hfound c hc).1
  case isCycle_from => exact fun n c h => (hfrom n c h).isCycle
  case mem_from =>
    intro n c h x hx
    rw [mem_reachable_iff]
    exact (hfrom n c h).reached x hx
  case exists_from_iff =>
    intro n
    rw [← Option.ne_none_iff_exists', Ne, cycleFrom?_eq_none_iff, Settled]
    simp only [mem_reachable_iff]
    push Not
    rfl
  case ne_nil_iff =>
    rw [Ne, cycles_eq_nil_iff]
    simp only [mem_reachable_iff]
    push Not
    rfl
  case not_isRotated => exact pairwise_not_isRotated_cycles hnext

theorem nodup_next (h : ∀ e ∈ g.edges, e.2.Nodup) (n : String) : (g.next n).Nodup := by
  rw [next]
  cases hlookup : g.edges.lookup n with
  | none => exact List.nodup_nil
  | some names =>
    obtain ⟨before, behind, heq, -⟩ := List.lookup_eq_some_iff.1 hlookup
    exact h (n, names) (by rw [heq]; simp)

/-- Two cycles that share a name, and a name that leads to itself. -/
def rings : Graph where
  edges := [("Page", ["Card", "Menu"]), ("Card", ["Icon", "Page"]), ("Icon", ["Card", "Missing"]),
    ("Menu", ["Menu"])]

/-- In the graph of rings every cycle is reported, and only cycles are. -/
theorem findsCycles_rings : (∀ n, (rings.next n).Nodup) ∧ rings.FindsCycles := by
  have hnext : ∀ n, (rings.next n).Nodup := nodup_next (by decide)
  exact ⟨hnext, findsCycles rings hnext⟩

example :
    rings.cycles = [["Card", "Icon", "Card"], ["Card", "Page", "Card"], ["Menu", "Menu"]] := by
  cbv

end ViewCompiler.Graph
