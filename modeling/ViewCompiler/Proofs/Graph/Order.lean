import Mathlib
import ViewCompiler.Proofs.Graph.Cycles

/-!
# Names behind what they lead to

Where no name that is searched reaches itself, the depth-first search lists every name behind all
its successors (`Graph.topologicalOrder_lists`). It enters a successor before that is listed, so
that a successor met again may be listed already or may still be on the path. The second would close
a cycle, and cycles have been searched for before: where there is one, it is reported and nothing is
listed (`IsOrdering.ready`).

`IsOrdering` is what holds whenever the search comes by: what it has entered it has listed, or has
on its path, and all other successors of a name on the path have been entered. It is kept when a
name is done and listed, when a successor was seen, and when a new one is entered, and these are the
cases of the recursion.

That the list is in order is said from its front (`ReadyOrder`): the first name is new and has its
successors among those listed before, and the rest is in order behind it. So the searches from
several starts can be put one behind the other, each with what the earlier ones have entered as what
was listed before.

A build order consists of the names that have successors recorded and all that they lead to, among
them names with nothing recorded (`IsBuildOrder`).
-/

namespace ViewCompiler.Graph

open Relation ViewCompiler.Text

variable {g : Graph} {start : String} {path : List Visit} {seen done : List String}

/-- Names that can be listed one after the other behind those of `done`: none of them comes again,
and the successors of each have come before. -/
def ReadyOrder (g : Graph) (done : List String) : List String → Prop
  | [] => True
  | n :: rest => n ∉ done ∧ (∀ d ∈ g.next n, d ∈ done) ∧ g.ReadyOrder (n :: done) rest

namespace ReadyOrder

variable {done' order order' : List String}

theorem congr (h : g.ReadyOrder done order) (hdone : ∀ n, n ∈ done ↔ n ∈ done') :
    g.ReadyOrder done' order := by
  induction order generalizing done done' with
  | nil => trivial
  | cons n rest ih =>
    obtain ⟨hnew, hnext, hrest⟩ := h
    refine ⟨fun hn => hnew ((hdone n).2 hn), fun d hd => (hdone d).1 (hnext d hd),
      ih hrest fun m => ?_⟩
    rw [List.mem_cons, List.mem_cons, hdone m]

theorem append (h : g.ReadyOrder done order) (h' : g.ReadyOrder (order ++ done) order') :
    g.ReadyOrder done (order ++ order') := by
  induction order generalizing done with
  | nil => exact h'
  | cons n rest ih =>
    obtain ⟨hnew, hnext, hrest⟩ := h
    refine ⟨hnew, hnext, ih hrest (h'.congr fun m => ?_)⟩
    rw [List.mem_append, List.mem_append, List.mem_cons, List.mem_cons]
    tauto

private theorem nodup_and_disjoint (h : g.ReadyOrder done order) :
    order.Nodup ∧ ∀ n ∈ order, n ∉ done := by
  induction order generalizing done with
  | nil => exact ⟨.nil, nofun⟩
  | cons n rest ih =>
    obtain ⟨hnew, -, hrest⟩ := h
    obtain ⟨hnodup, hapart⟩ := ih hrest
    refine ⟨List.nodup_cons.2 ⟨fun hn => hapart n hn List.mem_cons_self, hnodup⟩, ?_⟩
    exact List.forall_mem_cons.2
      ⟨hnew, fun m hm hdone => hapart m hm (List.mem_cons_of_mem n hdone)⟩

/-- A successor of a listed name is listed further in front, unless it was there before. -/
theorem idxOf_lt (h : g.ReadyOrder done order) {n d : String} (hn : n ∈ order) (hd : d ∈ g.next n)
    (hdone : d ∉ done) : order.idxOf d < order.idxOf n := by
  induction order generalizing done with
  | nil => cases hn
  | cons m rest ih =>
    obtain ⟨-, hnext, hrest⟩ := h
    have hmn : m ≠ n := by
      rintro rfl
      exact hdone (hnext d hd)
    have hn : n ∈ rest := (List.mem_cons.1 hn).resolve_left hmn.symm
    rw [List.idxOf_cons_ne rest hmn]
    by_cases hmd : m = d
    · rw [hmd, List.idxOf_cons_self]
      exact Nat.succ_pos _
    · rw [List.idxOf_cons_ne rest hmd]
      refine Nat.succ_lt_succ (ih hrest hn fun hmem => ?_)
      exact (List.mem_cons.1 hmem).elim (fun heq => hmd heq.symm) hdone

end ReadyOrder

/-! ### One search -/

/-- A search lists what it still has on its path. -/
private theorem subset_searchOrder (g : Graph) (path : List Visit) (seen : List String) :
    path.map (·.name) ⊆ (g.searchOrder path seen).1 := by
  fun_induction searchOrder g path seen with
  | case1 => exact List.nil_subset _
  | case2 seen n outer order seen' hsearch ih =>
    rw [hsearch] at ih
    exact List.cons_subset_cons n ih
  | case3 seen n d ds outer hd ih => exact ih
  | case4 seen n d ds outer hd ih => exact (List.cons_subset.1 ih).2

/-- A search lists only its start and what can be reached from there. -/
private theorem IsPath.reached_of_mem_searchOrder (h : g.IsPath start path) :
    ∀ n ∈ (g.searchOrder path seen).1, n = start ∨ g.Reaches start n := by
  fun_induction searchOrder g path seen with
  | case1 => exact nofun
  | case2 seen n outer order seen' hsearch ih =>
    rw [hsearch] at ih
    exact List.forall_mem_cons.2 ⟨(List.forall_mem_cons.1 h.reached).1, ih h.tail⟩
  | case3 seen n d ds outer hd ih => exact ih h.skip
  | case4 seen n d ds outer hd ih => exact ih h.push

/-- What a search has entered it has listed, or has on its path, and it has looked at all other
successors of the names on its path. -/
structure IsOrdering (g : Graph) (start : String) (path : List Visit)
    (seen done : List String) : Prop
    extends g.IsSearch start path seen where
  perm : seen.Perm (path.map (·.name) ++ done)
  entered : ∀ v ∈ path, ∀ d ∈ g.next v.name, d ∈ v.remaining ∨ d ∈ seen

namespace IsOrdering

variable {n d : String} {ds : List String}

theorem single (hseen : seen.Nodup) (hstart : start ∉ seen) :
    g.IsOrdering start [⟨start, g.next start⟩] (start :: seen) seen where
  toIsSearch := .single hseen hstart
  perm := .refl _
  entered := List.forall_mem_singleton.2 fun _ hd => .inl hd

/-- The innermost name is new, and where no cycle can be reached its successors are all listed. -/
theorem ready (h : g.IsOrdering start (⟨n, []⟩ :: path) seen done) (hstart : g.Settled start) :
    n ∉ done ∧ ∀ d ∈ g.next n, d ∈ done := by
  have hnodup := h.perm.nodup_iff.1 h.nodup
  refine ⟨fun hn => (List.nodup_append.1 hnodup).2.2 n List.mem_cons_self n hn rfl, fun d hd => ?_⟩
  have hentered : d ∈ seen := (h.entered _ List.mem_cons_self d hd).resolve_left nofun
  rcases List.mem_append.1 (h.perm.subset hentered) with hpath | hdone
  · -- A successor on the path would close a cycle.
    obtain ⟨u, hu, rfl⟩ := List.mem_map.1 hpath
    have hself : g.Reaches n n := by
      rcases h.isPath.reaches_head hu with heq | hreach
      · change u.name = n at heq
        exact .edge (heq ▸ hd)
      · exact .step hd hreach
    exact absurd hself (hstart n (h.isPath.reached _ List.mem_cons_self))
  · exact hdone

private theorem pop (h : g.IsOrdering start (⟨n, []⟩ :: path) seen done) :
    g.IsOrdering start path seen (n :: done) where
  toIsSearch := h.toIsSearch.tail
  perm := h.perm.trans List.perm_middle.symm
  entered := (List.forall_mem_cons.1 h.entered).2

theorem skip (h : g.IsOrdering start (⟨n, d :: ds⟩ :: path) seen done) (hd : d ∈ seen) :
    g.IsOrdering start (⟨n, ds⟩ :: path) seen done where
  toIsSearch := h.toIsSearch.skip
  perm := h.perm
  entered := by
    obtain ⟨hn, hpath⟩ := List.forall_mem_cons.1 h.entered
    refine List.forall_mem_cons.2 ⟨fun e he => ?_, hpath⟩
    rcases hn e he with hmem | hmem
    · exact (List.mem_cons.1 hmem).elim (fun heq => .inr (heq ▸ hd)) .inl
    · exact .inr hmem

theorem push (h : g.IsOrdering start (⟨n, d :: ds⟩ :: path) seen done) (hd : d ∉ seen) :
    g.IsOrdering start (⟨d, g.next d⟩ :: ⟨n, ds⟩ :: path) (d :: seen) done where
  toIsSearch := h.toIsSearch.push hd
  perm := h.perm.cons d
  entered := by
    obtain ⟨hn, hpath⟩ := List.forall_mem_cons.1 h.entered
    refine List.forall_mem_cons.2 ⟨fun e he => .inl he, List.forall_mem_cons.2 ⟨fun e he => ?_, ?_⟩⟩
    · rcases hn e he with hmem | hmem
      · exact (List.mem_cons.1 hmem).elim (fun heq => .inr (heq ▸ List.mem_cons_self)) .inl
      · exact .inr (List.mem_cons_of_mem d hmem)
    · exact fun v hv e he => (hpath v hv e he).imp_right (List.mem_cons_of_mem d)

/-- A search that can reach no cycle lists names behind their successors, and in the end has listed
all that it has entered. -/
private theorem readyOrder (h : g.IsOrdering start path seen done) (hstart : g.Settled start) :
    g.ReadyOrder done (g.searchOrder path seen).1 ∧
      (g.searchOrder path seen).2.Perm ((g.searchOrder path seen).1 ++ done) := by
  fun_induction searchOrder g path seen generalizing done with
  | case1 => exact ⟨trivial, h.perm⟩
  | case2 seen n outer order seen' hsearch ih =>
    rw [hsearch] at ih
    obtain ⟨hnew, hnext⟩ := h.ready hstart
    obtain ⟨hready, hperm⟩ := ih h.pop
    exact ⟨⟨hnew, hnext, hready⟩, hperm.trans List.perm_middle⟩
  | case3 seen n d ds outer hd ih => exact ih (h.skip hd)
  | case4 seen n d ds outer hd ih => exact ih (h.push hd)

end IsOrdering

/-! ### Searches from several starts -/

/-- What is listed from several starts: the starts and what can be reached from them, behind what
was entered before. -/
private theorem readyOrder_orderOver {starts : List String} (hseen : seen.Nodup)
    (hstarts : ∀ n ∈ starts, g.Settled n) :
    g.ReadyOrder seen (g.orderOver starts seen) ∧
      (∀ n ∈ starts, n ∈ g.orderOver starts seen ∨ n ∈ seen) ∧
      ∀ n ∈ g.orderOver starts seen, ∃ m ∈ starts, n = m ∨ g.Reaches m n := by
  induction starts generalizing seen with
  | nil => exact ⟨trivial, nofun, nofun⟩
  | cons m starts ih =>
    obtain ⟨hm, hstarts⟩ := List.forall_mem_cons.1 hstarts
    rw [orderOver]
    split
    · rename_i hmem
      obtain ⟨hready, hlisted, hreached⟩ := ih hseen hstarts
      refine ⟨hready, List.forall_mem_cons.2 ⟨.inr hmem, hlisted⟩, fun n hn => ?_⟩
      obtain ⟨k, hk, h⟩ := hreached n hn
      exact ⟨k, List.mem_cons_of_mem m hk, h⟩
    · rename_i hnew
      have hsearch : g.IsOrdering m [⟨m, g.next m⟩] (m :: seen) seen := .single hseen hnew
      have hlistedHere : m ∈ (g.searchOrder [⟨m, g.next m⟩] (m :: seen)).1 :=
        subset_searchOrder g _ _ List.mem_cons_self
      have hreachedHere : ∀ n ∈ (g.searchOrder [⟨m, g.next m⟩] (m :: seen)).1,
          n = m ∨ g.Reaches m n := hsearch.isPath.reached_of_mem_searchOrder
      obtain ⟨hready, hperm⟩ := hsearch.readyOrder hm
      generalize g.searchOrder [⟨m, g.next m⟩] (m :: seen) = found at *
      obtain ⟨order, seen'⟩ := found
      -- The search has entered what it lists, beside what was entered before.
      have hnodup : seen'.Nodup := by
        obtain ⟨hnodup, hapart⟩ := hready.nodup_and_disjoint
        refine hperm.nodup_iff.2 (List.nodup_append.2 ⟨hnodup, hseen, ?_⟩)
        rintro a ha b hb rfl
        exact hapart a ha hb
      obtain ⟨hrest, hlisted, hreached⟩ := ih hnodup hstarts
      refine ⟨hready.append (hrest.congr fun n => hperm.mem_iff), ?_, ?_⟩
      · refine List.forall_mem_cons.2 ⟨.inl (List.mem_append_left _ hlistedHere), fun n hn => ?_⟩
        rcases hlisted n hn with hmem | hmem
        · exact .inl (List.mem_append_right _ hmem)
        · exact (List.mem_append.1 (hperm.subset hmem)).imp_left (List.mem_append_left _)
      · refine List.forall_mem_append.2 ⟨fun n hn => ⟨m, List.mem_cons_self, hreachedHere n hn⟩, ?_⟩
        intro n hn
        obtain ⟨k, hk, h⟩ := hreached n hn
        exact ⟨k, List.mem_cons_of_mem m hk, h⟩

/-! ### All names -/

/-- A list of all names of a graph and what they lead to, in which nothing comes again and every
name comes behind its successors. -/
structure IsBuildOrder (g : Graph) (order : List String) : Prop where
  nodup : order.Nodup
  mem_iff : ∀ n, n ∈ order ↔ n ∈ g.names ∨ ∃ m ∈ g.names, TransGen g.Edge m n
  idxOf_lt : ∀ n ∈ order, ∀ d ∈ g.next n, order.idxOf d < order.idxOf n

private theorem isBuildOrder_orderOver (h : g.cycles = []) :
    g.IsBuildOrder (g.orderOver (sortedSet g.names) []) := by
  have hsettled : ∀ n ∈ sortedSet g.names, g.Settled n :=
    settled_of_cyclesOver_eq_nil (fun n hn => absurd hn List.not_mem_nil) h
  obtain ⟨hready, hlisted, hreached⟩ := readyOrder_orderOver .nil hsettled
  have hnext : ∀ n ∈ g.orderOver (sortedSet g.names) [], ∀ d ∈ g.next n,
      (g.orderOver (sortedSet g.names) []).idxOf d < (g.orderOver (sortedSet g.names) []).idxOf n :=
    fun n hn d hd => hready.idxOf_lt hn hd nofun
  have hclosed : ∀ a b, a ∈ g.orderOver (sortedSet g.names) [] → g.Edge a b →
      b ∈ g.orderOver (sortedSet g.names) [] := fun a b ha hab =>
    List.idxOf_lt_length_iff.1 ((hnext a ha b hab).trans_le List.idxOf_le_length)
  have hnames : ∀ n ∈ g.names, n ∈ g.orderOver (sortedSet g.names) [] := fun n hn =>
    (hlisted n (mem_sortedSet.2 hn)).resolve_right nofun
  refine ⟨hready.nodup_and_disjoint.1, fun n => ⟨fun hn => ?_, ?_⟩, hnext⟩
  · obtain ⟨m, hm, rfl | hmn⟩ := hreached n hn
    · exact .inl (mem_sortedSet.1 hm)
    · exact .inr ⟨m, mem_sortedSet.1 hm, reaches_iff_transGen.1 hmn⟩
  · rintro (hn | ⟨m, hm, hmn⟩)
    · exact hnames n hn
    · exact (reaches_iff_transGen.2 hmn).mem_of_closed hclosed (hnames m hm)

/-- The topological order fails exactly where the listed names lead to a cycle, and then reports
one. Otherwise it lists the names and what they lead to, everything behind its successors. -/
theorem topologicalOrder_lists (g : Graph) :
    ((∃ c, g.topologicalOrder = .error c) ↔
      ∃ n, (n ∈ g.names ∨ ∃ m ∈ g.names, TransGen g.Edge m n) ∧ TransGen g.Edge n n) ∧
    (∀ c, g.topologicalOrder = .error c → g.IsCycle c) ∧
    ∀ order, g.topologicalOrder = .ok order → g.IsBuildOrder order := by
  have hcyclic : (∃ n, (n ∈ g.names ∨ ∃ m ∈ g.names, TransGen g.Edge m n) ∧ TransGen g.Edge n n) ↔
      g.cycles ≠ [] := by
    rw [Ne, cycles_eq_nil_iff]
    push Not
    constructor
    · rintro ⟨n, -, hself⟩
      -- Whatever has a successor is one of the listed names.
      refine ⟨n, by_contra fun hn => ?_, reaches_iff_transGen.2 hself⟩
      obtain ⟨d, hd, -⟩ := (reaches_iff_transGen.2 hself).exists_first_edge
      rw [Edge, next_eq_nil_of_not_mem hn] at hd
      cases hd
    · rintro ⟨n, hn, hself⟩
      exact ⟨n, .inl hn, reaches_iff_transGen.1 hself⟩
  rw [hcyclic, topologicalOrder]
  cases hcycles : g.cycles with
  | nil =>
    refine ⟨iff_of_false (fun h => ?_) fun h => h rfl, fun c' hc' => ?_, fun order horder => ?_⟩
    · obtain ⟨c, hc⟩ := h
      cases hc
    · cases hc'
    · exact Except.ok.inj horder ▸ isBuildOrder_orderOver hcycles
  | cons c cs =>
    refine ⟨iff_of_true ⟨c, rfl⟩ (List.cons_ne_nil c cs), fun c' hc' => ?_, fun order horder => ?_⟩
    swap
    · cases horder
    obtain ⟨entered, -, -, hfound⟩ := exists_entered_cyclesOver (g := g) (sortedSet g.names) .nil
    have hmem : c ∈ g.cycles := by
      rw [hcycles]
      exact List.mem_cons_self
    exact Except.error.inj hc' ▸ (hfound c hmem).1

example : (Graph.mk [("Menu", ["Card", "Missing"]), ("Page", ["Menu", "Card"])]).topologicalOrder =
    .ok ["Card", "Missing", "Menu", "Page"] := by
  cbv

end ViewCompiler.Graph
