import Mathlib.Data.List.Chain
import Mathlib.Logic.Relation
import ViewCompiler.Graph

/-!
# Searching graphs

The worklist search finds exactly what is reached by edges (`Graph.mem_reachable_iff`), and a cycle
that the depth-first search reports is one: it goes through a name that reaches itself and that is
reached from the start (`Graph.exists_reaches_self_of_cycleFrom?`). It reports none only where there
is none (`Graph.cycleFrom?_eq_none_iff`).

The worklist search has a short invariant: the successors of what it has seen are seen or pending.
With nothing pending the seen names are closed under edges, so they hold all that is reached.

The depth-first search keeps a path, and behind each name of the path the successors that it has
still to look at (`IsPath`). A successor that lies on the path closes a cycle. For the other
direction suppose that nothing is reported. Every name that was entered is settled then: neither the
name nor anything that it leads to reaches itself. While the search goes on, this cannot be said yet
of the names on the path, whose successors may be further in. What can be said is that each
successor is settled, still to be looked at, or one of the names further in (`Awaits`), and this is
kept from step to step until the innermost name has nothing left (`Awaits.settled`).

Edges are written as a list of successors for each name. Reaching a name is one or more edges, which
is the transitive closure of them (`Graph.reaches_iff_transGen`).
-/

namespace ViewCompiler.Graph

open ViewCompiler.Text

variable {g : Graph}

theorem Reaches.trans {a b c : String} (h : g.Reaches a b) (h' : g.Reaches b c) :
    g.Reaches a c := by
  induction h with
  | edge hab => exact .step hab h'
  | step hab _ ih => exact .step hab (ih h')

/-- A set that holds the successors of what it holds, holds everything reached from it. -/
theorem Reaches.mem_of_closed {S : String → Prop} (hS : ∀ a b, S a → g.Edge a b → S b)
    {a b : String} (h : g.Reaches a b) (ha : S a) : S b := by
  induction h with
  | edge hab => exact hS _ _ ha hab
  | step hab _ ih => exact ih (hS _ _ ha hab)

/-- Whatever is reached is a successor. -/
theorem Reaches.exists_edge {a b : String} (h : g.Reaches a b) : ∃ c, g.Edge c b := by
  induction h with
  | edge hab => exact ⟨_, hab⟩
  | step _ _ ih => exact ih

/-- Reaching a name is the transitive closure of the edges. -/
theorem reaches_iff_transGen {a b : String} : g.Reaches a b ↔ Relation.TransGen g.Edge a b := by
  constructor
  · intro h
    induction h with
    | edge hab => exact .single hab
    | step hab _ ih => exact .head hab ih
  · intro h
    induction h with
    | single hab => exact .edge hab
    | tail _ hbc ih => exact ih.trans (.edge hbc)

/-- Names that follow each other along edges are reached from the first of them. -/
theorem reaches_of_isChain {a b : String} {names : List String} (h : (a :: names).IsChain g.Edge)
    (hb : b ∈ names) : g.Reaches a b := by
  induction names generalizing a with
  | nil => cases hb
  | cons c names ih =>
    obtain ⟨hedge, hchain⟩ := List.isChain_cons_cons.1 h
    rcases List.mem_cons.1 hb with rfl | hb
    · exact .edge hedge
    · exact .step hedge (ih hchain hb)

/-! ### Reachability -/

/-- A search keeps what it has seen and enters everything that is pending. -/
private theorem subset_explore {pending seen : List String} :
    (∀ n ∈ seen, n ∈ g.explore pending seen) ∧ ∀ n ∈ pending, n ∈ g.explore pending seen := by
  fun_induction explore g pending seen with
  | case1 => simp
  | case2 seen n rest hn ih =>
    refine ⟨ih.1, List.forall_mem_cons.2 ⟨ih.1 n hn, ih.2⟩⟩
  | case3 seen n rest hn ih =>
    obtain ⟨hseen, hpending⟩ := ih
    obtain ⟨hn, hseen⟩ := List.forall_mem_cons.1 hseen
    exact ⟨hseen, List.forall_mem_cons.2 ⟨hn, (List.forall_mem_append.1 hpending).2⟩⟩

/-- The invariant of a search: the successors of what it has seen are seen or pending. At its end
nothing is pending. -/
private theorem closed_explore {pending seen : List String}
    (h : ∀ a ∈ seen, ∀ b ∈ g.next a, b ∈ seen ∨ b ∈ pending) :
    ∀ a ∈ g.explore pending seen, ∀ b ∈ g.next a, b ∈ g.explore pending seen := by
  fun_induction explore g pending seen with
  | case1 seen =>
    intro a ha b hb
    exact (h a ha b hb).elim id (fun hb => by cases hb)
  | case2 seen n rest hn ih =>
    refine ih fun a ha b hb => ?_
    rcases h a ha b hb with hb | hb
    · exact .inl hb
    · rcases List.mem_cons.1 hb with rfl | hb
      · exact .inl hn
      · exact .inr hb
  | case3 seen n rest hn ih =>
    refine ih fun a ha b hb => ?_
    rcases List.mem_cons.1 ha with rfl | ha
    · exact .inr (List.mem_append_left _ hb)
    · rcases h a ha b hb with hb | hb
      · exact .inl (List.mem_cons_of_mem _ hb)
      · rcases List.mem_cons.1 hb with rfl | hb
        · exact .inl List.mem_cons_self
        · exact .inr (List.mem_append_right _ hb)

/-- A search enters only what is pending and what is reached from there. -/
private theorem mem_of_mem_explore {S : String → Prop} (hS : ∀ a b, S a → g.Edge a b → S b)
    {pending seen : List String} (hseen : ∀ n ∈ seen, S n) (hpending : ∀ n ∈ pending, S n) :
    ∀ n ∈ g.explore pending seen, S n := by
  fun_induction explore g pending seen with
  | case1 => exact hseen
  | case2 seen n rest hn ih => exact ih hseen (List.forall_mem_cons.1 hpending).2
  | case3 seen n rest hn ih =>
    obtain ⟨hn, hrest⟩ := List.forall_mem_cons.1 hpending
    refine ih (List.forall_mem_cons.2 ⟨hn, hseen⟩) (List.forall_mem_append.2 ⟨?_, hrest⟩)
    exact fun b hb => hS n b hn hb

/-- The search finds exactly what is reached by one or more edges. -/
theorem mem_reachable_iff {a b : String} : b ∈ g.reachable a ↔ g.Reaches a b := by
  rw [reachable, mem_sortedSet]
  constructor
  · refine mem_of_mem_explore (S := g.Reaches a) (fun c d hc hcd => hc.trans (.edge hcd)) ?_ ?_ b
    · simp
    · exact fun n hn => .edge hn
  · intro h
    have hclosed : ∀ c ∈ g.explore (g.next a) [], ∀ d ∈ g.next c, d ∈ g.explore (g.next a) [] :=
      closed_explore (by simp)
    have hnext : ∀ c ∈ g.next a, c ∈ g.explore (g.next a) [] := subset_explore.2
    induction h with
    | edge hab => exact hnext _ hab
    | step hab hbc _ =>
      exact hbc.mem_of_closed (fun c d hc hcd => hclosed c hc d hcd) (hnext _ hab)

/-! ### Cycles -/

/-- The path of a depth-first search: each name is a successor of the next one, what it still has to
look at are successors, and all of it can be reached from `start`. -/
structure IsPath (g : Graph) (start : String) (path : List Visit) : Prop where
  chain : path.IsChain fun v u => g.Edge u.name v.name
  remaining : ∀ v ∈ path, ∀ d ∈ v.remaining, g.Edge v.name d
  reached : ∀ v ∈ path, v.name = start ∨ g.Reaches start v.name

namespace IsPath

variable {start : String} {v : Visit} {path : List Visit}

theorem tail (h : g.IsPath start (v :: path)) : g.IsPath start path where
  chain := h.chain.tail
  remaining := (List.forall_mem_cons.1 h.remaining).2
  reached := (List.forall_mem_cons.1 h.reached).2

/-- Looking at one successor leaves the others. -/
theorem skip {n d : String} {ds : List String} (h : g.IsPath start (⟨n, d :: ds⟩ :: path)) :
    g.IsPath start (⟨n, ds⟩ :: path) where
  chain := by
    have hchain := h.chain
    cases path with
    | nil => exact .singleton _
    | cons u path => exact List.isChain_cons_cons.2 (List.isChain_cons_cons.1 hchain)
  remaining := by
    obtain ⟨hn, hpath⟩ := List.forall_mem_cons.1 h.remaining
    exact List.forall_mem_cons.2 ⟨fun e he => hn e (List.mem_cons_of_mem _ he), hpath⟩
  reached := List.forall_mem_cons.2 (List.forall_mem_cons.1 h.reached)

/-- Entering a successor lengthens the path. -/
theorem push {n d : String} {ds : List String} (h : g.IsPath start (⟨n, d :: ds⟩ :: path)) :
    g.IsPath start (⟨d, g.next d⟩ :: ⟨n, ds⟩ :: path) where
  chain := by
    refine List.isChain_cons_cons.2 ⟨?_, h.skip.chain⟩
    exact h.remaining _ List.mem_cons_self d List.mem_cons_self
  remaining := List.forall_mem_cons.2 ⟨fun _ he => he, h.skip.remaining⟩
  reached := by
    refine List.forall_mem_cons.2 ⟨.inr ?_, h.skip.reached⟩
    have hedge : g.Edge n d := h.remaining _ List.mem_cons_self d List.mem_cons_self
    rcases (List.forall_mem_cons.1 h.reached).1 with rfl | hn
    · exact .edge hedge
    · exact hn.trans (.edge hedge)

/-- The names of a path lead to its innermost one. -/
theorem reaches_head (h : g.IsPath start (v :: path)) {u : Visit} (hu : u ∈ v :: path) :
    u.name = v.name ∨ g.Reaches u.name v.name := by
  induction path generalizing v with
  | nil =>
    obtain rfl := List.mem_singleton.1 hu
    exact .inl rfl
  | cons w path ih =>
    rcases List.mem_cons.1 hu with rfl | hu
    · exact .inl rfl
    · have hedge := (List.isChain_cons_cons.1 h.chain).1
      rcases ih h.tail hu with heq | hreach
      · exact .inr (heq ▸ .edge hedge)
      · exact .inr (hreach.trans (.edge hedge))

end IsPath

/-- A depth-first search puts the names that it enters before those already entered. -/
theorem suffix_searchCycles (g : Graph) (path : List Visit) (seen : List String) :
    seen <:+ (g.searchCycles path seen).2 := by
  fun_induction searchCycles g path seen with
  | case1 => exact List.suffix_rfl
  | case2 seen n outer ih => exact ih
  | case3 seen n d ds outer cycles seen' hsearch hany ih =>
    rw [if_pos hany, hsearch]
    rwa [hsearch] at ih
  | case4 seen n d ds outer hd hany ih =>
    rw [if_neg hany, if_pos hd]
    exact ih
  | case5 seen n d ds outer hd hany ih =>
    rw [if_neg hany, if_neg hd]
    exact (List.suffix_cons d seen).trans ih

/-- A depth-first search that reports any cycle has met a name that reaches itself. -/
private theorem exists_reaches_self_of_searchCycles {start : String} {path : List Visit}
    {seen : List String} (hpath : g.IsPath start path) (h : (g.searchCycles path seen).1 ≠ []) :
    ∃ d, (d = start ∨ g.Reaches start d) ∧ g.Reaches d d := by
  fun_induction searchCycles g path seen with
  | case1 => exact (h rfl).elim
  | case2 seen n outer ih => exact ih hpath.tail h
  | case3 seen n d ds outer cycles seen' hsearch hany ih =>
    obtain ⟨u, hu, hname⟩ := List.any_eq_true.1 hany
    obtain rfl : u.name = d := of_decide_eq_true hname
    have hedge : g.Edge n u.name := hpath.remaining _ List.mem_cons_self _ List.mem_cons_self
    refine ⟨u.name, hpath.reached u hu, ?_⟩
    rcases hpath.reaches_head hu with heq | hreach
    · change u.name = n at heq
      exact .edge (heq ▸ hedge)
    · exact hreach.trans (.edge hedge)
  | case4 seen n d ds outer hd hany ih =>
    rw [if_neg hany, if_pos hd] at h
    exact ih hpath.skip h
  | case5 seen n d ds outer hd hany ih =>
    rw [if_neg hany, if_neg hd] at h
    exact ih hpath.push h

/-- A cycle found from a start goes through a name that reaches itself. -/
theorem exists_reaches_self_of_cycleFrom? {start : String} {cycle : List String}
    (h : g.cycleFrom? start = some cycle) :
    ∃ d, (d = start ∨ g.Reaches start d) ∧ g.Reaches d d := by
  have hpath : g.IsPath start [⟨start, g.next start⟩] := by
    refine ⟨.singleton _, ?_, ?_⟩
    · simp [Edge]
    · simp
  have hfound : (g.searchCycles [⟨start, g.next start⟩] [start]).1 ≠ [] := by
    intro hnil
    rw [cycleFrom?, cyclesFrom, hnil] at h
    cases h
  exact exists_reaches_self_of_searchCycles hpath hfound

/-! ### Names without cycles -/

/-- Neither the name nor anything reached from it reaches itself. -/
def Settled (g : Graph) (a : String) : Prop := ∀ b, b = a ∨ g.Reaches a b → ¬g.Reaches b b

theorem Reaches.exists_first_edge {a c : String} (h : g.Reaches a c) :
    ∃ b, g.Edge a b ∧ (c = b ∨ g.Reaches b c) := by
  cases h with
  | edge hac => exact ⟨c, hac, .inl rfl⟩
  | step hab hbc => exact ⟨_, hab, .inr hbc⟩

/-- A name is settled once its successors are. -/
private theorem settled_of_forall_edge {a : String} (h : ∀ b, g.Edge a b → g.Settled b) :
    g.Settled a := by
  rintro c (rfl | hac) hself
  · obtain ⟨b, hb, hbc⟩ := hself.exists_first_edge
    exact h b hb c hbc hself
  · obtain ⟨b, hb, hbc⟩ := hac.exists_first_edge
    exact h b hb c hbc hself

/-- What a search without findings still has to settle. Along the path, every successor of a name is
settled, still to be looked at, or one of the names further in. -/
def Awaits (g : Graph) (inner : List String) : List Visit → Prop
  | [] => True
  | v :: outer =>
    (∀ b, g.Edge v.name b → b ∈ v.remaining ∨ b ∈ inner ∨ g.Settled b) ∧
      g.Awaits (v.name :: inner) outer

namespace Awaits

variable {inner inner' : List String} {path : List Visit}

/-- The names further in may be exchanged for others, up to settled ones. -/
theorem exchange (h : g.Awaits inner path) (hsub : ∀ b ∈ inner, b ∈ inner' ∨ g.Settled b) :
    g.Awaits inner' path := by
  induction path generalizing inner inner' with
  | nil => trivial
  | cons v outer ih =>
    obtain ⟨hedge, houter⟩ := h
    refine ⟨fun b hb => ?_, ih houter ?_⟩
    · rcases hedge b hb with hmem | hmem | hsettled
      · exact .inl hmem
      · exact .inr (hsub b hmem)
      · exact .inr (.inr hsettled)
    · refine List.forall_mem_cons.2 ⟨.inl List.mem_cons_self, fun b hb => ?_⟩
      exact (hsub b hb).imp_left (List.mem_cons_of_mem _)

/-- A successor that is settled, or further in, need not be looked at any more. -/
theorem skip {n d : String} {ds : List String} (h : g.Awaits inner (⟨n, d :: ds⟩ :: path))
    (hd : d ∈ inner ∨ g.Settled d) : g.Awaits inner (⟨n, ds⟩ :: path) := by
  refine ⟨fun b hb => ?_, h.2⟩
  rcases h.1 b hb with hmem | hrest
  · rcases List.mem_cons.1 hmem with rfl | hmem
    · exact .inr hd
    · exact .inl hmem
  · exact .inr hrest

/-- The innermost name is settled when nothing remains to be looked at. -/
theorem settled {n : String} (h : g.Awaits [] (⟨n, []⟩ :: path)) : g.Settled n := by
  refine settled_of_forall_edge fun b hb => ?_
  rcases h.1 b hb with hmem | hmem | hsettled
  · cases hmem
  · cases hmem
  · exact hsettled

end Awaits

/-- A depth-first search that reports nothing has settled everything it has entered. -/
theorem settled_of_searchCycles_eq_nil {path : List Visit} {seen : List String}
    (hpath : g.Awaits [] path) (hseen : ∀ a ∈ seen, (∃ v ∈ path, v.name = a) ∨ g.Settled a)
    (h : (g.searchCycles path seen).1 = []) : ∀ a ∈ (g.searchCycles path seen).2, g.Settled a := by
  fun_induction searchCycles g path seen with
  | case1 seen =>
    intro a ha
    rcases hseen a ha with ⟨v, hv, -⟩ | hsettled
    · cases hv
    · exact hsettled
  | case2 seen n outer ih =>
    have hn := hpath.settled
    refine ih (hpath.2.exchange (List.forall_mem_singleton.2 (.inr hn))) (fun a ha => ?_) h
    rcases hseen a ha with ⟨v, hv, rfl⟩ | hsettled
    · rcases List.mem_cons.1 hv with rfl | hv
      · exact .inr hn
      · exact .inl ⟨v, hv, rfl⟩
    · exact .inr hsettled
  | case3 seen n d ds outer cycles seen' hsearch hany =>
    rw [if_pos hany, hsearch] at h
    cases h
  | case4 seen n d ds outer hd hany ih =>
    rw [if_neg hany, if_pos hd] at h ⊢
    have hsettled : g.Settled d := by
      refine (hseen d hd).resolve_left ?_
      rintro ⟨v, hv, hname⟩
      exact hany (List.any_eq_true.2 ⟨v, hv, decide_eq_true hname⟩)
    refine ih (hpath.skip (.inr hsettled)) (fun a ha => ?_) h
    rcases hseen a ha with ⟨v, hv, rfl⟩ | hsettled
    · rcases List.mem_cons.1 hv with rfl | hv
      · exact .inl ⟨_, List.mem_cons_self, rfl⟩
      · exact .inl ⟨v, List.mem_cons_of_mem _ hv, rfl⟩
    · exact .inr hsettled
  | case5 seen n d ds outer hd hany ih =>
    rw [if_neg hany, if_neg hd] at h ⊢
    -- The name that is entered is now the one further in that its predecessor waits for.
    have hpushed : g.Awaits [] (⟨d, g.next d⟩ :: ⟨n, ds⟩ :: outer) := by
      refine ⟨fun b hb => .inl hb, ?_⟩
      have hinner : g.Awaits [d] (⟨n, d :: ds⟩ :: outer) := hpath.exchange nofun
      exact hinner.skip (.inl List.mem_cons_self)
    refine ih hpushed (List.forall_mem_cons.2 ⟨?_, fun a ha => ?_⟩) h
    · exact .inl ⟨_, List.mem_cons_self, rfl⟩
    · rcases hseen a ha with ⟨v, hv, rfl⟩ | hsettled
      · rcases List.mem_cons.1 hv with rfl | hv
        · exact .inl ⟨_, List.mem_cons_of_mem _ List.mem_cons_self, rfl⟩
        · exact .inl ⟨v, List.mem_cons_of_mem _ (List.mem_cons_of_mem _ hv), rfl⟩
      · exact .inr hsettled

/-- No cycle is found from a start exactly when none can be reached from it. -/
theorem cycleFrom?_eq_none_iff {start : String} : g.cycleFrom? start = none ↔ g.Settled start := by
  constructor
  · intro h
    have hnone : (g.searchCycles [⟨start, g.next start⟩] [start]).1 = [] :=
      List.head?_eq_none_iff.1 h
    have hpath : g.Awaits [] [⟨start, g.next start⟩] := ⟨fun b hb => .inl hb, trivial⟩
    have hstart : start ∈ (g.searchCycles [⟨start, g.next start⟩] [start]).2 :=
      (suffix_searchCycles g _ _).subset List.mem_cons_self
    refine settled_of_searchCycles_eq_nil hpath ?_ hnone start hstart
    exact List.forall_mem_singleton.2 (.inl ⟨_, List.mem_cons_self, rfl⟩)
  · intro h
    cases hcycle : g.cycleFrom? start with
    | none => rfl
    | some cycle =>
      obtain ⟨d, hd, hself⟩ := exists_reaches_self_of_cycleFrom? hcycle
      exact absurd hself (h d hd)

end ViewCompiler.Graph
