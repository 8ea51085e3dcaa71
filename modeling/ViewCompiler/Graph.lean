import ViewCompiler.Text.Basic

/-!
# Named graphs

Methods call methods and components use components: both are finite graphs whose nodes are names.
A graph is given by the successors of some names; every other name has none. Searches keep the
names they have entered and end because each of them is entered once.
-/

namespace ViewCompiler

open ViewCompiler.Text

/-! ### Names not yet seen -/

/-- The names of a list that do not occur among `seen`. -/
def unseen (names seen : List String) : List String := names.filter (!seen.contains ·)

private theorem length_unseen_cons_le (names : List String) (n : String) (seen : List String) :
    (unseen names (n :: seen)).length ≤ (unseen names seen).length := by
  unfold unseen
  rw [← List.countP_eq_length_filter, ← List.countP_eq_length_filter]
  apply List.countP_mono_left
  intro x _ h
  simp_all

/-- Seeing one more of the names leaves fewer of them. -/
theorem length_unseen_cons_lt {names : List String} {n : String} {seen : List String}
    (hn : n ∈ names) (hs : n ∉ seen) :
    (unseen names (n :: seen)).length < (unseen names seen).length := by
  induction names with
  | nil => simp at hn
  | cons a l ih =>
    have hle := length_unseen_cons_le l n seen
    unfold unseen at hle ih ⊢
    by_cases ha : a = n
    · subst ha
      have hle' := Nat.lt_succ_of_le hle
      simpa [hs] using hle'
    · have hm : n ∈ l := by
        rcases List.mem_cons.1 hn with h | h
        · exact absurd h.symm ha
        · exact h
      have := ih hm
      by_cases has : a ∈ seen
      · simpa [List.filter_cons, ha, has] using this
      · simpa [List.filter_cons, ha, has] using this

/-! ### Graphs -/

/-- The successors of each listed name. -/
structure Graph where
  edges : List (String × List String)
  deriving Repr

namespace Graph

/-- The names that have successors listed. -/
def names (g : Graph) : List String := g.edges.map (·.1)

/-- The successors of a name. -/
def next (g : Graph) (n : String) : List String := (g.edges.lookup n).getD []

/-- There is an edge from `a` to `b`. -/
def Edge (g : Graph) (a b : String) : Prop := b ∈ g.next a

/-- `b` is reached from `a` by one or more edges. -/
inductive Reaches (g : Graph) : String → String → Prop where
  | edge {a b : String} : g.Edge a b → Reaches g a b
  | step {a b c : String} : g.Edge a b → Reaches g b c → Reaches g a c

/-- A name without listed successors has none. -/
theorem next_eq_nil_of_not_mem {g : Graph} {n : String} (h : n ∉ g.names) : g.next n = [] := by
  have : g.edges.lookup n = none := by
    rw [List.lookup_eq_none_iff]
    intro p hp
    have : p.1 ∈ g.names := List.mem_map_of_mem hp
    simp only [bne_iff_ne, ne_eq]
    intro heq
    exact h (heq ▸ this)
  simp [next, this]

/-- The listed names that a search has not entered yet. -/
def fresh (g : Graph) (seen : List String) : List String := unseen g.names seen

private theorem length_fresh_cons_le (g : Graph) (n : String) (seen : List String) :
    (g.fresh (n :: seen)).length ≤ (g.fresh seen).length :=
  length_unseen_cons_le g.names n seen

private theorem length_fresh_cons_lt {g : Graph} {n : String} {seen : List String}
    (hn : n ∈ g.names) (hs : n ∉ seen) : (g.fresh (n :: seen)).length < (g.fresh seen).length :=
  length_unseen_cons_lt hn hs

/-! ### Reachability -/

/-- Adds everything reached from the pending names to the names already seen. -/
def explore (g : Graph) (pending seen : List String) : List String :=
  match pending with
  | [] => seen
  | n :: rest =>
    if n ∈ seen then explore g rest seen else explore g (g.next n ++ rest) (n :: seen)
termination_by ((g.fresh seen).length, pending.length)
decreasing_by
  · simp [Prod.lex_def]
  · by_cases hn : n ∈ g.names
    · rename_i hs
      have := length_fresh_cons_lt hn hs
      simp [Prod.lex_def, this]
    · have := length_fresh_cons_le g n seen
      simp only [next_eq_nil_of_not_mem hn, List.nil_append, List.length_cons, Prod.lex_def]
      omega

/-- Everything reached from a name by one or more edges, sorted. -/
def reachable (g : Graph) (start : String) : List String := sortedSet (g.explore (g.next start) [])

/-! ### Cycles -/

/-- A name on the path of a search with the successors it still has to look at. -/
structure Visit where
  name : String
  remaining : List String

/-- The work that a path still holds. -/
def Visit.weight : List Visit → Nat
  | [] => 0
  | v :: path => 2 * v.remaining.length + 1 + weight path

/-- The cycle closed by an edge from the innermost name of a path back to `n`. -/
def closeCycle (path : List Visit) (n : String) : List String :=
  (path.map (·.name)).takeWhile (· ≠ n) ++ [n] |>.reverse |> (· ++ [n])

/-- Depth-first search for cycles. `path` holds the names from the current one outwards, `seen` all
names ever entered; gives the cycles in the order they are closed, and the names entered. -/
def searchCycles (g : Graph) (path : List Visit) (seen : List String) :
    List (List String) × List String :=
  match path with
  | [] => ([], seen)
  | ⟨_, []⟩ :: outer => searchCycles g outer seen
  | ⟨n, d :: ds⟩ :: outer =>
    if path.any (·.name = d) then
      let (cycles, seen) := searchCycles g (⟨n, ds⟩ :: outer) seen
      (closeCycle path d :: cycles, seen)
    else if d ∈ seen then searchCycles g (⟨n, ds⟩ :: outer) seen
    else searchCycles g (⟨d, g.next d⟩ :: ⟨n, ds⟩ :: outer) (d :: seen)
termination_by ((g.fresh seen).length, Visit.weight path)
decreasing_by
  · simp [Prod.lex_def, Visit.weight]
  · simp [Prod.lex_def, Visit.weight]
  · simp [Prod.lex_def, Visit.weight]
  · by_cases hd : d ∈ g.names
    · rename_i hs
      have := length_fresh_cons_lt hd hs
      simp [Prod.lex_def, this]
    · have := length_fresh_cons_le g d seen
      simp only [next_eq_nil_of_not_mem hd, Visit.weight, Prod.lex_def, List.length_cons,
        List.length_nil]
      omega

/-- The cycles found from one start, and the names entered. -/
def cyclesFrom (g : Graph) (start : String) (seen : List String) :
    List (List String) × List String :=
  g.searchCycles [⟨start, g.next start⟩] (start :: seen)

/-- The first cycle reachable from a name. -/
def cycleFrom? (g : Graph) (start : String) : Option (List String) :=
  (g.cyclesFrom start []).1.head?

/-- The cycles found from a list of starts, each name being entered once. -/
def cyclesOver (g : Graph) : List String → List String → List (List String)
  | [], _ => []
  | n :: ns, seen =>
    if n ∈ seen then cyclesOver g ns seen
    else
      let (cycles, seen) := g.cyclesFrom n seen
      cycles ++ cyclesOver g ns seen

/-- The cycles of a graph, each reported once and closed by repeating its first name. -/
def cycles (g : Graph) : List (List String) := g.cyclesOver (sortedSet g.names) []

/-! ### Order -/

/-- Depth-first search that lists a name once all its successors are listed. -/
def searchOrder (g : Graph) (path : List Visit) (seen : List String) : List String × List String :=
  match path with
  | [] => ([], seen)
  | ⟨n, []⟩ :: outer =>
    let (order, seen) := searchOrder g outer seen
    (n :: order, seen)
  | ⟨n, d :: ds⟩ :: outer =>
    if d ∈ seen then searchOrder g (⟨n, ds⟩ :: outer) seen
    else searchOrder g (⟨d, g.next d⟩ :: ⟨n, ds⟩ :: outer) (d :: seen)
termination_by ((g.fresh seen).length, Visit.weight path)
decreasing_by
  · simp [Prod.lex_def, Visit.weight]
  · simp [Prod.lex_def, Visit.weight]
  · by_cases hd : d ∈ g.names
    · rename_i hs
      have := length_fresh_cons_lt hd hs
      simp [Prod.lex_def, this]
    · have := length_fresh_cons_le g d seen
      simp only [next_eq_nil_of_not_mem hd, Visit.weight, Prod.lex_def, List.length_cons,
        List.length_nil]
      omega

/-- The order found from a list of starts, each name being entered once. -/
def orderOver (g : Graph) : List String → List String → List String
  | [], _ => []
  | n :: ns, seen =>
    if n ∈ seen then orderOver g ns seen
    else
      let (order, seen) := g.searchOrder [⟨n, g.next n⟩] (n :: seen)
      order ++ orderOver g ns seen

/-- Every name after the names it leads to, or a cycle that forbids it. -/
def topologicalOrder (g : Graph) : Except (List String) (List String) :=
  match g.cycles with
  | cycle :: _ => .error cycle
  | [] => .ok (g.orderOver (sortedSet g.names) [])

end Graph

end ViewCompiler
