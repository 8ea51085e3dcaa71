/-!
# Keyed reconciliation plans

A repeating view is rendered from a list of keys. When the keys change, a `Plan` says which
instance of the previous list each position of the next list reuses, which previous instances
are removed, and which reused instances have to move. The instances that stay in place form a
longest run of previous positions already in increasing order, so as few as possible move.
-/

namespace ViewCompiler.Reconcile

/-- How to turn one key list into another. -/
structure Plan where
  /-- For each next position the previous position it reuses; `none` creates an instance. -/
  reuse : List (Option Nat)
  /-- The previous positions without counterpart, ascending. -/
  removed : List Nat
  /-- The next positions whose reused instance has to move, ascending. -/
  moved : List Nat
  deriving DecidableEq, Repr

/-- A key that occurs twice in one list, with its first two positions. -/
structure DuplicateKey (κ : Type) where
  key : κ
  first : Nat
  again : Nat
  deriving DecidableEq, Repr

/-- The message for a repeated key. -/
def DuplicateKey.message {κ : Type} [ToString κ] (d : DuplicateKey κ) : String :=
  s!"duplicate key {d.key} at positions {d.first} and {d.again}"

namespace Plan

/-- The next positions that need a new instance. -/
def created (p : Plan) : List Nat :=
  p.reuse.zipIdx.filterMap fun (r, i) => if r.isNone then some i else none

/-- Whether the plan keeps every instance where it is. -/
def isNoop (p : Plan) : Bool :=
  p.removed.isEmpty && p.moved.isEmpty && p.reuse.zipIdx.all fun (r, i) => r == some i

end Plan

/-! ### Repeated keys -/

/-- The position of the first occurrence of a key. -/
def position? {κ : Type} [DecidableEq κ] (k : κ) (keys : List κ) : Option Nat :=
  keys.findIdx? (· = k)

/-- The smallest position whose key occurred before, given the keys already passed, last one
first. -/
def firstDuplicateFrom {κ : Type} [DecidableEq κ] (seen : List κ) : List κ → Option (DuplicateKey κ)
  | [] => none
  | k :: ks =>
    match position? k seen.reverse with
    | some i => some ⟨k, i, seen.length⟩
    | none => firstDuplicateFrom (k :: seen) ks

/-- The first repetition in a key list. -/
def firstDuplicate {κ : Type} [DecidableEq κ] (keys : List κ) : Option (DuplicateKey κ) :=
  firstDuplicateFrom [] keys

/-! ### Moves -/

/-- A reused instance: its next and its previous position. -/
structure Reused where
  next : Nat
  previous : Nat

/-- Puts an instance on top of the first run whose top is not smaller, extending the run before
it. Runs are kept by length, each the smallest-ending increasing run of its length, last
instance first. -/
def extendRuns (r : Reused) (below : List Reused) : List (List Reused) → List (List Reused)
  | [] => [r :: below]
  | run :: runs =>
    if run.head?.any (r.previous ≤ ·.previous) then (r :: below) :: runs
    else run :: extendRuns r run runs

/-- A longest run of reused instances whose previous positions increase, last one first. -/
def longestRun (rs : List Reused) : List Reused :=
  (rs.foldl (fun runs r => extendRuns r [] runs) []).getLast?.getD []

/-- The reused positions of a reuse list, ascending. -/
def reusedPositions (reuse : List (Option Nat)) : List Reused :=
  reuse.zipIdx.filterMap fun (r, i) => r.map fun j => ⟨i, j⟩

/-- The reused next positions outside the longest run. -/
def moves (reuse : List (Option Nat)) : List Nat :=
  let rs := reusedPositions reuse
  let stable := (longestRun rs).map (·.next)
  (rs.map (·.next)).filter (!stable.contains ·)

/-! ### The plan -/

/-- The plan for two lists without repeated keys. -/
def planOf {κ : Type} [DecidableEq κ] (prev next : List κ) : Plan :=
  let reuse := next.map (position? · prev)
  { reuse
    removed := (List.range prev.length).filter fun j => !reuse.contains (some j)
    moved := moves reuse }

/-- The plan that turns `prev` into `next`, unless a key is repeated in one of them. -/
def diff {κ : Type} [DecidableEq κ] (prev next : List κ) : Except (DuplicateKey κ) Plan :=
  match firstDuplicate prev with
  | some d => .error d
  | none =>
    match firstDuplicate next with
    | some d => .error d
    | none => .ok (planOf prev next)

/-- The keys of an unkeyed view, whose instances are matched by position. -/
def positions (n : Nat) : List Nat := List.range n

end ViewCompiler.Reconcile
