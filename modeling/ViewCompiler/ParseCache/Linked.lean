import Std.Data.HashMap
import ViewCompiler.ParseCache

/-!
# A cache of linked cells

The same cache for many templates: an index leads from a name to the cell of its entry, and the
cells point at each other, so that no request goes through all entries. The cells form a list
between two that hold no entry, `front` and `back`; the entry behind `front` is the most recently
used one. Cells stand in a memory and are known by their addresses. A request gives no result where
a cell points nowhere though it has to point at another one.
-/

namespace ViewCompiler

open ViewCompiler.Template

/-! ### Cells -/

/-- A cell, and the addresses of its neighbours. -/
structure Cell where
  entry : ParseCache.Entry
  previous : Option Nat := none
  next : Option Nat := none
  deriving Repr

/-- Cells by their addresses. -/
abbrev Memory := Array Cell

namespace Memory

/-- The address of the cell in front of all entries. -/
def front : Nat := 0

/-- The address of the cell behind all entries. -/
def back : Nat := 1

/-- The address that a cell has for the one behind it. -/
def next? (m : Memory) (a : Nat) : Option Nat := m[a]?.bind (·.next)

/-- The address that a cell has for the one in front of it. -/
def previous? (m : Memory) (a : Nat) : Option Nat := m[a]?.bind (·.previous)

/-- The entry of a cell. -/
def entryAt? (m : Memory) (a : Nat) : Option ParseCache.Entry := m[a]?.map (·.entry)

/-- Changes the cell at an address, if there is one. -/
def update? (m : Memory) (a : Nat) (change : Cell → Cell) : Option Memory :=
  if a < m.size then some (m.modify a change) else none

/-- Lets a cell point at the one behind it. -/
def setNext? (m : Memory) (a : Nat) (b : Option Nat) : Option Memory :=
  m.update? a fun c => { c with next := b }

/-- Lets a cell point at the one in front of it. -/
def setPrevious? (m : Memory) (a : Nat) (b : Option Nat) : Option Memory :=
  m.update? a fun c => { c with previous := b }

/-- Takes a cell out of the list: its neighbours point at each other. -/
def unlink? (m : Memory) (a : Nat) : Option Memory := do
  let m ← m.setNext? (← m.previous? a) (m.next? a)
  m.setPrevious? (← m.next? a) (m.previous? a)

/-- Puts a cell in front of all others. -/
def linkFirst? (m : Memory) (a : Nat) : Option Memory := do
  let m ← m.setPrevious? a (some front)
  let m ← m.setNext? a (m.next? front)
  let m ← m.setPrevious? (← m.next? front) (some a)
  m.setNext? front (some a)

/-- Moves a cell in front of all others. -/
def moveFirst? (m : Memory) (a : Nat) : Option Memory := do (← m.unlink? a).linkFirst? a

end Memory

/-! ### Requests -/

/-- A cache whose entries stand in linked cells. -/
structure LinkedCache where
  /-- The number of entries there is room for. -/
  room : Nat
  memory : Memory
  /-- The address of the cell of each name. -/
  index : Std.HashMap String Nat := {}
  hits : Nat := 0
  misses : Nat := 0
  evictions : Nat := 0

namespace LinkedCache

open Memory

/-- What stands in the cells at both ends. -/
def noEntry : ParseCache.Entry := ⟨"", "", []⟩

/-- An empty cache. There is always room for one entry. -/
def ofSize (size : Int) : LinkedCache where
  room := max 1 size.toNat
  memory := #[{ entry := noEntry, next := some back }, { entry := noEntry, previous := some front }]

/-- The number of templates kept. -/
def size (c : LinkedCache) : Nat := c.index.size

/-- A request that the cache cannot answer. -/
def miss (c : LinkedCache) : Option (List Node) × LinkedCache :=
  (none, { c with misses := c.misses + 1 })

/-- Looks a template up. A hit becomes the most recently used entry. -/
def get? (c : LinkedCache) (name hash : String) : Option (Option (List Node) × LinkedCache) :=
  match c.index[name]? with
  | none => some c.miss
  | some a => do
    let entry ← c.memory.entryAt? a
    if hash = "" ∨ entry.hash ≠ hash then return c.miss
    let memory ← c.memory.moveFirst? a
    return (some entry.nodes, { c with memory, hits := c.hits + 1 })

/-- Gives up the least recently used entries until there is room for a new one. One goes in each
round, so that there are never more rounds than entries. -/
def makeRoom? : Nat → LinkedCache → Option LinkedCache
  | 0, _ => none
  | rounds + 1, c => do
    if c.size < c.room then return c
    let a ← c.memory.previous? back
    if a = front then return c
    let entry ← c.memory.entryAt? a
    let memory ← c.memory.unlink? a
    makeRoom? rounds
      { c with memory, index := c.index.erase entry.name, evictions := c.evictions + 1 }

/-- Keeps a template. -/
def set? (c : LinkedCache) (name hash : String) (nodes : List Node) : Option LinkedCache :=
  if hash = "" then some c
  else match c.index[name]? with
    | some a => do
      let memory ← c.memory.update? a fun cell =>
        { cell with entry := { cell.entry with hash, nodes } }
      return { c with memory := ← memory.moveFirst? a }
    | none => do
      let c ← c.makeRoom? (c.size + 1)
      let a := c.memory.size
      let memory ← linkFirst? (c.memory.push { entry := ⟨name, hash, nodes⟩ }) a
      return { c with memory, index := c.index.insert name a }

/-- Forgets a template. -/
def erase? (c : LinkedCache) (name : String) : Option LinkedCache :=
  match c.index[name]? with
  | none => some c
  | some a => do
    return { c with memory := ← c.memory.unlink? a, index := c.index.erase name }

end LinkedCache

end ViewCompiler
