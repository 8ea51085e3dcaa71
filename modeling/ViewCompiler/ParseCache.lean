import ViewCompiler.Template.Node

/-!
# Parsed templates kept for later

Parsed templates by component name, the most recently used first. An entry is only used while the
digest of the sources is the one it was stored with; a component without a digest is never kept.
When there is no room for a new name, the least recently used entries go.
-/

namespace ViewCompiler

open ViewCompiler.Template

/-- A template kept for a component. -/
structure ParseCache.Entry where
  name : String
  hash : String
  nodes : List Node
  deriving Repr

/-- Parsed templates, the most recently used first. -/
structure ParseCache where
  /-- The number of entries there is room for. -/
  room : Nat
  entries : List ParseCache.Entry := []
  hits : Nat := 0
  misses : Nat := 0
  evictions : Nat := 0
  deriving Repr

namespace ParseCache

/-- An empty cache. There is always room for one entry. -/
def ofSize (size : Int) : ParseCache := { room := max 1 size.toNat }

/-- The number of templates kept. -/
def size (c : ParseCache) : Nat := c.entries.length

/-- The entry of a name. -/
def entry? (c : ParseCache) (name : String) : Option Entry := c.entries.find? (·.name = name)

/-- The entries of all other names. -/
def others (c : ParseCache) (name : String) : List Entry := c.entries.filter (·.name ≠ name)

/-- The entry that answers a request. -/
def hit? (c : ParseCache) (name hash : String) : Option Entry :=
  (c.entry? name).filter fun e => hash ≠ "" && e.hash = hash

/-- Looks a template up. A hit becomes the most recently used entry. -/
def get (c : ParseCache) (name hash : String) : Option (List Node) × ParseCache :=
  match c.hit? name hash with
  | some e => (some e.nodes, { c with entries := e :: c.others name, hits := c.hits + 1 })
  | none => (none, { c with misses := c.misses + 1 })

/-- Keeps a template. -/
def set (c : ParseCache) (name hash : String) (nodes : List Node) : ParseCache :=
  if hash = "" then c
  else if (c.entry? name).isSome then { c with entries := ⟨name, hash, nodes⟩ :: c.others name }
  else
    let kept := c.entries.take (c.room - 1)
    { c with
      entries := ⟨name, hash, nodes⟩ :: kept
      evictions := c.evictions + (c.entries.length - kept.length) }

/-- Forgets a template. -/
def erase (c : ParseCache) (name : String) : ParseCache := { c with entries := c.others name }

end ParseCache

end ViewCompiler
