import ViewCompiler.Text.Basic
import ViewCompiler.Variant

/-!
# Batches of file changes

Changes come in bursts. A debouncer keeps them until things have calmed down and then hands them on
as one batch: the last change of every path, sorted by path. Batches wait in a queue of bounded
length.
-/

namespace ViewCompiler.Watch

open ViewCompiler.Text

/-- What has happened to a file. -/
inductive EventKind where
  | created | modified | deleted | renamed
  deriving DecidableEq, Repr

namespace EventKind

/-- The name of a kind. -/
def name : EventKind → String
  | created => "created"
  | modified => "modified"
  | deleted => "deleted"
  | renamed => "renamed"

instance : Variant EventKind where
  all := [created, modified, deleted, renamed]
  name := name
  unknown _ := "unknown"

/-- The kind of a raw event, whose bits say what happened: created, written, removed, renamed. The
first bit that is set decides. -/
def ofBits (bits : Nat) : EventKind :=
  if bits.testBit 0 then created
  else if bits.testBit 1 then modified
  else if bits.testBit 2 then deleted
  else if bits.testBit 3 then renamed
  else modified

end EventKind

/-- A change of a file. When the file was last written is not part of it: nobody who is told of a
change reads that time. -/
structure Event where
  kind : EventKind
  path : String
  /-- The size of the file in bytes; 0 when it is gone. -/
  size : Int := 0
  deriving DecidableEq, Repr

/-- Puts an event in its place among events sorted by path, in the place of another one for that
path if there is any. -/
def placeEvent (e : Event) : List Event → List Event
  | [] => [e]
  | f :: fs =>
    if e.path < f.path then e :: f :: fs
    else if e.path = f.path then e :: fs
    else f :: placeEvent e fs

/-- The last event of every path, sorted by path. -/
def batch (events : List Event) : List Event := events.foldl (fun es e => placeEvent e es) []

/-- Changes that wait for things to calm down, and the batches that wait to be taken. -/
structure Debouncer where
  /-- The number of batches that may wait. -/
  capacity : Nat := 10
  /-- The changes since the last batch, in order. -/
  pending : List Event := []
  /-- The batches not yet taken, the oldest first. -/
  queue : List (List Event) := []
  deriving DecidableEq, Repr

namespace Debouncer

/-- Keeps a change. -/
def add (d : Debouncer) (e : Event) : Debouncer := { d with pending := d.pending ++ [e] }

/-- Makes one batch of the changes so far. A batch that finds no room in the queue is lost. -/
def flush (d : Debouncer) : Debouncer :=
  if d.pending.isEmpty then d
  else
    { d with
      pending := []
      queue := if d.queue.length < d.capacity then d.queue ++ [batch d.pending] else d.queue }

/-- Takes the oldest batch. -/
def receive (d : Debouncer) : Option (List Event × Debouncer) :=
  match d.queue with
  | [] => none
  | b :: bs => some (b, { d with queue := bs })

end Debouncer

end ViewCompiler.Watch
