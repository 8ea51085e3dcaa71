import ViewCompiler.FileTree
import ViewCompiler.SourceFile
import ViewCompiler.Watch.Debouncer

/-!
# Watching files

A file watcher keeps the list of watched places and decides which raw events count. A directory that
appears is watched itself, with everything below it; any other event has to pass every filter.
-/

namespace ViewCompiler.Watch

open ViewCompiler.Text

/-- Why a place cannot be watched. -/
inductive WatchError where
  | path (fault : Path.Fault)
  | root (fault : Path.Fault)
  | walk (error : FileError)
  | entry (fault : FileFault)
  deriving DecidableEq, Repr

/-- The message for a place that cannot be watched. -/
def WatchError.message : WatchError → String
  | path fault => "invalid path: " ++ fault.message
  | root fault => "invalid root path: " ++ fault.message
  | walk error => error.message
  | entry fault => fault.message

/-- The watched places and the filters that events have to pass. -/
structure FileWatcher where
  /-- The watched places, sorted. -/
  watched : List String := []
  filters : List (String → Bool) := []

namespace FileWatcher

/-- Adds a filter. -/
def addFilter (w : FileWatcher) (filter : String → Bool) : FileWatcher :=
  { w with filters := w.filters ++ [filter] }

/-- Watches one place. -/
def add (w : FileWatcher) (files : FileTree) (path : String) : Except WatchError FileWatcher :=
  match Path.confine path with
  | .error fault => .error (.path fault)
  | .ok place =>
    match files.locate place with
    | .error fault => .error (.entry fault)
    | .ok _ => .ok { w with watched := insertSorted place w.watched }

/-- Watches a directory and all directories below it that are looked into. -/
def addRecursive (w : FileWatcher) (files : FileTree) (root : String) :
    Except WatchError FileWatcher :=
  match Path.confine root with
  | .error fault => .error (.root fault)
  | .ok place =>
    match files.walk place with
    | .error e => .error (.walk e)
    | .ok entries =>
      let directories :=
        entries.filterMap fun (path, e) => if e = .directory then some path else none
      .ok { w with watched := directories.foldl (fun ws d => insertSorted d ws) w.watched }

/-- Handles one raw event: gives the event that is passed on, if any, and what went wrong with
watching a new directory. -/
def handle (w : FileWatcher) (files : FileTree) (path : String) (bits : Nat) :
    FileWatcher × Option Event × Option WatchError :=
  match files.locate path with
  | .ok (_, .directory) =>
    if bits.testBit 0 && !FileTree.skipped.contains (Path.base path) then
      match w.addRecursive files path with
      | .ok w => (w, none, none)
      | .error e => (w, none, some e)
    else (w, none, none)
  | found =>
    if w.filters.all (· path) then
      let size := match found with | .ok (_, e) => e.size | .error _ => 0
      (w, some ⟨.ofBits bits, path, size⟩, none)
    else (w, none, none)

end FileWatcher

/-! ### Watching by looking

A watch may also compare the files with what they were a moment ago. Every difference then counts as
a raw event in a watched directory, and what passes the filters is handled as one batch. -/

/-- The path of an entry with the given parts. -/
def pathOf (parts : List String) : String :=
  match parts with
  | "/" :: rest => Path.ofParts true rest
  | parts => Path.ofParts false parts

/-- What has changed between two looks: the path and the bits of a raw event for each entry that is
new, different or gone. -/
def differences (before after : FileTree) : List (String × Nat) :=
  let changed := after.entries.filterMap fun (parts, e) =>
    match before.get? parts with
    | none => some (pathOf parts, 1)
    | some f => if e = f then none else some (pathOf parts, 2)
  let gone := before.entries.filterMap fun (parts, _) =>
    if (after.get? parts).isSome then none else some (pathOf parts, 4)
  changed ++ gone

/-- Hands the differences in watched directories to a watcher; gives what passes as one batch. -/
def FileWatcher.observe (w : FileWatcher) (before after : FileTree) : FileWatcher × List Event :=
  let (w, d) := (differences before after).foldl
    (fun ((w, d) : FileWatcher × Debouncer) (path, bits) =>
      if w.watched.contains (Path.directory path) then
        let (w, event, _) := w.handle after path bits
        (w, event.elim d d.add)
      else (w, d)) (w, {})
  (w, d.flush.receive.elim [] (·.1))

/-- Two looks at the same files show no difference. -/
theorem differences_eq_nil_of_forall_get? {t : FileTree}
    (h : ∀ p ∈ t.entries, t.get? p.1 = some p.2) : differences t t = [] := by
  simp only [differences, List.append_eq_nil_iff, List.filterMap_eq_nil_iff]
  exact ⟨fun p hp => by simp [h p hp], fun p hp => by simp [h p hp]⟩

end ViewCompiler.Watch
