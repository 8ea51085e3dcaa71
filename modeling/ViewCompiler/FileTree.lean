import ViewCompiler.Path

/-!
# File trees

The files that a run works on, as a value: every file and directory below the working directory, by
the parts of its path. Entries are sorted by their parts, so a directory stands right before what it
holds, and every directory above an entry is an entry itself. What lies above the root of the tree
does not exist; an absolute path starts with the part `/`.

What goes wrong is told in the words of the operating system.
-/

namespace ViewCompiler

open ViewCompiler.Text

/-- Why a file or directory cannot be used. -/
inductive FileFault where
  | missing
  | notDirectory
  | isDirectory
  | invalid
  deriving DecidableEq, Repr

/-- The message for a fault. -/
def FileFault.message : FileFault → String
  | missing => "no such file or directory"
  | notDirectory => "not a directory"
  | isDirectory => "is a directory"
  | invalid => "invalid argument"

/-- A failed operation on a path. -/
structure FileError where
  operation : String
  path : String
  fault : FileFault
  deriving DecidableEq, Repr

/-- The message for a failed operation. -/
def FileError.message (e : FileError) : String :=
  e.operation ++ " " ++ e.path ++ ": " ++ e.fault.message

/-- A file or a directory. -/
inductive FileEntry where
  | directory
  | file (content : String)
  deriving DecidableEq, Repr

/-- The number of bytes of a file; directories have none. -/
def FileEntry.size : FileEntry → Nat
  | directory => 0
  | file content => content.utf8ByteSize

/-- The files and directories below the working directory. -/
structure FileTree where
  entries : List (List String × FileEntry) := []
  deriving Repr

namespace FileTree

/-! ### Entries -/

/-- Puts an entry in its place, in the place of another one with the same parts if there is any. -/
def place (parts : List String) (e : FileEntry) :
    List (List String × FileEntry) → List (List String × FileEntry)
  | [] => [(parts, e)]
  | (q, f) :: rest =>
    if parts < q then (parts, e) :: (q, f) :: rest
    else if parts = q then (parts, e) :: rest
    else (q, f) :: place parts e rest

/-- The entry with the given parts. The working directory and the root are always there. -/
def get? (t : FileTree) (parts : List String) : Option FileEntry :=
  if parts.isEmpty || parts = ["/"] then some .directory else t.entries.lookup parts

/-- Every non-empty beginning of a path, the shortest first. -/
def ancestors (parts : List String) : List (List String) :=
  ((List.range parts.length).map fun n => parts.take n).filter (!·.isEmpty)

/-- Adds an entry and the directories above it. -/
def insert (t : FileTree) (parts : List String) (e : FileEntry) : FileTree :=
  let above := (ancestors parts).filter fun q => (t.get? q).isNone
  ⟨place parts e (above.foldl (fun es q => place q .directory es) t.entries)⟩

/-- Takes an entry away. -/
def erase (t : FileTree) (parts : List String) : FileTree :=
  ⟨t.entries.filter (·.1 ≠ parts)⟩

/-! ### Paths -/

/-- Follows a path from an entry, part by part. The parts so far are kept with the last one
first. -/
def follow (t : FileTree) : List String → List String → Except FileFault (List String × FileEntry)
  | taken, [] => (t.get? taken.reverse).elim (.error .missing) fun e => .ok (taken.reverse, e)
  | taken, part :: rest =>
    match t.get? taken.reverse with
    | none => .error .missing
    | some (.file _) => .error .notDirectory
    | some .directory =>
      if part = "" || part = "." then t.follow taken rest
      else if part = ".." then
        match taken with
        | [] => .error .missing
        | _ :: above => t.follow above rest
      else t.follow (part :: taken) rest

/-- The entry that a path leads to, with its parts. -/
def locate (t : FileTree) (path : String) : Except FileFault (List String × FileEntry) :=
  if Path.hasNul path then .error .invalid
  else if path = "" then .error .missing
  else if Path.isAbsolute path then t.follow ["/"] (Path.parts path)
  else t.follow [] (Path.parts path)

/-- The entry that a path leads to, or why the named operation fails. -/
def look (t : FileTree) (operation path : String) : Except FileError FileEntry :=
  (t.locate path).map (·.2) |>.mapError fun fault => ⟨operation, path, fault⟩

/-- Whether a path leads to anything. -/
def contains (t : FileTree) (path : String) : Bool := (t.locate path).toBool

/-- Whether a path leads to a directory. -/
def isDirectory (t : FileTree) (path : String) : Bool :=
  match t.locate path with
  | .ok (_, .directory) => true
  | _ => false

/-- The text of a file. -/
def read (t : FileTree) (path : String) : Except FileError String :=
  match t.look "open" path with
  | .error e => .error e
  | .ok .directory => .error ⟨"read", path, .isDirectory⟩
  | .ok (.file content) => .ok content

/-- The parts of the entry that a path is meant for, by its text alone. -/
def partsOf (path : String) : List String :=
  if Path.isAbsolute path then "/" :: Path.resolved path else Path.resolved path

/-- Writes a file, with the directories above it. -/
def write (t : FileTree) (path content : String) : FileTree :=
  t.insert (partsOf path) (.file content)

/-- Adds a directory, with those above it. -/
def addDirectory (t : FileTree) (path : String) : FileTree :=
  match t.get? (partsOf path) with
  | some _ => t
  | none => t.insert (partsOf path) .directory

/-- Makes sure that a directory exists. It does not where an entry on the way is a file. -/
def makeDirectory (t : FileTree) (path : String) : Except FileError FileTree :=
  let parts := partsOf path
  match (ancestors parts ++ [parts]).find? fun q => (t.get? q).any (· ≠ .directory) with
  | some q =>
    let blocked := if Path.isAbsolute path then q.tail else q
    .error ⟨"mkdir", Path.ofParts (Path.isAbsolute path) blocked, .notDirectory⟩
  | none => .ok (t.addDirectory path)

/-- Takes a file away. -/
def remove (t : FileTree) (path : String) : FileTree := t.erase (partsOf path)

/-! ### Walking -/

/-- The directories that are never looked into. -/
def skipped : List String := [".git", "vendor", "node_modules"]

/-- The entries from a directory or file on down, each with its path: an entry before what it holds,
the names of a directory in order. Directories that are never looked into are left out, unless the
walk starts there. -/
def walk (t : FileTree) (root : String) : Except FileError (List (String × FileEntry)) :=
  match t.locate root with
  | .error fault => .error ⟨"lstat", root, fault⟩
  | .ok (top, e) =>
    let below := t.entries.filterMap fun (parts, e) =>
      if top.isPrefixOf parts && top ≠ parts then
        let rest := parts.drop top.length
        let directories := match e with | .directory => rest | .file _ => rest.dropLast
        if directories.any skipped.contains then none
        else some (Path.clean (root ++ "/" ++ join "/" rest), e)
      else none
    .ok ((root, e) :: below)

end FileTree

end ViewCompiler
