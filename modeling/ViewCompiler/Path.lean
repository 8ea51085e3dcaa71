import ViewCompiler.Text.Basic

/-!
# Paths

Paths are written with slashes. `Path.clean` resolves a path by its text alone: empty parts and `.`
vanish, and `..` takes away the part before it. What is left of `..` stands in front, and only in
front of a relative path: such a path leads out of the directory it starts from, and `Path.confine`
refuses it.
-/

namespace ViewCompiler.Path

open ViewCompiler.Text

/-- The parts between the slashes. -/
def parts (path : String) : List String := split '/' path

/-- Whether a path starts from the root. -/
def isAbsolute (path : String) : Bool := hasPrefix "/" path

/-! ### Cleaning -/

/-- Takes one part of a path. The parts so far are kept with the last one first. -/
def step (absolute : Bool) (taken : List String) (part : String) : List String :=
  if part = "" || part = "." then taken
  else if part = ".." then
    match taken with
    | [] => if absolute then [] else [".."]
    | last :: rest => if last = ".." then ".." :: last :: rest else rest
  else part :: taken

/-- The parts of a path after resolving it by its text alone. -/
def resolved (path : String) : List String :=
  ((parts path).foldl (step (isAbsolute path)) []).reverse

/-- The path with the given parts. -/
def ofParts (absolute : Bool) (ps : List String) : String :=
  if absolute then "/" ++ join "/" ps
  else if ps.isEmpty then "." else join "/" ps

/-- The shortest path that means the same by its text alone. -/
def clean (path : String) : String := ofParts (isAbsolute path) (resolved path)

/-! ### Parts of a path -/

/-- The last part of a path, slashes at its end aside. -/
def base (path : String) : String :=
  if path = "" then "."
  else
    let name := ((dropTrailing (· = '/') path.toList).reverse.takeWhile (· ≠ '/')).reverse
    if name.isEmpty then "/" else String.ofList name

/-- The directory of a path: what precedes its last slash. -/
def directory (path : String) : String :=
  clean (String.ofList (dropTrailing (· ≠ '/') path.toList))

/-- The end of the last part from its last dot on. -/
def extension (path : String) : String :=
  let name := path.toList.reverse.takeWhile (· ≠ '/')
  if name.contains '.' then String.ofList ('.' :: (name.takeWhile (· ≠ '.')).reverse) else ""

/-- The path of an entry of a directory. -/
def child (directory name : String) : String := clean (directory ++ "/" ++ name)

/-- What is left of two lists after their common beginning. -/
def afterCommon : List String → List String → List String × List String
  | a :: as, b :: bs => if a = b then afterCommon as bs else (a :: as, b :: bs)
  | as, bs => (as, bs)

/-- The way from a directory to a path, where the texts of both tell it. -/
def relative? (directory path : String) : Option String :=
  if isAbsolute directory ≠ isAbsolute path then none
  else
    let (up, down) := afterCommon (resolved directory) (resolved path)
    if up.contains ".." then none else some (ofParts false (up.map (fun _ => "..") ++ down))

/-! ### Confined paths -/

/-- Why a path is refused. -/
inductive Fault where
  | nul
  | escape (path : String)
  deriving DecidableEq, Repr

/-- The message for a refused path. -/
def Fault.message : Fault → String
  | nul => "path contains a NUL byte"
  | escape path => "path contains directory traversal: " ++ path

/-- Whether a path holds the null character. -/
def hasNul (path : String) : Bool := path.toList.any (·.toNat = 0)

/-- Whether a path leads out of the directory it starts from. -/
def escapes (path : String) : Bool := (parts (clean path)).contains ".."

/-- The clean form of a path that stays below the directory it starts from. -/
def confine (path : String) : Except Fault String :=
  if hasNul path then .error .nul
  else if escapes path then .error (.escape path)
  else .ok (clean path)

theorem confine_eq_ok_iff {path q : String} :
    confine path = .ok q ↔ hasNul path = false ∧ escapes path = false ∧ q = clean path := by
  unfold confine
  cases hn : hasNul path <;> cases he : escapes path <;> simp [eq_comm]

end ViewCompiler.Path
