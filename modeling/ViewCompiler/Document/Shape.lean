import ViewCompiler.Document.Basic

/-!
# Documents of a given shape

Reading strings, integers, truth values, lists and records out of the nodes of a document, whatever
its format. A node without a value stands for whatever would be there without it: a field keeps its
default. Records refuse fields they do not know.
-/

namespace ViewCompiler.Document

/-- Why a text gives no document. -/
inductive ReadError where
  /-- There is nothing to read. -/
  | endOfText
  | malformed
  /-- The document does not have the expected shape. -/
  | mismatch
  deriving DecidableEq, Repr

/-- The message for a text that gives no document. -/
def ReadError.message : ReadError → String
  | endOfText => "EOF"
  | malformed => "malformed document"
  | mismatch => "unexpected value"

/-- The nodes of a format. Every reader gives nothing for a node without a value. -/
class Readable (ν : Type) where
  string? : ν → Except ReadError (Option String)
  integer? : ν → Except ReadError (Option Int)
  flag? : ν → Except ReadError (Option Bool)
  items? : ν → Except ReadError (Option (List ν))
  /-- Whether an item without a value is dropped; otherwise it stands for a default. -/
  dropsEmptyItems : Bool
  /-- The fields of a record, all of which have to be among the known ones. -/
  fields? : (known : List String) → ν → Except ReadError (Option (List (String × ν)))

namespace Readable

variable {ν : Type} [Readable ν] {α : Type}

/-- A list. -/
def list? (default : α) (item? : ν → Except ReadError (Option α)) (n : ν) :
    Except ReadError (Option (List α)) := do
  match ← items? n with
  | none => return none
  | some items =>
    let found ← items.mapM item?
    return some (if dropsEmptyItems ν then found.filterMap id else found.map (·.getD default))

/-- A list of strings. -/
def strings? (n : ν) : Except ReadError (Option (List String)) := list? "" string? n

/-- The value of a field, if it is given. -/
def field? (fields : List (String × ν)) (name : String) (read? : ν → Except ReadError (Option α)) :
    Except ReadError (Option α) :=
  match fields.lookup name with
  | none => .ok none
  | some n => read? n

/-- The value of a field, or its default. -/
def field (fields : List (String × ν)) (name : String) (default : α)
    (read? : ν → Except ReadError (Option α)) : Except ReadError α := do
  return (← field? fields name read?).getD default

/-- A record whose fields are read by `build`. -/
def record? (known : List String) (build : List (String × ν) → Except ReadError α) (n : ν) :
    Except ReadError (Option α) := do
  match ← fields? known n with
  | none => return none
  | some fs => return some (← build fs)

end Readable

end ViewCompiler.Document
