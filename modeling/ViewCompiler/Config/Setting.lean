import ViewCompiler.Document.Yaml.Shape
import ViewCompiler.Duration

/-!
# Settings

What a configuration file says, before it is known what it is needed for: a tree of values whose
names do not depend on case. A value is read liberally, as a string, a list of strings, an integer
or a duration, whatever it was written as; where that makes no sense there is no such reading.
-/

namespace ViewCompiler

open ViewCompiler.Text

/-- A value of a configuration file. -/
inductive Setting where
  | absent
  | flag (value : Bool)
  | number (value : Int)
  /-- A decimal fraction: `mantissa` times ten to the power `exponent`. -/
  | decimal (mantissa exponent : Int)
  | text (value : String)
  /-- A value that no setting can have, such as a date. -/
  | other
  | list (items : List Setting)
  | group (fields : List (String × Setting))
  deriving Repr, Inhabited

namespace Setting

/-! ### Liberal readings -/

/-- A decimal fraction without an exponent. -/
def fraction (mantissa exponent : Int) : String :=
  let sign := if mantissa < 0 then "-" else ""
  if exponent ≥ 0 then sign ++ toString (mantissa.natAbs * Word.tenTo exponent.toNat)
  else sign ++ Duration.decimal mantissa.natAbs (-exponent).toNat

/-- The string that a value stands for. -/
def toText? : Setting → Option String
  | absent => some ""
  | flag b => some (if b then "1" else "0")
  | number n => some (toString n)
  | decimal m e => some (fraction m e)
  | text s => some s
  | other | list _ | group _ => none

/-- The list of strings that a value stands for: its items, or the parts of a string between commas,
or a single value. -/
def toTexts? : Setting → Option (List String)
  | absent => some []
  | text s => some (if s = "" then [] else split ',' s)
  | list items => items.mapM toText?
  | group [] => some []
  | group (_ :: _) => none
  | v => v.toText?.map ([·])

/-- Drops single underscores between digits; the mark of a base counts as digits. -/
def dropUnderscores? (digitBefore : Bool) : List Char → Option (List Char)
  | [] => some []
  | ['_'] => none
  | '_' :: c :: cs =>
    if digitBefore && (Document.Yaml.Scalar.digitIn 16 c).isSome then
      dropUnderscores? false (c :: cs)
    else none
  | c :: cs => (dropUnderscores? true cs).map (c :: ·)

/-- The integer that a string stands for, in the base that its start tells. Nothing stands for
zero. -/
def integerOf? (s : String) : Option Int :=
  if s = "" then some 0
  else
    let (negative, digits) := Document.Yaml.Scalar.sign s.toList
    ((dropUnderscores? false digits).bind Document.Yaml.Scalar.unsigned?).bind fun n =>
      let v := Document.Yaml.Scalar.signed negative n
      if Word.fits v then some v else none

/-- The integer that a value stands for. A fraction is cut off, and a number beyond 64 bits is taken
modulo their range. -/
def toInteger? : Setting → Option Int
  | absent => some 0
  | flag b => some (if b then 1 else 0)
  | number n => some (Int.bmod n Word.count)
  | decimal m e => some (Document.Yaml.Node.truncate m e)
  | text s => integerOf? s
  | other | list _ | group _ => none

/-- The duration that a value stands for: a string with units, or a number of nanoseconds. -/
def toDuration? : Setting → Option Duration
  | text s => Duration.read? s
  | v => v.toInteger?.map (⟨·⟩)

/-! ### Names -/

mutual

/-- The values below a value, each with the names that lead to it, in lower case. A name with dots
counts as several. Values stand before those inside groups. -/
def leaves : Setting → List (List String × Setting)
  | group fields => leavesOf fields false ++ leavesOf fields true
  | v => [([], v)]

/-- The values of fields: those that are no groups, or those inside groups. -/
def leavesOf : List (String × Setting) → Bool → List (List String × Setting)
  | [], _ => []
  | (name, group fields) :: rest, nested =>
    (if nested then (leaves (group fields)).map fun (path, v) =>
      (split '.' (lowercase name) ++ path, v)
     else []) ++ leavesOf rest nested
  | (name, v) :: rest, nested =>
    (if nested then [] else [(split '.' (lowercase name), v)]) ++ leavesOf rest nested

end

mutual

/-- The names that lead to the groups below a value, the value itself included. -/
def groups : Setting → List (List String)
  | group fields => [] :: groupsOf fields
  | _ => []

/-- The names that lead to the groups among fields and below them. -/
def groupsOf : List (String × Setting) → List (List String)
  | [] => []
  | (name, v) :: rest => (groups v).map (split '.' (lowercase name) ++ ·) ++ groupsOf rest

end

/-! ### Files -/

mutual

/-- The value of a node of a configuration file. -/
def ofNode : Document.Yaml.Node → Except Document.ReadError Setting
  | .scalar tag plain written => do
    match ← Document.Yaml.Node.meaning tag plain written with
    | .absent => return .absent
    | .flag b => return .flag b
    | .number n => return .number n
    | .decimal m e => return .decimal m e
    | .unbounded | .timestamp => return .other
    | .text => return .text written
  | .sequence items => .list <$> ofNodes items
  | .mapping entries =>
    if Document.Yaml.Node.hasRepeatedKey entries then .error .mismatch
    else .group <$> ofEntries entries

/-- The values of the items of a list. -/
def ofNodes : List Document.Yaml.Node → Except Document.ReadError (List Setting)
  | [] => .ok []
  | n :: ns => do return (← ofNode n) :: (← ofNodes ns)

/-- The fields of a group. -/
def ofEntries : List (Document.Yaml.Node × Document.Yaml.Node) →
    Except Document.ReadError (List (String × Setting))
  | [] => .ok []
  | (k, v) :: es => do
    match k with
    | .scalar _ _ name => return (name, ← ofNode v) :: (← ofEntries es)
    | _ => throw .mismatch

end

/-- Reads a configuration file: a group, or nothing at all. -/
def read (source : String) : Except Document.ReadError Setting :=
  match Document.Yaml.read source with
  | .error .endOfText => .ok (.group [])
  | .error e => .error e
  | .ok node => do
    match ← ofNode node with
    | .group fields => return .group fields
    | .absent => return .group []
    | _ => throw .mismatch

end Setting

end ViewCompiler
