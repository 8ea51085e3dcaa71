import ViewCompiler.Document.Json
import ViewCompiler.Text.Quoted

/-!
# Log entries

An entry is one line of a log: a level, a message and named values in order. A level is a rank, and
the four named levels are the ranks from 0 to 3; a logger set to a level lets through the messages
of that rank and above. An entry is written either as text, `level=INFO msg=... name=value`, or as
one JSON object. What only the clock knows is filled in when the entry is written, so entries
themselves are plain data.
-/

namespace ViewCompiler.Log

open ViewCompiler.Text

/-! ### Levels -/

/-- The rank of a message, or the least rank that a logger lets through. -/
structure Level where
  rank : Int
  deriving DecidableEq, Repr

namespace Level

def debug : Level := ⟨0⟩
def info : Level := ⟨1⟩
def warn : Level := ⟨2⟩
def error : Level := ⟨3⟩

/-- The name of a level as it is logged. -/
def name (l : Level) : String :=
  if l = debug then "DEBUG"
  else if l = info then "INFO"
  else if l = warn then "WARN"
  else if l = error then "ERROR"
  else "UNKNOWN"

/-- Whether a level is one of the four named ones. -/
def isNamed (l : Level) : Bool := debug.rank ≤ l.rank && l.rank ≤ error.rank

/-- The level that a setting names, whatever its case and the blanks around it. Nothing stands for
`info`. -/
def ofName? (s : String) : Option Level :=
  match lowercase (trim s) with
  | "debug" => some debug
  | "info" | "" => some info
  | "warn" | "warning" => some warn
  | "error" => some error
  | _ => none

/-- What is said about a setting that names no level. -/
def unknown (s : String) : String := "unknown log level " ++ quote s

/-- Whether a logger at `threshold` lets a message through. A logger below the named levels is never
more talkative than one at `info`. -/
def admits (threshold message : Level) : Bool :=
  threshold.rank ≤ message.rank && (threshold.isNamed || info.rank ≤ message.rank)

/-- Among the named levels, only the ranks are compared. -/
theorem admits_iff_of_isNamed {threshold message : Level} (h : threshold.isNamed = true) :
    threshold.admits message = true ↔ threshold.rank ≤ message.rank := by
  simp [admits, h]

end Level

/-! ### Values -/

/-- The value of a field. -/
inductive Value where
  | plain (document : Document)
  /-- How long an operation took, in whole milliseconds. -/
  | elapsedMillis
  /-- How long an operation took, in its natural unit. -/
  | elapsed
  deriving Repr, Inhabited

namespace Value

/-- A string as a value. -/
def text (s : String) : Value := .plain (.text s)

/-- A count as a value. -/
def count (n : Nat) : Value := .plain (.number n)

end Value

/-- A line of a log. -/
structure Entry where
  level : Level
  message : String
  fields : List (String × Value)
  deriving Repr

/-- What the clock says while an entry is written. -/
structure Clock where
  /-- The time of day, where entries are to carry it. -/
  time? : Option String := none
  /-- The time taken in whole milliseconds. -/
  millis : String
  /-- The time taken, with its unit. -/
  duration : String
  /-- The time taken in nanoseconds. -/
  nanos : String

/-- How entries are written. -/
inductive Format where
  | text
  | json
  deriving DecidableEq, Repr

/-- The format that a setting names: anything but `json` is text. -/
def Format.ofName (s : String) : Format := if s = "json" then .json else .text

/-! ### Text -/

/-- Whether a character makes a value ambiguous: the blank, the equals sign and the quote, control
characters and, beyond ASCII, everything without a visible form or standing for one that was
lost. -/
def needsQuotes (c : Char) : Bool :=
  if isAscii c then c.toNat ≤ 0x20 || c = '=' || c = '"'
  else c.toNat = 0xfffd || !isPrintable c

/-- A name or a string value, between quotes where it would be ambiguous. -/
def word (s : String) : String :=
  if s = "" || s.toList.any needsQuotes then quote s else s

mutual

/-- A document in words: lists between brackets, records as `map[name:value ...]`. -/
def describe : Document → String
  | .absent => "<nil>"
  | .flag true => "true"
  | .flag false => "false"
  | .number n => toString n
  | .text s | .moment s => s
  | .list items => "[" ++ join " " (describeItems items) ++ "]"
  | .record fields => "map[" ++ join " " (describeFields fields) ++ "]"

/-- Every item of a list in words. -/
def describeItems : List Document → List String
  | [] => []
  | item :: items => describe item :: describeItems items

/-- Every field of a record in words. -/
def describeFields : List (String × Document) → List String
  | [] => []
  | (name, value) :: fields => (name ++ ":" ++ describe value) :: describeFields fields

end

/-- The text of a value. -/
def Value.toText (clock : Clock) : Value → String
  | .plain d => word (describe d)
  | .elapsedMillis => clock.millis
  | .elapsed => clock.duration

/-- The JSON form of a value. -/
def Value.toJson (clock : Clock) : Value → String
  | .plain d => Document.Json.compact d
  | .elapsedMillis => clock.millis
  | .elapsed => clock.nanos

/-! ### Lines -/

namespace Entry

/-- Whether a field says nothing at all: it has neither a name nor a value. -/
def isVoid : String × Value → Bool
  | ("", .plain .absent) => true
  | _ => false

/-- The line of an entry, with its line break. -/
def render (format : Format) (clock : Clock) (e : Entry) : String :=
  let fields := e.fields.filter (!isVoid ·)
  match format with
  | .text =>
    let time := (clock.time?.map fun t => "time=" ++ t).toList
    join " " (time ++ ["level=" ++ e.level.name, "msg=" ++ word e.message] ++
      fields.map fun (name, value) => word name ++ "=" ++ value.toText clock) ++ "\n"
  | .json =>
    let field (name value : String) : String := Document.Json.string false name ++ ":" ++ value
    let string := Document.Json.string false
    let time := (clock.time?.map fun t => field "time" (string t)).toList
    "\x7b" ++
      join "," (time ++ [field "level" (string e.level.name), field "msg" (string e.message)] ++
      fields.map fun (name, value) => field name (value.toJson clock)) ++ "\x7d\n"

end Entry

end ViewCompiler.Log
