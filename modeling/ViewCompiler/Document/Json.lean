import ViewCompiler.Document.Basic

/-!
# Documents as JSON

Documents are written with two blanks per level, one field or item a line. Strings can be written in
two ways: *web-safe*, so that the text may stand inside a page, and *plain*, for logs. A list that
was never given is written as `null`. A document can also be written on one line, with plain
strings.
-/

namespace ViewCompiler.Document.Json

open ViewCompiler.Text

/-- How one character is written inside a string. Line separators are always escaped, and the
characters that open markup only where the text has to be web-safe. Plain strings have no short form
for the backspace and the form feed. -/
def escapeChar (webSafe : Bool) (c : Char) : List Char :=
  match c.toNat with
  | 0x22 => ['\\', '"']
  | 0x5c => ['\\', '\\']
  | 0x0a => ['\\', 'n']
  | 0x0d => ['\\', 'r']
  | 0x09 => ['\\', 't']
  | n =>
    if webSafe && n = 0x08 then ['\\', 'b']
    else if webSafe && n = 0x0c then ['\\', 'f']
    else if n < 0x20 || n = 0x2028 || n = 0x2029 ||
      (webSafe && (c = '<' || c = '>' || c = '&')) then
      '\\' :: 'u' :: (hex 4 n).toList
    else [c]

/-- A string between double quotes. -/
def string (webSafe : Bool) (s : String) : String :=
  "\"" ++ String.ofList (s.toList.flatMap (escapeChar webSafe)) ++ "\""

/-- A line break with the indentation of the given level. -/
def newline (level : Nat) : String := "\n" ++ String.ofList (List.replicate (2 * level) ' ')

mutual

/-- Writes a document that stands at the given level. -/
def write (level : Nat) : Document → String
  | .absent => "null"
  | .flag true => "true"
  | .flag false => "false"
  | .number n => toString n
  | .text s | .moment s => string true s
  | .list [] => "[]"
  | .list (item :: items) =>
    "[" ++ newline (level + 1) ++ write (level + 1) item ++ writeItems (level + 1) items ++
      newline level ++ "]"
  | .record [] => "\x7b\x7d"
  | .record ((name, value) :: fields) =>
    "\x7b" ++ newline (level + 1) ++ string true name ++ ": " ++ write (level + 1) value ++
      writeFields (level + 1) fields ++ newline level ++ "\x7d"

/-- Writes the items after the first. -/
def writeItems (level : Nat) : List Document → String
  | [] => ""
  | item :: items => "," ++ newline level ++ write level item ++ writeItems level items

/-- Writes the fields after the first. -/
def writeFields (level : Nat) : List (String × Document) → String
  | [] => ""
  | (name, value) :: fields =>
    "," ++ newline level ++ string true name ++ ": " ++ write level value ++
      writeFields level fields

end

/-- Writes a whole document, with a line break at the end. -/
def render (d : Document) : String := write 0 d ++ "\n"

mutual

/-- Writes a document on one line. -/
def compact : Document → String
  | .absent => "null"
  | .flag true => "true"
  | .flag false => "false"
  | .number n => toString n
  | .text s | .moment s => string false s
  | .list items => "[" ++ join "," (compactItems items) ++ "]"
  | .record fields => "\x7b" ++ join "," (compactFields fields) ++ "\x7d"

/-- Writes every item of a list. -/
def compactItems : List Document → List String
  | [] => []
  | item :: items => compact item :: compactItems items

/-- Writes every field of a record. -/
def compactFields : List (String × Document) → List String
  | [] => []
  | (name, value) :: fields => (string false name ++ ":" ++ compact value) :: compactFields fields

end

end ViewCompiler.Document.Json
