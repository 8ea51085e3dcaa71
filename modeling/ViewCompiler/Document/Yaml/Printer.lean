import ViewCompiler.Document.Basic
import ViewCompiler.Document.Yaml.Scalar

/-!
# Documents as YAML

Records and lists are written in block form, one field or item a line. A string is written in the
lightest form that reads back as the same string: without quotes, between single quotes, as a
literal block when it has several lines, and otherwise between double quotes. Characters outside the
basic multilingual plane count as unprintable. A list that was never given is written as an empty
one.

The printer first produces *pieces*: text, and places where a line starts. A line break is only
written at such a place when the text so far does not already end with one, as it does after a
literal block.
-/

namespace ViewCompiler.Document.Yaml

open ViewCompiler.Text

/-! ### Characters -/

/-- Whether a character can be written as it is. -/
def isWritable (c : Char) : Bool :=
  let n := c.toNat
  n = 0x0a || (0x20 ≤ n && n ≤ 0x7e) || (0xa0 ≤ n && n ≤ 0xfffd && n ≠ 0xfeff)

/-- Whether a character breaks a line. -/
def isBreak (c : Char) : Bool :=
  c = '\n' || c = '\r' || c.toNat = 0x85 || c.toNat = 0x2028 || c.toNat = 0x2029

/-- Whether a character is a blank or a tab. -/
def isBlankOrTab (c : Char) : Bool := c = ' ' || c = '\t'

/-! ### Which form a string can take -/

/-- Whether the first character of a text is one that cannot start a plain scalar. -/
def startsWithIndicator : List Char → Bool
  | [] => false
  | c :: cs =>
    if "#,[]\x7b\x7d&*!|>'\"%@".toList.contains c || c.toNat = 0x60 then true
    else if c = '?' || c = ':' || c = '-' then cs.head?.all isBlankOrTab
    else false

/-- Whether a text holds, after its first character, something that would end a plain scalar: a
colon before a blank or a comment after one. `previous` is the character before the text. -/
def holdsIndicator (previous : Char) : List Char → Bool
  | [] => false
  | c :: cs =>
    (c = ':' && cs.head?.all isBlankOrTab) ||
      (c = '#' && (isBlankOrTab previous || isBreak previous || previous.toNat = 0)) ||
      holdsIndicator c cs

/-- Whether somewhere in the text a character satisfying `p` directly precedes one satisfying
`q`. -/
def hasPair (p q : Char → Bool) : List Char → Bool
  | a :: b :: cs => (p a && q b) || hasPair p q (b :: cs)
  | _ => false

/-- Whether a text may stand without quotes. -/
def plainAllowed (cs : List Char) : Bool :=
  !(startsWith "---".toList cs || startsWith "...".toList cs) &&
  !startsWithIndicator cs &&
  !(match cs with | c :: rest => holdsIndicator c rest | [] => false) &&
  !(cs.head?.any (· = ' ') || cs.getLast?.any (· = ' ')) &&
  cs.all fun c => isWritable c && !isBreak c

/-- Whether a text may stand between single quotes. -/
def singleQuotedAllowed (cs : List Char) : Bool :=
  cs.all isWritable && !hasPair isBreak (· = ' ') cs && !hasPair (· = ' ') isBreak cs

/-- Whether a text may stand in a literal block. -/
def literalAllowed (cs : List Char) : Bool :=
  cs.all (fun c => isWritable c || c = '\t') && !cs.getLast?.any (· = ' ') &&
    !hasPair (· = ' ') isBreak cs

/-- The forms of a string. -/
inductive Form where
  | plain | singleQuoted | doubleQuoted | literal
  deriving DecidableEq, Repr

/-- The form in which a string is written. -/
def formOf (s : String) : Form :=
  let cs := s.toList
  if cs.contains '\n' then (if literalAllowed cs then .literal else .doubleQuoted)
  else if !Scalar.readsAsText s then .doubleQuoted
  else if plainAllowed cs then .plain
  else if singleQuotedAllowed cs then .singleQuoted
  else .doubleQuoted

/-! ### Writing strings -/

/-- Blanks up to a column. -/
def blanks (n : Nat) : List Char := List.replicate n ' '

/-- How one character is written between double quotes. -/
def escapeChar (c : Char) : List Char :=
  let escaped (d : Char) : List Char := ['\\', d]
  let upper (width n : Nat) : List Char := (hex width n).toList.map Char.toUpper
  if isWritable c && !isBreak c && c ≠ '"' && c ≠ '\\' then [c]
  else match c.toNat with
    | 0x00 => escaped '0'
    | 0x07 => escaped 'a'
    | 0x08 => escaped 'b'
    | 0x09 => escaped 't'
    | 0x0a => escaped 'n'
    | 0x0b => escaped 'v'
    | 0x0c => escaped 'f'
    | 0x0d => escaped 'r'
    | 0x1b => escaped 'e'
    | 0x22 => escaped '"'
    | 0x5c => escaped '\\'
    | 0x85 => escaped 'N'
    | 0xa0 => escaped '_'
    | 0x2028 => escaped 'L'
    | 0x2029 => escaped 'P'
    | n =>
      if n ≤ 0xff then '\\' :: 'x' :: upper 2 n
      else if n ≤ 0xffff then '\\' :: 'u' :: upper 4 n
      else '\\' :: 'U' :: upper 8 n

/-- The inside of a literal block: every line that is not empty is indented. The flag tells whether
a line starts here. -/
def literalLines (indent : Nat) : Bool → List Char → List Char
  | _, [] => []
  | fresh, c :: cs =>
    if isBreak c then c :: literalLines indent true cs
    else (if fresh then blanks indent else []) ++ c :: literalLines indent false cs

/-- The inside of a single-quoted string: a quote is doubled, and what follows a line break is
indented. -/
def singleQuotedLines (indent : Nat) : Bool → List Char → List Char
  | _, [] => []
  | fresh, c :: cs =>
    if isBreak c then c :: singleQuotedLines indent true cs
    else if c = ' ' then c :: singleQuotedLines indent fresh cs
    else
      (if fresh then blanks indent else []) ++ (if c = '\'' then ['\'', c] else [c]) ++
        singleQuotedLines indent false cs

/-- How the end of a literal block is marked: `-` when the text does not end with a line break, `+`
when it ends with several. -/
def chomping (cs : List Char) : List Char :=
  match cs.reverse with
  | [] => ['-']
  | [c] => if isBreak c then ['+'] else ['-']
  | c :: d :: _ => if !isBreak c then ['-'] else if isBreak d then ['+'] else []

/-- A literal block. The line break after its head is the first one of the text, if the text starts
with one; the head then says how far the lines are indented. -/
def writeLiteral (step indent : Nat) (cs : List Char) : List Char :=
  let hint := if cs.head?.any fun c => c = ' ' || isBreak c then digits step else []
  let head := '|' :: hint ++ chomping cs
  let open_ := if cs.head?.any isBreak then [] else ['\n']
  head ++ open_ ++ literalLines indent true cs

/-- A string, as the value of a field or as an item; continued lines are indented by `indent`. -/
def writeString (step indent : Nat) (s : String) : String :=
  let cs := s.toList
  String.ofList <| match formOf s with
    | .plain => cs
    | .singleQuoted => '\'' :: singleQuotedLines indent false cs ++ ['\'']
    | .doubleQuoted => '"' :: cs.flatMap escapeChar ++ ['"']
    | .literal => writeLiteral step indent cs

/-! ### Writing documents -/

/-- A piece of output. -/
inductive Piece where
  | text (s : String)
  /-- The start of a line with the given indentation. -/
  | line (indent : Nat)
  deriving Repr

/-- Puts pieces together. A line break is left out at the very start and after text that already
ends with one. -/
def assemble (out : List Char) : List Piece → List Char
  | [] => out
  | .text s :: ps => assemble (s.toList.reverse ++ out) ps
  | .line indent :: ps =>
    let broken := match out with
      | [] => out
      | c :: _ => if isBreak c then out else '\n' :: out
    assemble (blanks indent ++ broken) ps

/-- The indentation of what is nested in a record: the next multiple of `step`. -/
def deeper (step indent : Nat) : Nat := step * ((indent + step) / step)

mutual

/-- What follows the marker of a field or an item. `indent` is the column of continued lines;
`compact` tells that the first line of a nested collection starts right behind the marker. -/
def writeValue (step indent : Nat) (compact : Bool) : Document → List Piece
  | .absent => [.text " []"]
  | .flag true => [.text " true"]
  | .flag false => [.text " false"]
  | .number n => [.text s!" {n}"]
  | .text s => [.text (" " ++ writeString step indent s)]
  | .moment s => [.text (" " ++ s)]
  | .list [] => [.text " []"]
  | .list (item :: items) =>
    (if compact then .text " " else .line indent) :: .text "-" ::
      (writeValue step (indent + 2) true item ++ writeItems step indent items)
  | .record [] => [.text " \x7b\x7d"]
  | .record ((name, value) :: fields) =>
    (if compact then .text " " else .line indent) :: .text (name ++ ":") ::
      (writeValue step (deeper step indent) false value ++ writeFields step indent fields)

/-- Items of a list whose markers stand at the given column. -/
def writeItems (step indent : Nat) : List Document → List Piece
  | [] => []
  | item :: items =>
    .line indent :: .text "-" ::
      (writeValue step (indent + 2) true item ++ writeItems step indent items)

/-- Fields of a record whose names stand at the given column. -/
def writeFields (step indent : Nat) : List (String × Document) → List Piece
  | [] => []
  | (name, value) :: fields =>
    .line indent :: .text (name ++ ":") ::
      (writeValue step (deeper step indent) false value ++ writeFields step indent fields)

end

/-- The pieces of a whole document. -/
def pieces (step : Nat) : Document → List Piece
  | .list (item :: items) => writeItems step 0 (item :: items)
  | .record (field :: fields) => writeFields step 0 (field :: fields)
  | d => match writeValue step step false d with
    | .text s :: ps => .text (String.ofList (s.toList.drop 1)) :: ps
    | ps => ps

/-- Writes a whole document, nested collections being indented by `step`. -/
def render (step : Nat) (d : Document) : String :=
  String.ofList (assemble [] (pieces step d ++ [.line 0])).reverse

end ViewCompiler.Document.Yaml
