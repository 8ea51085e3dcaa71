import ViewCompiler.Problem
import ViewCompiler.Text.Quoting

/-!
# Style sheets

A style sheet is read into a list of rules: selectors with their declarations, and at-rules that
hold other rules, declarations, or nothing. Reading first removes the comments, each of which
separates what stands before and after it, and then works in two stages: the text is cut into
pieces, and the pieces are folded over the stack of open groups. Offsets in messages count the bytes
of the text without comments, except for an unterminated comment.
-/

namespace ViewCompiler.Style

open ViewCompiler.Text

/-! ### Faults -/

/-- What can be wrong with a style sheet. -/
inductive Fault where
  | unterminatedComment
  | unclosedBlock
  | unexpectedClose
  | missingBlock (selector : String)
  | emptySelector
  | missingName
  | invalidDeclaration (text : String)
  | nestedBlock
  deriving DecidableEq, Repr

/-- The wording of a fault. -/
def Fault.text : Fault → String
  | unterminatedComment => "unterminated comment"
  | unclosedBlock => "unclosed block"
  | unexpectedClose => "unexpected \x7d"
  | missingBlock selector => "expected \x7b after selector " ++ quote selector
  | emptySelector => "empty selector"
  | missingName => "missing at-rule name"
  | invalidDeclaration text => "invalid declaration " ++ quote text
  | nestedBlock => "unexpected \x7b in declaration block"

/-- A fault at a byte offset. -/
structure Error where
  offset : Nat
  fault : Fault
  deriving DecidableEq, Repr

/-- The message of an error. -/
def Error.message (e : Error) : String := s!"css offset {e.offset}: {e.fault.text}"

/-- The problem of a style sheet that cannot be read. -/
def Error.problem (e : Error) : Problem :=
  .ofCode { category := .validation, code := "invalid_style", message := e.message }

/-! ### Comments and blanks -/

/-- Where a scan for comments stands. -/
inductive CommentScan where
  | code (quoting : Quoting)
  /-- Just after the slash of a comment that began at the given offset. -/
  | opening (start : Nat)
  /-- Inside a comment, after an asterisk that may close it or not. -/
  | comment (start : Nat) (star : Bool)
  deriving DecidableEq, Repr

/-- Replaces every comment outside strings by a blank. -/
def stripFrom : CommentScan → Nat → List Char → Except Error (List Char)
  | .code _, _, [] => .ok []
  | .opening start, _, [] => .error ⟨start, .unterminatedComment⟩
  | .comment start _, _, [] => .error ⟨start, .unterminatedComment⟩
  | .code q, offset, c :: cs =>
    if q.isOutside && c = '/' && cs.head? = some '*' then
      (stripFrom (.opening offset) (offset + 1) cs).map (' ' :: ·)
    else (stripFrom (.code (q.next c)) (offset + c.utf8Size) cs).map (c :: ·)
  | .opening start, offset, c :: cs => stripFrom (.comment start false) (offset + c.utf8Size) cs
  | .comment start star, offset, c :: cs =>
    if star && c = '/' then stripFrom (.code .outside) (offset + 1) cs
    else stripFrom (.comment start (c = '*')) (offset + c.utf8Size) cs

/-- Replaces every comment outside strings by a blank. -/
def stripComments (cs : List Char) : Except Error (List Char) := stripFrom (.code .outside) 0 cs

/-- Reduces runs of blanks outside strings to one space, given whether blanks are pending and
whether anything has been written. -/
def collapseFrom (quoting : Quoting) (pending written : Bool) : List Char → List Char
  | [] => []
  | c :: cs =>
    if quoting.isOutside && isMarkupSpace c then collapseFrom .outside true written cs
    else
      let rest := collapseFrom (quoting.next c) false true cs
      if pending && written then ' ' :: c :: rest else c :: rest

/-- Reduces runs of blanks outside strings to one space and drops them at both ends. -/
def collapse (cs : List Char) : String := String.ofList (collapseFrom .outside false false cs)

/-! ### Rules -/

/-- One rule of a style sheet. -/
inductive Rule where
  /-- A selector with its declarations. -/
  | qualified (selector : String) (declarations : List String)
  /-- An at-rule without a block. -/
  | statement (name condition : String)
  /-- An at-rule with declarations. -/
  | block (name condition : String) (declarations : List String)
  /-- An at-rule that holds rules; the selectors of key frames stand for themselves. -/
  | group (name condition : String) (keyframes : Bool) (rules : List Rule)
  deriving Repr

/-- A piece of a style sheet. -/
inductive Piece where
  | rule (rule : Rule)
  /-- The head of a group, up to its opening brace. -/
  | opening (name condition : String) (keyframes : Bool)
  /-- A closing brace at the given offset. -/
  | closing (offset : Nat)
  deriving Repr

/-- Characters of names: ASCII letters, digits, hyphen, underscore, and everything beyond ASCII. -/
def isNameChar (c : Char) : Bool := c == '-' || c == '_' || !isAscii c || c.isAlphanum

/-- What is left to read, and its offset. -/
structure Cursor where
  rest : List Char
  offset : Nat
  deriving Repr

/-- The cursor after some characters. -/
def Cursor.past (c : Cursor) (taken rest : List Char) : Cursor :=
  ⟨rest, c.offset + byteLength taken⟩

/-- The nesting of brackets after one more character. -/
def nesting (depth : Nat) (c : Char) : Nat :=
  if c = '(' || c = '[' then depth + 1 else if c = ')' || c = ']' then depth - 1 else depth

/-- The text up to the first brace or semicolon outside strings and brackets, and what follows. -/
def takePrelude (quoting : Quoting) (depth : Nat) : List Char → List Char × List Char
  | [] => ([], [])
  | c :: cs =>
    if quoting.isOutside && depth == 0 && (c = '\x7b' || c = '\x7d' || c = ';') then ([], c :: cs)
    else
      let depth := if quoting.isOutside then nesting depth c else depth
      let (taken, rest) := takePrelude (quoting.next c) depth cs
      (c :: taken, rest)

/-- Reads one declaration; blank text is none. -/
def readDeclaration (start : Nat) (text : List Char) : Except Error (List String) :=
  let d := trimBlank text
  if d.isEmpty then .ok []
  else match cut? [':'] d with
    | some (name@(_ :: _), value) => .ok [collapse name ++ ":" ++ collapse value]
    | _ => .error ⟨start, .invalidDeclaration (collapse d)⟩

/-- Reads declarations up to the closing brace. `start` is the offset just after the opening brace,
`here` the offset of the current declaration and `text` what has been read of it, last character
first. -/
def readDeclarations (start here : Nat) (text : List Char) (quoting : Quoting)
    (depth offset : Nat) :
    List Char → Except Error (List String × Cursor)
  | [] => .error ⟨start, .unclosedBlock⟩
  | c :: cs =>
    let offset' := offset + c.utf8Size
    if !quoting.isOutside then
      readDeclarations start here (c :: text) (quoting.next c) depth offset' cs
    else if c = '\x7b' then .error ⟨offset, .nestedBlock⟩
    else if c = ';' && depth == 0 then do
      let first ← readDeclaration here text.reverse
      let (others, after) ← readDeclarations start offset' [] .outside depth offset' cs
      return (first ++ others, after)
    else if c = '\x7d' then do
      let last ← readDeclaration here text.reverse
      return (last, ⟨cs, offset'⟩)
    else
      let depth := if c = '(' then depth + 1 else if c = ')' then depth - 1 else depth
      readDeclarations start here (c :: text) (quoting.next c) depth offset' cs

/-- Reads the declarations after an opening brace. -/
def readBlock (c : Cursor) : Except Error (List String × Cursor) :=
  readDeclarations c.offset c.offset [] .outside 0 c.offset c.rest

/-- At-rules that hold rules. -/
def groupRules : List String := ["@media", "@supports", "@container", "@layer", "@document"]

/-- Reads a selector with its declarations. -/
def readQualified (c : Cursor) : Except Error (Piece × Cursor) :=
  let (text, rest) := takePrelude .outside 0 c.rest
  let selector := collapse text
  match rest with
  | '\x7b' :: inner =>
    if selector = "" then .error ⟨c.offset, .emptySelector⟩
    else do
      let (declarations, after) ← readBlock (c.past (text ++ ['\x7b']) inner)
      return (.rule (.qualified selector declarations), after)
  | _ => .error ⟨c.offset, .missingBlock selector⟩

/-- Reads an at-rule; of a group only the head. -/
def readAtRule (c : Cursor) : Except Error (Piece × Cursor) :=
  let bare := (c.rest.drop 1).takeWhile isNameChar
  let name := String.ofList ('@' :: bare)
  if bare.isEmpty then .error ⟨c.offset, .missingName⟩
  else
    let afterName := c.past ('@' :: bare) ((c.rest.drop 1).dropWhile isNameChar)
    let (text, rest) := takePrelude .outside 0 afterName.rest
    let condition := collapse text
    let here := afterName.past text rest
    match rest with
    | '\x7b' :: inner =>
      let inside := here.past ['\x7b'] inner
      let lower := lowercase name
      if hasSuffix "keyframes" lower then .ok (.opening name condition true, inside)
      else if groupRules.contains lower then .ok (.opening name condition false, inside)
      else do
        let (declarations, after) ← readBlock inside
        return (.rule (.block name condition declarations), after)
    | ';' :: after => .ok (.rule (.statement name condition), here.past [';'] after)
    | _ => .ok (.rule (.statement name condition), here)

/-- Reads the piece that stands here; `none` for a stray semicolon. -/
def step (c : Cursor) : Except Error (Option Piece × Cursor) :=
  match c.rest with
  | '\x7d' :: rest => .ok (some (.closing c.offset), c.past ['\x7d'] rest)
  | '@' :: _ => (readAtRule c).map fun (p, c) => (some p, c)
  | ';' :: rest => .ok (none, c.past [';'] rest)
  | _ => (readQualified c).map fun (p, c) => (some p, c)

/-- The pieces of a style sheet up to the first error, that error, and the offset reached. -/
structure Scan where
  pieces : List Piece
  error : Option Error
  stop : Nat

/-- Reads the pieces from a cursor on. Every step leaves less to read. -/
def scanFrom (c : Cursor) : Scan :=
  let here := c.past (c.rest.takeWhile isMarkupSpace) (c.rest.dropWhile isMarkupSpace)
  if here.rest.isEmpty then ⟨[], none, here.offset⟩
  else match step here with
    | .error e => ⟨[], some e, here.offset⟩
    | .ok (piece, next) =>
      if next.rest.length < c.rest.length then
        let scan := scanFrom next
        ⟨piece.toList ++ scan.pieces, scan.error, scan.stop⟩
      else ⟨piece.toList, none, next.offset⟩
termination_by c.rest.length

/-- A group whose rules are being read, and the rules before it, last one first. -/
structure OpenGroup where
  name : String
  condition : String
  keyframes : Bool
  before : List Rule

/-- Folds pieces into rules. -/
def assemble (error : Option Error) (stop : Nat) :
    List Piece → List OpenGroup → List Rule → Except Error (List Rule)
  | [], groups, rules =>
    match error, groups with
    | some e, _ => .error e
    | none, _ :: _ => .error ⟨stop, .unclosedBlock⟩
    | none, [] => .ok rules.reverse
  | piece :: pieces, groups, rules =>
    match piece with
    | .rule r => assemble error stop pieces groups (r :: rules)
    | .opening name condition keyframes =>
      assemble error stop pieces (⟨name, condition, keyframes, rules⟩ :: groups) []
    | .closing offset =>
      match groups with
      | [] => .error ⟨offset, .unexpectedClose⟩
      | g :: groups =>
        let rule := Rule.group g.name g.condition g.keyframes rules.reverse
        assemble error stop pieces groups (rule :: g.before)

/-- Reads a style sheet without comments. -/
def parseRules (cs : List Char) : Except Error (List Rule) :=
  let scanned := scanFrom ⟨cs, 0⟩
  assemble scanned.error scanned.stop scanned.pieces [] []

/-- Reads a style sheet. -/
def parse (css : String) : Except Error (List Rule) := do parseRules (← stripComments css.toList)

end ViewCompiler.Style
