import ViewCompiler.Document.Yaml.Lexeme

/-!
# Tokens of YAML text

Indentation and the colon behind a key are turned into tokens, so that the reader of nodes sees
every collection with an explicit start and end. A key is only recognised when its colon comes:
until then its place among the tokens is remembered as a `Candidate`, one for each level of
brackets, and the tokens that open a mapping are inserted there.
-/

namespace ViewCompiler.Document.Yaml

open ViewCompiler.Text

/-- A token. -/
inductive Token where
  | blockSequenceStart | blockMappingStart | blockEnd
  | flowSequenceStart | flowSequenceEnd | flowMappingStart | flowMappingEnd
  | blockEntry | flowEntry | key | value
  | documentStart | documentEnd | directive
  /-- The end of the text. -/
  | streamEnd
  /-- The text cannot be read from here on. -/
  | malformed
  | anchor (name : String)
  | alias (name : String)
  | tag (name : String)
  | scalar (plain : Bool) (text : String)
  deriving DecidableEq, Repr, Inhabited

/-- A place where a key may have begun. -/
structure Candidate where
  /-- Whether what stands there can be nothing but a key. -/
  required : Bool
  /-- The number of tokens before it. -/
  number : Nat
  mark : Mark
  deriving Repr

/-- A text on its way to tokens. -/
structure Scan where
  rest : List Char
  mark : Mark := {}
  /-- The tokens so far, the last one first. -/
  tokens : List Token := []
  indent : Int := -1
  /-- The indentations outside the current one, the innermost first. -/
  outer : List Int := []
  /-- The candidate of each level of brackets, the innermost first. -/
  candidates : List (Option Candidate) := [none]
  /-- Whether a key may begin here. -/
  keyAllowed : Bool := true
  deriving Repr

namespace Scan

/-- Whether the text is inside brackets. -/
def inFlow (s : Scan) : Bool := s.candidates.length > 1

/-- The column of the next character. -/
def column (s : Scan) : Nat := s.mark.column

/-- Adds a token. -/
def emit (s : Scan) (t : Token) : Scan := { s with tokens := t :: s.tokens }

/-- Adds a token after the first `number` tokens. -/
def insertAt (s : Scan) (number : Nat) (t : Token) : Scan :=
  let later := s.tokens.take (s.tokens.length - number)
  let earlier := s.tokens.drop (s.tokens.length - number)
  { s with tokens := later ++ t :: earlier }

/-- Skips some characters. -/
def skip (s : Scan) (n : Nat) : Scan :=
  { s with rest := s.rest.drop n, mark := s.mark.steps (s.rest.take n) }

/-- Goes on behind a scalar. -/
def behind (s : Scan) (l : Lexeme) : Scan := { s with rest := l.rest, mark := l.mark }

/-! ### Candidates -/

/-- The candidate of the current level. -/
def candidate? (s : Scan) : Option Candidate := s.candidates.head?.join

/-- Sets the candidate of the current level. -/
def setCandidate (s : Scan) (c : Option Candidate) : Scan :=
  { s with candidates := c :: s.candidates.tail }

/-- Gives the candidate up; one that had to be a key must not go. -/
def dropCandidate (s : Scan) : Except Malformed Scan :=
  if s.candidate?.any (·.required) then .error {} else .ok (s.setCandidate none)

/-- Remembers that a key may begin here. -/
def saveCandidate (s : Scan) : Except Malformed Scan :=
  if s.keyAllowed then do
    let required := !s.inFlow && s.indent = s.column
    let s' ← s.dropCandidate
    return s'.setCandidate (some ⟨required, s.tokens.length, s.mark⟩)
  else .ok s

/-- The candidate, if it can still be a key: it stands on this line, and not too far away. -/
def freshCandidate (s : Scan) : Except Malformed (Option Candidate) :=
  match s.candidate? with
  | none => .ok none
  | some c =>
    if c.mark.line < s.mark.line || c.mark.offset + 1024 < s.mark.offset then
      (if c.required then .error {} else .ok none)
    else .ok (some c)

/-! ### Indentation -/

/-- Opens a collection if the column is further in than the current indentation. -/
def roll (s : Scan) (column number : Nat) (t : Token) : Scan :=
  if !s.inFlow && s.indent < column then
    { s.insertAt number t with indent := column, outer := s.indent :: s.outer }
  else s

/-- Closes the collections that are further in than the column. -/
def closeTo (column : Int) (tokens : List Token) (indent : Int) :
    List Int → List Token × Int × List Int
  | [] => (tokens, indent, [])
  | o :: os =>
    if indent > column then closeTo column (.blockEnd :: tokens) o os else (tokens, indent, o :: os)

/-- Closes the block collections that are further in than the column. -/
def unroll (s : Scan) (column : Int) : Scan :=
  if s.inFlow then s
  else
    let (tokens, indent, outer) := closeTo column s.tokens s.indent s.outer
    { s with tokens, indent, outer }

/-! ### Blanks between tokens -/

/-- Skips blanks, comments and line breaks. A tab may only stand where no key may begin. The flags
tell whether brackets are open and whether a key may begin. -/
def skipBlanks (inFlow keyAllowed inComment : Bool) (m : Mark) :
    List Char → Mark × Bool × List Char
  | [] => (m, keyAllowed, [])
  | c :: cs =>
    if isBreak c then skipBlanks inFlow (keyAllowed || !inFlow) false (m.step c) cs
    else if inComment || c = ' ' || (c = '\t' && (inFlow || !keyAllowed)) then
      skipBlanks inFlow keyAllowed inComment (m.step c) cs
    else if c = '#' then skipBlanks inFlow keyAllowed true (m.step c) cs
    else (m, keyAllowed, c :: cs)

/-- Skips to the next token. -/
def toNextToken (s : Scan) : Scan :=
  let (mark, keyAllowed, rest) := skipBlanks s.inFlow s.keyAllowed false s.mark s.rest
  { s with mark, keyAllowed, rest }

/-! ### Fetching tokens -/

/-- The end of the text. -/
def fetchEnd (s : Scan) : Except Malformed Scan := do
  let s ← (s.unroll (-1)).dropCandidate
  return s.emit .streamEnd

/-- The start or the end of a document. -/
def fetchDocumentMark (s : Scan) (t : Token) (length : Nat) : Except Malformed Scan := do
  let s ← (s.unroll (-1)).dropCandidate
  return ({ s with keyAllowed := false }.skip length).emit t

/-- Whether a line is a directive that is understood: the version of the language, which has to be
1.1, or a shorthand for tags. -/
def isDirective (line : List Char) : Bool :=
  let line := replaceChar '\t' [' '] (line.takeWhile (· ≠ '#'))
  match ((splitOn ' ' line).filter (!·.isEmpty)).map String.ofList with
  | ["%YAML", version] => version = "1.1"
  | ["%TAG", handle, _] => hasPrefix "!" handle
  | _ => false

/-- A line with a directive. -/
def fetchDirective (s : Scan) : Except Malformed Scan :=
  let line := s.rest.takeWhile (!isBreak ·)
  if isDirective line then s.fetchDocumentMark .directive line.length else .error {}

/-- An opening bracket. -/
def fetchFlowStart (s : Scan) (t : Token) : Except Malformed Scan := do
  let s ← s.saveCandidate
  return ({ s with candidates := none :: s.candidates, keyAllowed := true }.skip 1).emit t

/-- A closing bracket. -/
def fetchFlowEnd (s : Scan) (t : Token) : Except Malformed Scan := do
  let s ← s.dropCandidate
  let candidates := if s.inFlow then s.candidates.tail else s.candidates
  return ({ s with candidates, keyAllowed := false }.skip 1).emit t

/-- A comma. -/
def fetchFlowEntry (s : Scan) : Except Malformed Scan := do
  let s ← s.dropCandidate
  return ({ s with keyAllowed := true }.skip 1).emit .flowEntry

/-- The mark of a list item. -/
def fetchBlockEntry (s : Scan) : Except Malformed Scan := do
  if !s.inFlow && !s.keyAllowed then throw {}
  let s ← (s.roll s.column s.tokens.length .blockSequenceStart).dropCandidate
  return ({ s with keyAllowed := true }.skip 1).emit .blockEntry

/-- The mark of an explicit key. -/
def fetchKey (s : Scan) : Except Malformed Scan := do
  if !s.inFlow && !s.keyAllowed then throw {}
  let s ← (s.roll s.column s.tokens.length .blockMappingStart).dropCandidate
  return ({ s with keyAllowed := !s.inFlow }.skip 1).emit .key

/-- The colon behind a key. -/
def fetchValue (s : Scan) : Except Malformed Scan := do
  match ← s.freshCandidate with
  | some c =>
    let s := (s.insertAt c.number .key).roll c.mark.column c.number .blockMappingStart
    return ({ s.setCandidate none with keyAllowed := false }.skip 1).emit .value
  | none =>
    let s := s.setCandidate none
    if !s.inFlow && !s.keyAllowed then throw {}
    let s := s.roll s.column s.tokens.length .blockMappingStart
    return ({ s with keyAllowed := !s.inFlow }.skip 1).emit .value

/-- Whether a character may occur in the name of an anchor. -/
def isNameChar (c : Char) : Bool := c.isAlphanum || c = '_' || c = '-'

/-- An anchor or an alias. -/
def fetchName (s : Scan) (t : String → Token) : Except Malformed Scan := do
  let s ← s.saveCandidate
  let s := { s with keyAllowed := false }.skip 1
  let name := s.rest.takeWhile isNameChar
  let s' := s.skip name.length
  let closed := endsWord s'.rest ||
    s'.rest.head?.any fun c => "?:,]\x7d%@".toList.contains c || c.toNat = 0x60
  if name.isEmpty || !closed then throw {}
  return s'.emit (t (String.ofList name))

/-- A tag. -/
def fetchTag (s : Scan) : Except Malformed Scan := do
  let s ← s.saveCandidate
  let s := { s with keyAllowed := false }
  let ends (c : Char) : Bool := isBlankOrTab c || isBreak c ||
    (s.inFlow && (c = ',' || c = ']' || c.toNat = 0x7d))
  let name := s.rest.takeWhile (!ends ·)
  return (s.skip name.length).emit (.tag (String.ofList name))

/-- A block scalar. -/
def fetchBlockScalar (s : Scan) (literal : Bool) : Except Malformed Scan := do
  let s ← s.dropCandidate
  let s := { s with keyAllowed := true }.skip 1
  let l ← blockScalar literal s.indent s.mark s.rest
  return (s.behind l).emit (.scalar false (String.ofList l.text))

/-- A quoted scalar. -/
def fetchQuoted (s : Scan) (read : Mark → List Char → Except Malformed Lexeme) :
    Except Malformed Scan := do
  let s ← s.saveCandidate
  let s := { s with keyAllowed := false }.skip 1
  let l ← read s.mark s.rest
  return (s.behind l).emit (.scalar false (String.ofList l.text))

/-- A plain scalar. -/
def fetchPlain (s : Scan) : Except Malformed Scan := do
  let s ← s.saveCandidate
  let l ← plainScalar s.inFlow (s.indent + 1) {} [] s.mark s.rest
  return ({ s with keyAllowed := l.broken }.behind l).emit (.scalar true (String.ofList l.text))

/-- Whether a plain scalar may start here. -/
def startsPlain (inFlow : Bool) : List Char → Bool
  | [] => false
  | c :: cs =>
    if c = '-' then !cs.head?.any isBlankOrTab
    else if c = '?' || c = ':' then !inFlow && !endsWord cs
    else !("-?:,[]\x7b\x7d#&*!|>'\"%@".toList.contains c || c.toNat = 0x60 || endsWord (c :: cs))

/-- Fetches the next token. -/
def fetch (s : Scan) : Except Malformed Scan :=
  let s := s.toNextToken
  let s := s.unroll s.column
  match s.rest with
  | [] => s.fetchEnd
  | c :: cs =>
    if s.column = 0 && c = '%' then s.fetchDirective
    else if s.column = 0 && startsWithDocumentMark s.rest then
      s.fetchDocumentMark (if c = '-' then .documentStart else .documentEnd) 3
    else if c = '[' then s.fetchFlowStart .flowSequenceStart
    else if c.toNat = 0x7b then s.fetchFlowStart .flowMappingStart
    else if c = ']' then s.fetchFlowEnd .flowSequenceEnd
    else if c.toNat = 0x7d then s.fetchFlowEnd .flowMappingEnd
    else if c = ',' then s.fetchFlowEntry
    else if c = '-' && endsWord cs then s.fetchBlockEntry
    else if c = '?' && (s.inFlow || endsWord cs) then s.fetchKey
    else if c = ':' && (s.inFlow || endsWord cs) then s.fetchValue
    else if c = '*' then s.fetchName .alias
    else if c = '&' then s.fetchName .anchor
    else if c = '!' then s.fetchTag
    else if c = '|' && !s.inFlow then s.fetchBlockScalar true
    else if c = '>' && !s.inFlow then s.fetchBlockScalar false
    else if c = '\'' then s.fetchQuoted (singleQuoted {} [])
    else if c = '"' then s.fetchQuoted (doubleQuoted 0 {} [])
    else if startsPlain s.inFlow s.rest then s.fetchPlain
    else .error {}

/-- Whether the last token ends the first document. -/
def isDone (s : Scan) : Bool :=
  match s.tokens with
  | .streamEnd :: _ | .documentEnd :: _ => true
  | .documentStart :: earlier => earlier.any (· ≠ .directive)
  | _ => false

/-- Fetches tokens until the first document ends, at most `fuel` of them. -/
def run (s : Scan) : (fuel : Nat) → List Token
  | 0 => (s.emit .malformed).tokens.reverse
  | fuel + 1 =>
    match s.fetch with
    | .error _ => (s.emit .malformed).tokens.reverse
    | .ok s => if s.isDone then s.tokens.reverse else s.run fuel

end Scan

/-! ### Whole texts -/

/-- Whether a character may occur in a text at all. -/
def isAllowed (c : Char) : Bool :=
  let n := c.toNat
  n = 0x09 || n = 0x0a || n = 0x0d || (0x20 ≤ n && n ≤ 0x7e) || n = 0x85 ||
    (0xa0 ≤ n && n ≤ 0xfffd) || 0x10000 ≤ n

/-- The text with every line break but the Unicode separators written as a line feed. -/
def unifyBreaks : List Char → List Char
  | '\r' :: '\n' :: cs => '\n' :: unifyBreaks cs
  | '\r' :: cs => '\n' :: unifyBreaks cs
  | c :: cs => (if c.toNat = 0x85 then '\n' else c) :: unifyBreaks cs
  | [] => []

/-- The text without a byte order mark in front. -/
def dropByteOrderMark : List Char → List Char
  | c :: cs => if c.toNat = 0xfeff then cs else c :: cs
  | [] => []

/-- The tokens of the first document of a text. Every token takes at least one character. -/
def tokens (text : String) : List Token :=
  let cs := unifyBreaks (dropByteOrderMark text.toList)
  if cs.all isAllowed then ({ rest := cs } : Scan).run (cs.length + 1) else [.malformed]

end ViewCompiler.Document.Yaml
