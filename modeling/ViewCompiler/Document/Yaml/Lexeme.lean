import ViewCompiler.Document.Yaml.Printer

/-!
# Scalars in YAML text

Reading one scalar from the front of a text: plain, quoted, or a block. Blanks and line breaks
inside a scalar are gathered in a `Gap` until it is known whether more text follows, since a single
line break is read as a blank and blanks at the end of a line are dropped. Texts are expected to
have only line feeds and the two Unicode separators as line breaks.
-/

namespace ViewCompiler.Document.Yaml

open ViewCompiler.Text

/-- A text that cannot be read. -/
structure Malformed where
  deriving Repr

/-- A place in a text. -/
structure Mark where
  line : Nat := 0
  column : Nat := 0
  offset : Nat := 0
  deriving Repr

/-- The place after a character. -/
def Mark.step (m : Mark) (c : Char) : Mark :=
  if isBreak c then ⟨m.line + 1, 0, m.offset + 1⟩ else ⟨m.line, m.column + 1, m.offset + 1⟩

/-- The place after some characters. -/
def Mark.steps (m : Mark) (cs : List Char) : Mark := cs.foldl step m

/-- Whether a text ends here or goes on with a blank or a line break. -/
def endsWord : List Char → Bool
  | [] => true
  | c :: _ => isBlankOrTab c || isBreak c

/-- Whether a text starts with the mark of a document's start or end. -/
def startsWithDocumentMark : List Char → Bool
  | '-' :: '-' :: '-' :: cs | '.' :: '.' :: '.' :: cs => endsWord cs
  | _ => false

/-- Blanks and line breaks between two pieces of a scalar. -/
structure Gap where
  blanks : List Char := []
  /-- Whether a line has ended. -/
  broken : Bool := false
  /-- The first line break, unless it was escaped. -/
  first : Option Char := none
  more : List Char := []
  deriving Repr

namespace Gap

/-- Whether there is anything between the pieces. -/
def isSome (g : Gap) : Bool := g.broken || !g.blanks.isEmpty

/-- Adds a blank; blanks at the start of a line do not count. -/
def blank (g : Gap) (c : Char) : Gap := if g.broken then g else { g with blanks := g.blanks ++ [c] }

/-- Adds a line break. -/
def lineBreak (g : Gap) (c : Char) : Gap :=
  if g.broken then { g with more := g.more ++ [c] } else { broken := true, first := some c }

/-- What a gap is read as. -/
def text (g : Gap) : List Char :=
  if !g.broken then g.blanks
  else match g.first with
    | some '\n' => if g.more.isEmpty then [' '] else g.more
    | some c => c :: g.more
    | none => g.more

end Gap

/-- A scalar that has been read, and what follows it. -/
structure Lexeme where
  text : List Char
  mark : Mark
  rest : List Char
  /-- Whether a line has ended before what follows. -/
  broken : Bool := false
  deriving Repr

/-! ### Plain scalars -/

/-- Whether a plain scalar ends before this text. -/
def endsPlain (flow : Bool) : List Char → Bool
  | ':' :: cs => endsWord cs
  | '?' :: cs => flow && endsWord cs
  | c :: _ => flow && (c = ',' || c = '[' || c = ']' || c.toNat = 0x7b || c.toNat = 0x7d)
  | [] => true

/-- Reads a plain scalar. Its lines after the first have to be indented by at least `indent`. -/
def plainScalar (flow : Bool) (indent : Int) (gap : Gap) (out : List Char) (m : Mark) :
    List Char → Except Malformed Lexeme
  | [] => .ok ⟨out.reverse, m, [], gap.broken⟩
  | c :: cs =>
    if isBlankOrTab c then
      if gap.broken && c = '\t' && m.column < indent then .error {}
      else plainScalar flow indent (gap.blank c) out (m.step c) cs
    else if isBreak c then plainScalar flow indent (gap.lineBreak c) out (m.step c) cs
    else
      let stops := gap.isSome &&
        ((!flow && m.column < indent) || c = '#' ||
          (m.column = 0 && startsWithDocumentMark (c :: cs)))
      if stops || endsPlain flow (c :: cs) then .ok ⟨out.reverse, m, c :: cs, gap.broken⟩
      else plainScalar flow indent {} (c :: (gap.text.reverse ++ out)) (m.step c) cs

/-! ### Quoted scalars -/

/-- Reads a single-quoted scalar behind its opening quote. -/
def singleQuoted (gap : Gap) (out : List Char) (m : Mark) : List Char → Except Malformed Lexeme
  | [] => .error {}
  | c :: cs =>
    if isBlankOrTab c then singleQuoted (gap.blank c) out (m.step c) cs
    else if isBreak c then singleQuoted (gap.lineBreak c) out (m.step c) cs
    else if m.column = 0 && startsWithDocumentMark (c :: cs) then .error {}
    else
      let out := gap.text.reverse ++ out
      if c = '\'' then
        match cs with
        | '\'' :: cs => singleQuoted {} ('\'' :: out) ((m.step c).step c) cs
        | cs => .ok ⟨out.reverse, m.step c, cs, false⟩
      else singleQuoted {} (c :: out) (m.step c) cs

/-- The character that an escape of one letter stands for. -/
def escaped? : Char → Option Char
  | '0' => some (Char.ofNat 0x00)
  | 'a' => some (Char.ofNat 0x07)
  | 'b' => some (Char.ofNat 0x08)
  | 't' | '\t' => some '\t'
  | 'n' => some '\n'
  | 'v' => some (Char.ofNat 0x0b)
  | 'f' => some (Char.ofNat 0x0c)
  | 'r' => some '\r'
  | 'e' => some (Char.ofNat 0x1b)
  | ' ' => some ' '
  | '"' => some '"'
  | '\'' => some '\''
  | '/' => some '/'
  | '\\' => some '\\'
  | 'N' => some (Char.ofNat 0x85)
  | '_' => some (Char.ofNat 0xa0)
  | 'L' => some (Char.ofNat 0x2028)
  | 'P' => some (Char.ofNat 0x2029)
  | _ => none

/-- The number of digits of an escape by number. -/
def escapeLength? : Char → Option Nat
  | 'x' => some 2
  | 'u' => some 4
  | 'U' => some 8
  | _ => none

/-- The character with the number written in hexadecimal. -/
def charOfHex? (ds : List Char) : Option Char :=
  (Scalar.natural? 16 ds).bind fun n => if n.isValidChar then some (Char.ofNat n) else none

/-- Reads a double-quoted scalar behind its opening quote. The first argument counts the characters
that an escape has already accounted for. -/
def doubleQuoted (skip : Nat) (gap : Gap) (out : List Char) (m : Mark) :
    List Char → Except Malformed Lexeme
  | [] => .error {}
  | c :: cs =>
    if skip > 0 then doubleQuoted (skip - 1) gap out (m.step c) cs
    else if isBlankOrTab c then doubleQuoted 0 (gap.blank c) out (m.step c) cs
    else if isBreak c then doubleQuoted 0 (gap.lineBreak c) out (m.step c) cs
    else if m.column = 0 && startsWithDocumentMark (c :: cs) then .error {}
    else
      let out := gap.text.reverse ++ out
      if c = '"' then .ok ⟨out.reverse, m.step c, cs, false⟩
      else if c = '\\' then
        match cs with
        | [] => .error {}
        | d :: ds =>
          if isBreak d then doubleQuoted 1 { broken := true } out (m.step c) (d :: ds)
          else match escaped? d with
            | some e => doubleQuoted 1 {} (e :: out) (m.step c) (d :: ds)
            | none =>
              match (escapeLength? d).bind fun n => (charOfHex? (ds.take n)).map (n, ·) with
              | some (n, e) =>
                if (ds.take n).length < n then .error {}
                else doubleQuoted (n + 1) {} (e :: out) (m.step c) (d :: ds)
              | none => .error {}
      else doubleQuoted 0 {} (c :: out) (m.step c) cs

/-! ### Block scalars -/

/-- How the end of a block is treated. -/
inductive Chomping where
  | strip | clip | keep
  deriving DecidableEq, Repr

/-- The head of a block: how its end is treated, and how far it is indented beyond its parent. -/
structure BlockHead where
  chomping : Chomping := .clip
  increment : Nat := 0

/-- Reads the signs in the head of a block, one of each kind at most. -/
def blockHead (cs : List Char) : Except Malformed (BlockHead × List Char) :=
  let chomp? (c : Char) : Option Chomping :=
    if c = '+' then some .keep else if c = '-' then some .strip else none
  let digit? (c : Char) : Option Nat := if c.isDigit then some (digitValue c) else none
  let accept (h : BlockHead) (rest : List Char) (digit : Bool) :
      Except Malformed (BlockHead × List Char) :=
    if digit && h.increment = 0 then .error {} else .ok (h, rest)
  match cs with
  | a :: b :: rest =>
    match chomp? a, digit? a with
    | some chomping, _ =>
      match digit? b with
      | some n => accept ⟨chomping, n⟩ rest true
      | none => .ok (⟨chomping, 0⟩, b :: rest)
    | none, some n =>
      match chomp? b with
      | some chomping => accept ⟨chomping, n⟩ rest true
      | none => accept ⟨.clip, n⟩ (b :: rest) true
    | none, none => .ok ({}, cs)
  | [a] =>
    match chomp? a, digit? a with
    | some chomping, _ => .ok (⟨chomping, 0⟩, [])
    | none, some n => accept ⟨.clip, n⟩ [] true
    | none, none => .ok ({}, cs)
  | [] => .ok ({}, [])

/-- The line breaks before the first line of a block and the indentation found there. -/
def blockMargin (deepest : Nat) (breaks : List Char) (m : Mark) :
    List Char → Except Malformed (Nat × List Char × Mark × List Char)
  | [] => .ok (deepest, breaks, m, [])
  | c :: cs =>
    if c = ' ' then blockMargin (max deepest (m.column + 1)) breaks (m.step c) cs
    else if c = '\t' then .error {}
    else if isBreak c then blockMargin deepest (breaks ++ [c]) (m.step c) cs
    else .ok (deepest, breaks, m, c :: cs)

/-- The text of a block so far. -/
structure BlockText where
  out : List Char := []
  /-- The line break that ended the last line. -/
  first : Option Char := none
  /-- The empty lines after it. -/
  more : List Char := []
  /-- Whether the last line started with a blank. -/
  indented : Bool := false
  inLine : Bool := false

/-- Starts a line of a block with the given character. -/
def BlockText.startLine (b : BlockText) (literal : Bool) (c : Char) : BlockText :=
  let blank := isBlankOrTab c
  let joint :=
    if !literal && !b.indented && !blank && b.first = some '\n' then
      (if b.more.isEmpty then [' '] else [])
    else b.first.toList
  { out := c :: ((joint ++ b.more).reverse ++ b.out), indented := blank, inLine := true }

/-- Reads the lines of a block that are indented by `indent`. -/
def blockLines (literal : Bool) (indent : Nat) (b : BlockText) (m : Mark) :
    List Char → Except Malformed (BlockText × Mark × List Char)
  | [] => .ok (b, m, [])
  | c :: cs =>
    if b.inLine then
      if isBreak c then
        blockLines literal indent { b with first := some c, inLine := false } (m.step c) cs
      else blockLines literal indent { b with out := c :: b.out } (m.step c) cs
    else if c = ' ' && m.column < indent then blockLines literal indent b (m.step c) cs
    else if c = '\t' && m.column < indent then .error {}
    else if isBreak c then blockLines literal indent { b with more := b.more ++ [c] } (m.step c) cs
    else if m.column = indent then blockLines literal indent (b.startLine literal c) (m.step c) cs
    else .ok (b, m, c :: cs)

/-- Drops a comment. -/
def dropComment (cs : List Char) : List Char :=
  match cs with
  | '#' :: _ => cs.dropWhile (!isBreak ·)
  | _ => cs

/-- Reads a block scalar behind its indicator; `parent` is the indentation around it. -/
def blockScalar (literal : Bool) (parent : Int) (m : Mark) (cs : List Char) :
    Except Malformed Lexeme := do
  let (head, rest) ← blockHead cs
  let body := dropComment (rest.dropWhile isBlankOrTab)
  let m := m.steps (cs.take (cs.length - body.length))
  let (m, body) ← match body with
    | [] => pure (m, [])
    | c :: cs => if isBreak c then pure (m.step c, cs) else throw {}
  let least := (parent + 1).toNat
  let (indent, b, m, body) ←
    if head.increment > 0 then
      pure ((max parent 0).toNat + head.increment, ({} : BlockText), m, body)
    else do
      let (deepest, breaks, m, body) ← blockMargin 0 [] m body
      pure (max 1 (max deepest least), { more := breaks }, m, body)
  let (b, m, rest) ← blockLines literal indent b m body
  let tail := match head.chomping with
    | .strip => []
    | .clip => b.first.toList
    | .keep => b.first.toList ++ b.more
  return ⟨b.out.reverse ++ tail, m, rest, true⟩

end ViewCompiler.Document.Yaml
