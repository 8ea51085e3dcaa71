import ViewCompiler.Text.Basic

/-!
# Tokens of Go source

The behaviour of a component may be written in Go. This module splits such a source into tokens. A
line that ends behind an operand ends a statement: there a semicolon is added, as the language asks
for. Comments count as blanks, or as line ends if they contain one.
-/

namespace ViewCompiler.GoSource

open ViewCompiler.Text

/-- A token. -/
inductive Token where
  | name (text : String)
  | keyword (text : String)
  /-- A number or a character. -/
  | literal
  /-- A string, with its body as written. -/
  | string (body : String)
  /-- An operator or a delimiter. -/
  | mark (text : String)
  | endOfFile
  deriving DecidableEq, Repr, Inhabited

/-- The words that are no names. -/
def keywords : List String :=
  ["break", "case", "chan", "const", "continue", "default", "defer", "else", "fallthrough", "for",
   "func", "go", "goto", "if", "import", "interface", "map", "package", "range", "return", "select",
   "struct", "switch", "type", "var"]

/-- The operators and delimiters, longer ones before their beginnings. -/
def marks : List String :=
  ["<<=", ">>=", "&^=", "...", "&&", "||", "<-", "++", "--", "==", "!=", "<=", ">=",
   ":=", "+=", "-=",
   "*=", "/=", "%=", "&=", "|=", "^=", "<<", ">>", "&^", "+", "-", "*", "/", "%", "&",
   "|", "^", "<",
   ">", "=", "!", "(", ")", "[", "]", "\x7b", "\x7d", ",", ";", ".", ":", "~"]

/-- Whether a line that ends behind the token ends a statement. -/
def Token.endsStatement : Token → Bool
  | .name _ | .literal | .string _ => true
  | .keyword w => ["break", "continue", "fallthrough", "return"].contains w
  | .mark m => ["++", "--", ")", "]", "\x7d"].contains m
  | .endOfFile => false

/-- Whether a character may start a name. -/
def startsName (c : Char) : Bool := c = '_' || isLetter c

/-- Whether a character may go on a name. -/
def continuesName (c : Char) : Bool := startsName c || isDecimalDigit c

/-! ### Numbers -/

/-- Whether a character is a digit in the given base. -/
def isDigitIn (base : Nat) (c : Char) : Bool :=
  if base ≤ 10 then c.isDigit && digitValue c < base
  else c.isDigit || ('a' ≤ c && c ≤ 'f') || ('A' ≤ c && c ≤ 'F')

/-- Whether every underscore stands between two digits, or between the mark of a base and a
digit. -/
def underscoresSeparate (digitBefore : Bool) : List Char → Bool
  | [] => true
  | '_' :: c :: cs => digitBefore && c ≠ '_' && underscoresSeparate true (c :: cs)
  | ['_'] => false
  | _ :: cs => underscoresSeparate true cs

/-- Reads digits and underscores. -/
def digitRun (base : Nat) (cs : List Char) : List Char × List Char :=
  let p (c : Char) : Bool := c = '_' || isDigitIn (max base 10) c
  (cs.takeWhile p, cs.dropWhile p)

/-- Whether a run has at least one digit and only those of the base. -/
def isRunOf (base : Nat) (afterMark : Bool) (run : List Char) : Bool :=
  run.any (· ≠ '_') && run.all (fun c => c = '_' || isDigitIn base c) &&
    underscoresSeparate afterMark run

/-- Reads an exponent, if one is marked by one of the given letters. -/
def exponent? (letters : List Char) : List Char → Option (Bool × List Char)
  | c :: cs =>
    if letters.contains c then
      let cs := match cs with | '+' :: cs | '-' :: cs => cs | cs => cs
      let (run, rest) := digitRun 10 cs
      if isRunOf 10 false run then some (true, rest) else none
    else some (false, c :: cs)
  | [] => some (false, [])

/-- Reads a number at the front of a text; gives what follows. -/
def number? (cs : List Char) : Option (List Char) := do
  let (base, prefixed, body) := match cs with
    | '0' :: 'x' :: cs | '0' :: 'X' :: cs => (16, true, cs)
    | '0' :: 'o' :: cs | '0' :: 'O' :: cs => (8, true, cs)
    | '0' :: 'b' :: cs | '0' :: 'B' :: cs => (2, true, cs)
    | cs => (10, false, cs)
  let (whole, rest) := digitRun base body
  let (fraction, rest, pointed) := match rest with
    | '.' :: after =>
      if base = 10 || base = 16 then
        let (run, rest) := digitRun base after
        (run, rest, true)
      else ([], rest, false)
    | _ => ([], rest, false)
  let (scaled, rest) ← exponent? (if base = 16 then ['p', 'P'] else if base = 10 then ['e', 'E']
      else []) rest
  let imaginary := rest.head? = some 'i'
  let rest := if imaginary then rest.tail else rest
  let octal :=
    !prefixed && whole.length > 1 && whole.head? = some '0' && !pointed && !scaled && !imaginary
  let digitsOk (run : List Char) (afterMark : Bool) : Bool :=
    run.isEmpty || isRunOf base afterMark run
  if !(digitsOk whole prefixed && digitsOk fraction false) then none
  else if (whole ++ fraction).isEmpty then none
  else if base = 16 && pointed && !scaled then none
  else if octal && whole.any (fun c => c = '8' || c = '9') then none
  else some rest

/-! ### Quoted text -/

/-- The number of characters that an escape takes behind its backslash. -/
def escapeLength? (quote : Char) (cs : List Char) : Option Nat :=
  let value (base : Nat) (ds : List Char) : Nat :=
    ds.foldl (fun n c =>
      base * n + (if c.isDigit then digitValue c else (c.toLower.toNat - 'a'.toNat + 10))) 0
  let coded (base digits bound : Nat) (ds : List Char) : Option Nat :=
    let ds := ds.take digits
    if ds.length = digits && ds.all (isDigitIn base) && value base ds < bound &&
        (bound ≤ 256 || !(0xd800 ≤ value base ds && value base ds ≤ 0xdfff)) then some digits
    else none
  match cs with
  | [] => none
  | c :: rest =>
    if c = quote || "abfnrtv\\".toList.contains c then some 1
    else if c = 'x' then (coded 16 2 256 rest).map (· + 1)
    else if c = 'u' then (coded 16 4 0x110000 rest).map (· + 1)
    else if c = 'U' then (coded 16 8 0x110000 rest).map (· + 1)
    else if isDigitIn 8 c then coded 8 3 256 cs
    else none

/-- Reads quoted text behind its opening quote; gives its body and what follows. The first argument
counts the characters that belong to an escape. -/
def quoted? (quote : Char) (skip : Nat) (body : List Char) :
    List Char → Option (List Char × List Char)
  | [] => none
  | c :: cs =>
    if skip > 0 then quoted? quote (skip - 1) (c :: body) cs
    else if c = '\n' then none
    else if c = quote then some (body.reverse, cs)
    else if c = '\\' then
      match escapeLength? quote cs with
      | some n => quoted? quote n (c :: body) cs
      | none => none
    else quoted? quote 0 (c :: body) cs

/-- The number of characters that the body of a quoted text stands for. -/
def quotedLength (quote : Char) (skip : Nat) : List Char → Nat
  | [] => 0
  | c :: cs =>
    if skip > 0 then quotedLength quote (skip - 1) cs
    else if c = '\\' then quotedLength quote ((escapeLength? quote cs).getD 0) cs + 1
    else quotedLength quote 0 cs + 1

/-! ### Whole sources -/

/-- Reads one token that is no blank and no comment; gives what follows. -/
def token? (cs : List Char) : Option (Token × List Char) :=
  match cs with
  | [] => none
  | c :: rest =>
    if startsName c then
      let word := String.ofList (cs.takeWhile continuesName)
      some (if keywords.contains word then .keyword word else .name word,
        cs.dropWhile continuesName)
    else if c.isDigit || (c = '.' && rest.head?.any Char.isDigit) then
      (number? cs).map fun rest => (.literal, rest)
    else if c = '"' then
      (quoted? '"' 0 [] rest).map fun (body, rest) => (.string (String.ofList body), rest)
    else if c = '\'' then
      (quoted? '\'' 0 [] rest).bind fun (body, rest) =>
        if quotedLength '\'' 0 body = 1 then some (.literal, rest) else none
    else if c.toNat = 0x60 then
      let body := rest.takeWhile (·.toNat ≠ 0x60)
      if body.length < rest.length then
        some (.string (String.ofList body), rest.drop (body.length + 1))
      else none
    else (marks.findSome? fun m => (dropPrefix? m.toList cs).map fun rest => (.mark m, rest))

/-- What a source goes on with. -/
inductive Scanned where
  | blank (rest : List Char)
  | lineEnd (rest : List Char)
  | token (t : Token) (rest : List Char)
  | done

/-- Reads a blank, a comment, a line end or a token at the front of a source. -/
def scan? (cs : List Char) : Option Scanned :=
  match cs with
  | [] => some .done
  | '\n' :: rest => some (.lineEnd rest)
  | '/' :: '/' :: rest => some (.lineEnd ((rest.dropWhile (· ≠ '\n')).drop 1))
  | '/' :: '*' :: rest =>
    (cut? "*/".toList rest).map fun (body, rest) =>
      if body.contains '\n' then .lineEnd rest else .blank rest
  | c :: rest =>
    if c = ' ' || c = '\t' || c = '\r' then some (.blank rest)
    else (token? cs).map fun (t, rest) => .token t rest

/-- The tokens of a source, each line end behind an operand giving a semicolon. `fuel` bounds the
number of steps. -/
def tokensFrom (last : Token) (cs : List Char) : (fuel : Nat) → Option (List Token)
  | 0 => none
  | fuel + 1 =>
    match scan? cs with
    | none => none
    | some .done =>
      some (if last.endsStatement then [.mark ";", .endOfFile] else [.endOfFile])
    | some (.blank rest) => tokensFrom last rest fuel
    | some (.lineEnd rest) =>
      if last.endsStatement then (.mark ";" :: ·) <$> tokensFrom (.mark ";") rest fuel
      else tokensFrom last rest fuel
    | some (.token t rest) => (t :: ·) <$> tokensFrom t rest fuel

/-- Whether a character may stand nowhere in a source, not even in a comment: the null character,
and the byte order mark, which counts only in front of the whole source. -/
def isForbidden (c : Char) : Bool := c.toNat = 0 || c.toNat = 0xfeff

/-- The tokens of a source, if it has no malformed ones. Every step takes at least one character. -/
def tokens? (source : String) : Option (List Token) :=
  let cs := match source.toList with
    | c :: cs => if c.toNat = 0xfeff then cs else c :: cs
    | [] => []
  if cs.any isForbidden then none else tokensFrom (.mark ";") cs (cs.length + 1)

end ViewCompiler.GoSource
