import ViewCompiler.Template.Fault

/-!
# Template tokens

A template is first read into a flat list of tokens: pieces of text, interpolations, opening and
closing tags. Comments and declarations leave no token. What a tag contains is decided here as far
as its name alone decides it: void elements have no content, and the content of `script` and
`style` is taken as it stands up to the closing tag. Reading stops at the first failure; the
tokens before it are kept, because a failure of a later stage in one of them comes first.
-/

namespace ViewCompiler.Template

open ViewCompiler.Text

/-! ### Tags -/

/-- An attribute as written. -/
structure Attribute where
  name : String
  /-- The text of the value, without quotes; `none` when there is no equals sign. -/
  value : Option String
  start : Nat
  stop : Nat
  valueStart : Nat
  deriving DecidableEq, Repr, Inhabited

/-- The offset just past the value. -/
def Attribute.valueStop (a : Attribute) : Nat := a.valueStart + (a.value.getD "").utf8ByteSize

/-- An opening tag of an element or a component. -/
structure Tag where
  name : String
  attributes : List Attribute
  start : Nat
  stop : Nat
  deriving DecidableEq, Repr, Inhabited

/-- An opening tag of a directive, with its specification as written. -/
structure DirectiveTag where
  directive : Directive
  spec : String
  start : Nat
  stop : Nat
  specStart : Nat
  specStop : Nat
  deriving DecidableEq, Repr, Inhabited

/-- A piece of a template. -/
inductive Token where
  /-- Running text without interpolations, references not yet decoded. -/
  | text (start stop : Nat) (raw : String)
  /-- The value between double braces. -/
  | interpolation (start stop : Nat) (value : Value)
  /-- A tag whose content follows. -/
  | opening (tag : Tag)
  /-- A tag without content. -/
  | leaf (tag : Tag)
  /-- A raw text element: its tag, its body and the offset just past its closing tag. -/
  | verbatim (tag : Tag) (bodyStart bodyStop : Nat) (body : String) (stop : Nat)
  /-- A directive tag. -/
  | directive (tag : DirectiveTag) (selfClosing : Bool)
  /-- A closing tag. -/
  | closing (name : String) (start stop : Nat)
  deriving DecidableEq, Repr

/-! ### Names -/

/-- Characters a tag may start with. -/
def isNameStart (c : Char) : Bool := c.isAlpha

/-- Characters a tag may go on with. -/
def isNameChar (c : Char) : Bool :=
  c.isAlphanum || c == '-' || c == '_' || c == ':' || c == '.'

/-- Elements that never have content. -/
def voidElements : List String :=
  ["area", "base", "br", "col", "embed", "hr", "img", "input", "link", "meta", "param", "source",
   "track", "wbr"]

/-- Elements whose content is taken as it stands. -/
def rawTextElements : List String := ["script", "style"]

/-- Whether a tag refers to a component: its name starts with a capital or has a hyphen. -/
def isComponentName (name : String) : Bool :=
  name.toList.head?.any Char.isUpper || name.toList.contains '-'

/-- Whether a tag is an element without content. -/
def isVoidElement (name : String) : Bool :=
  !isComponentName name && voidElements.contains (lowercase name)

/-- Whether a tag is an element with raw content. -/
def isRawTextElement (name : String) : Bool :=
  !isComponentName name && rawTextElements.contains (lowercase name)

/-! ### Reading -/

/-- What is left to read, and the byte offset at which it begins. -/
structure Cursor where
  rest : List Char
  offset : Nat
  deriving Repr

namespace Cursor

/-- The cursor after the characters `taken`, when `rest` follows them. -/
def past (c : Cursor) (taken rest : List Char) : Cursor := ⟨rest, c.offset + byteLength taken⟩

/-- The cursor after the leading characters that satisfy `p`. -/
def skipWhile (c : Cursor) (p : Char → Bool) : Cursor :=
  c.past (c.rest.takeWhile p) (c.rest.dropWhile p)

/-- The cursor after the blanks inside a tag. -/
def skipSpace (c : Cursor) : Cursor := c.skipWhile isMarkupSpace

/-- The cursor after the text `s`, when it stands here. -/
def consume? (c : Cursor) (s : List Char) : Option Cursor :=
  (dropPrefix? s c.rest).map (c.past s)

end Cursor

/-- Whether markup rather than text stands here. -/
def atTag : List Char → Bool
  | '<' :: c :: _ => c == '/' || c == '!' || isNameStart c
  | _ => false

/-- The two braces that open an interpolation. -/
def openBraces : List Char := ['\x7b', '\x7b']

/-- The text up to the next markup or interpolation, and what follows. -/
def takeText : List Char → List Char × List Char
  | [] => ([], [])
  | c :: cs =>
    if atTag (c :: cs) || startsWith openBraces (c :: cs) then ([], c :: cs)
    else
      let (text, rest) := takeText cs
      (c :: text, rest)

/-! ### Attributes -/

/-- Whether the name of an attribute ends here. -/
def endsAttributeName : List Char → Bool
  | [] => true
  | c :: cs => isMarkupSpace c || c == '=' || c == '>' || (c == '/' && cs.head? == some '>')

/-- Whether an unquoted value ends here. -/
def endsUnquoted : List Char → Bool
  | [] => true
  | c :: cs => isMarkupSpace c || c == '>' || (c == '/' && cs.head? == some '>')

/-- Characters that may not stand in the name of an attribute. -/
def isForbiddenInName (c : Char) : Bool := c == '"' || c == '\'' || c == '<'

/-- The characters before the first place where `stops` holds, and what follows. -/
def takeUntil (stops : List Char → Bool) : List Char → List Char × List Char
  | [] => ([], [])
  | c :: cs =>
    if stops (c :: cs) then ([], c :: cs)
    else
      let (taken, rest) := takeUntil stops cs
      (c :: taken, rest)

/-- Reads the value of an attribute after its equals sign. -/
def readAttributeValue (size : Nat) (tag name : String) (start : Nat) (c : Cursor) :
    Except Failure (Attribute × Cursor) :=
  match c.rest with
  | [] => .error (.fault start c.offset (.missingValue name))
  | q :: rest =>
    if q = '"' || q = '\'' then
      match cut? [q] rest with
      | none => .error (.fault start size (.unterminatedValue name))
      | some (value, after) =>
        let valueStart := c.offset + q.utf8Size
        let c := c.past (q :: value ++ [q]) after
        .ok (⟨name, some (String.ofList value), start, c.offset, valueStart⟩, c)
    else
      let (value, after) := takeUntil endsUnquoted c.rest
      if value.isEmpty then .error (.fault start c.offset (.emptyValue name tag))
      else
        let next := c.past value after
        .ok (⟨name, some (String.ofList value), start, next.offset, c.offset⟩, next)

/-- Reads one attribute. -/
def readAttribute (size : Nat) (tag : String) (c : Cursor) : Except Failure (Attribute × Cursor) :=
  let (name, rest) :=
    takeUntil (fun cs => endsAttributeName cs || cs.head?.any isForbiddenInName) c.rest
  let here := c.past name rest
  let unexpected (d : Char) : Except Failure (Attribute × Cursor) :=
    .error (.fault here.offset (here.offset + 1) (.unexpectedCharacter d tag))
  match rest with
  | d :: _ =>
    if isForbiddenInName d || name.isEmpty then unexpected d
    else afterName name here
  | [] => afterName name here
where
  /-- Reads what follows the name of an attribute. -/
  afterName (name : List Char) (here : Cursor) : Except Failure (Attribute × Cursor) :=
    let here := here.skipSpace
    match here.consume? ['='] with
    | some valued => readAttributeValue size tag (String.ofList name) c.offset valued.skipSpace
    | none => .ok (⟨String.ofList name, none, c.offset, here.offset, 0⟩, here)

/-- Reads the attributes of a tag up to its end: the attributes, whether the tag closes itself,
and the cursor after it. -/
def readAttributes (size : Nat) (start : Nat) (tag : String) (c : Cursor) :
    Except Failure (List Attribute × Bool × Cursor) :=
  let here := c.skipSpace
  if here.rest.isEmpty then .error (.fault start here.offset (.unterminatedTag tag))
  else match here.consume? ['/', '>'], here.consume? ['>'] with
    | some after, _ => .ok ([], true, after)
    | none, some after => .ok ([], false, after)
    | none, none =>
      match readAttribute size tag here with
      | .error e => .error e
      | .ok (attr, next) =>
        if next.rest.length < c.rest.length then
          match readAttributes size start tag next with
          | .error e => .error e
          | .ok (attrs, selfClosing, after) => .ok (attr :: attrs, selfClosing, after)
        else .ok ([attr], false, next)
termination_by c.rest.length

/-! ### Raw text -/

/-- The first `n` bytes of a text, and what follows them when they end between two characters. A
character that is cut leaves one replacement character for each of its bytes. -/
def cutBytes : Nat → List Char → List Char × Option (List Char)
  | 0, cs => ([], some cs)
  | _ + 1, [] => ([], some [])
  | n + 1, c :: cs =>
    if c.utf8Size ≤ n + 1 then
      let (taken, rest) := cutBytes (n + 1 - c.utf8Size) cs
      (c :: taken, rest)
    else (List.replicate (n + 1) (Char.ofNat 0xfffd), none)
termination_by _ cs => cs.length

/-- Reads the body of a raw text element after its opening tag. The closing tag is searched in the
lower case form of the remaining text, and its place there, in bytes, is taken as its place in the
template. -/
def readRawText (size : Nat) (tag : Tag) (c : Cursor) : Except Failure (Token × Cursor) :=
  let closing := '<' :: '/' :: (tag.name.toList.map lowerChar)
  match cut? closing (c.rest.map lowerChar) with
  | none => .error (.fault tag.start tag.stop (.unclosedTag tag.name))
  | some (before, _) =>
    let bodyLength := byteLength before
    let bodyStop := c.offset + bodyLength
    let nameStop := bodyStop + byteLength closing
    if nameStop > size then .error .overrun
    else
      let (body, _) := cutBytes bodyLength c.rest
      match cutBytes (bodyLength + byteLength closing) c.rest with
      | (_, none) => .error (.fault bodyStop nameStop (.malformedClosing tag.name))
      | (_, some rest) =>
        let here := Cursor.skipSpace ⟨rest, nameStop⟩
        match here.consume? ['>'] with
        | none => .error (.fault bodyStop here.offset (.malformedClosing tag.name))
        | some after =>
          .ok (.verbatim tag c.offset bodyStop (String.ofList body) after.offset, after)

/-! ### Tokens one by one -/

/-- Reads a directive tag after its name. -/
def readDirective (size start : Nat) (name : String) (c : Cursor) :
    Except Failure (Token × Cursor) :=
  if name = "w:if" then body (readCondition ·)
  else if name = "w:for" then body (fun spec => (readRepeater spec).map .repeating)
  else .error (.fault start c.offset (.unknownDirective name))
where
  /-- Reads the specification and the end of the tag. -/
  body (read : String → Except DirectiveError Directive) : Except Failure (Token × Cursor) :=
    match cut? ['>'] c.rest with
    | none => .error (.fault start size (.unterminatedTag name))
    | some (raw, rest) =>
      let after := c.past (raw ++ ['>']) rest
      let selfClosing := raw.getLast? = some '/'
      let raw := if selfClosing then raw.dropLast else raw
      let spec := String.ofList (trimBlank raw)
      let specStop := c.offset + byteLength raw
      match read spec with
      | .error e => .error (.fault c.offset specStop (.directive e))
      | .ok directive =>
        .ok (.directive ⟨directive, spec, start, after.offset, c.offset, specStop⟩ selfClosing,
          after)

/-- Reads a tag from its opening angle bracket. -/
def readTag (size : Nat) (c : Cursor) : Except Failure (Token × Cursor) :=
  let start := c.offset
  let inner := c.past ['<'] (c.rest.drop 1)
  let here := inner.skipWhile isNameChar
  let name := String.ofList (inner.rest.takeWhile isNameChar)
  if hasPrefix "w:" name then readDirective size start name here
  else match readAttributes size start name here with
    | .error e => .error e
    | .ok (attributes, selfClosing, after) =>
      let tag : Tag := { name, attributes, start, stop := after.offset }
      if selfClosing || isVoidElement name then .ok (.leaf tag, after)
      else if isRawTextElement name then readRawText size tag after
      else .ok (.opening tag, after)

/-- Reads a closing tag. -/
def readClosing (c : Cursor) : Except Failure (Token × Cursor) :=
  let inner := c.past ['<', '/'] (c.rest.drop 2)
  let name := String.ofList (inner.rest.takeWhile isNameChar)
  let here := (inner.skipWhile isNameChar).skipSpace
  match here.consume? ['>'] with
  | none => .error (.fault c.offset here.offset (.malformedClosing name))
  | some after => .ok (.closing name c.offset after.offset, after)

/-- Reads an interpolation from its opening braces. -/
def readInterpolation (size : Nat) (c : Cursor) : Except Failure (Token × Cursor) :=
  match cutInterpolation .outside (c.rest.drop 2) with
  | none => .error (.fault c.offset size .unterminatedInterpolation)
  | some (source, rest) =>
    let after := c.past (openBraces ++ source ++ ['\x7d', '\x7d']) rest
    match readExpression false source with
    | .error e => .error (.fault c.offset after.offset (.expression e))
    | .ok value => .ok (.interpolation c.offset after.offset value, after)

/-- Reads what stands here: a token, or `none` for a comment or declaration. -/
def step (size : Nat) (c : Cursor) : Except Failure (Option Token × Cursor) :=
  if startsWith ['<', '!', '-', '-'] c.rest then
    match cut? ['-', '-', '>'] (c.rest.drop 4) with
    | none => .error (.fault c.offset size .unterminatedComment)
    | some (comment, rest) => .ok (none, ⟨rest, c.offset + 4 + byteLength comment + 3⟩)
  else if startsWith ['<', '!'] c.rest then
    match cut? ['>'] c.rest with
    | none => .error (.fault c.offset size .unterminatedDeclaration)
    | some (declaration, rest) => .ok (none, c.past (declaration ++ ['>']) rest)
  else if startsWith ['<', '/'] c.rest then some' (readClosing c)
  else if atTag c.rest then some' (readTag size c)
  else if startsWith openBraces c.rest then some' (readInterpolation size c)
  else
    let (text, rest) := takeText c.rest
    let after := c.past text rest
    .ok (some (.text c.offset after.offset (String.ofList text)), after)
where
  /-- A step that gives a token. -/
  some' (r : Except Failure (Token × Cursor)) : Except Failure (Option Token × Cursor) :=
    r.map fun (t, c) => (some t, c)

/-- The tokens of a template up to the first failure, and that failure. -/
structure Scan where
  tokens : List Token
  failure : Option Failure
  deriving DecidableEq, Repr

/-- Reads the tokens from a cursor on. Every step leaves less to read. -/
def scanFrom (size : Nat) (c : Cursor) : Scan :=
  if c.rest.isEmpty then ⟨[], none⟩
  else match step size c with
    | .error e => ⟨[], some e⟩
    | .ok (token, next) =>
      if next.rest.length < c.rest.length then
        let scan := scanFrom size next
        ⟨token.toList ++ scan.tokens, scan.failure⟩
      else ⟨token.toList, none⟩
termination_by c.rest.length

/-- Reads the tokens of a template. -/
def scan (source : List Char) : Scan := scanFrom (byteLength source) ⟨source, 0⟩

end ViewCompiler.Template
