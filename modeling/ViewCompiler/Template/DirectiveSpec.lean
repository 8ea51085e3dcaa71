import ViewCompiler.Template.Identifier
import ViewCompiler.Template.Node
import ViewCompiler.Text.Quoted

/-!
# Directive specifications

A condition is an optionally negated path. A repeater is written `(item, index) of source`, the
brackets and the index being optional, followed by `; key: path` when items are matched by key.
-/

namespace ViewCompiler.Template

open ViewCompiler.Text

/-- Why the specification of a directive is refused. -/
inductive DirectiveError where
  | condition (spec : String)
  | repeater (spec : String)
  | sameVariable (name : String)
  | source (source : String)
  | key (tail : String)
  | keyPath (path : String)
  deriving DecidableEq, Repr

/-- The message for a refused specification. -/
def DirectiveError.message : DirectiveError → String
  | condition spec => "w:if expects [!]<property path>, got " ++ quote spec
  | repeater spec => "w:for expects (item[, index]) of <path>[; key: <path>], got " ++ quote spec
  | sameVariable name => "w:for item and index are both named " ++ quote name
  | source s => "w:for source " ++ quote s ++ " is not a property path"
  | key tail => "w:for expects key: <path> after ';', got " ++ quote tail
  | keyPath path => "w:for key " ++ quote path ++ " is not a property path"

/-- Reads a condition. -/
def readCondition (spec : String) : Except DirectiveError Directive :=
  let s := trimBlank spec.toList
  let (negated, body) :=
    match s with
    | '!' :: rest => (true, trimBlank rest)
    | _ => (false, s)
  match readPath? body with
  | some path => .ok (.conditional negated path)
  | none => .error (.condition spec)

/-- Skips the blanks that may stand inside a repeater. -/
def skipSpace (cs : List Char) : List Char := cs.dropWhile isMarkupSpace

/-- Reads the optional `, index` after the item. -/
def readIndex (cs : List Char) : Option (List Char × List Char) :=
  match skipSpace cs with
  | ',' :: rest => readVariable? (skipSpace rest)
  | _ => none

/-- Reads the variables of a repeater: item, index (empty when absent) and the rest. -/
def readVariables? (cs : List Char) : Option (List Char × List Char × List Char) :=
  match cs with
  | '(' :: inner => do
    let (item, rest) ← readVariable? (skipSpace inner)
    let (index, rest) := (readIndex rest).getD ([], rest)
    match skipSpace rest with
    | ')' :: rest => some (item, index, rest)
    | _ => none
  | _ => do
    let (item, rest) ← readVariable? cs
    let (index, rest) := (readIndex rest).getD ([], rest)
    some (item, index, rest)

/-- Reads at least one blank. -/
def readSpace? (cs : List Char) : Option (List Char) :=
  match cs with
  | c :: rest => if isMarkupSpace c then some (skipSpace rest) else none
  | [] => none

/-- Reads the rest of a line: one or more characters without a newline. -/
def readLine? (cs : List Char) : Option (List Char) :=
  if cs.isEmpty || cs.contains '\n' then none else some cs

/-- Reads `item of source`: item, index and source text. -/
def readHead? (cs : List Char) : Option (List Char × List Char × List Char) := do
  let (item, index, rest) ← readVariables? cs
  let rest ← readSpace? rest
  let rest ← dropPrefix? ['o', 'f'] rest
  let rest ← readSpace? rest
  let source ← readLine? rest
  some (item, index, source)

/-- Reads `key: path` and gives the path text. -/
def readKey? (cs : List Char) : Option (List Char) := do
  let rest ← dropPrefix? ['k', 'e', 'y'] cs
  match skipSpace rest with
  | ':' :: rest => readLine? (skipSpace rest)
  | _ => none

/-- Reads the key of a repeater from the text after the semicolon. -/
def readKeyPath (tail : List Char) : Except DirectiveError (List String) :=
  let tail := trimBlank tail
  match readKey? tail with
  | none => .error (.key (String.ofList tail))
  | some text =>
    let text := trimBlank text
    match readPath? text with
    | none => .error (.keyPath (String.ofList text))
    | some path => .ok path.segments

/-- Reads a repeater. -/
def readRepeater (spec : String) : Except DirectiveError Loop :=
  let s := trimBlank spec.toList
  let (head, tail) :=
    match cut? [';'] s with
    | some (head, tail) => (head, some tail)
    | none => (s, none)
  match readHead? (trimBlank head) with
  | none => .error (.repeater spec)
  | some (item, index, sourceText) =>
    if !index.isEmpty && index = item then .error (.sameVariable (String.ofList item))
    else
      let sourceText := trimBlank sourceText
      match readPath? sourceText with
      | none => .error (.source (String.ofList sourceText))
      | some source =>
        match tail with
        | none => .ok { item := String.ofList item, index := String.ofList index, source }
        | some tail =>
          match readKeyPath tail with
          | .error e => .error e
          | .ok key =>
            .ok { item := String.ofList item, index := String.ofList index, source, key }

/-! ### Canonical form -/

/-- The text that reads back as the given repeater. -/
def Loop.render (l : Loop) : String :=
  let names := if l.index = "" then s!"({l.item})" else s!"({l.item}, {l.index})"
  let key := if l.key.isEmpty then "" else "; key: " ++ join "." l.key
  names ++ " of " ++ l.source.render ++ key

/-- The text that reads back as the given directive. -/
def Directive.render : Directive → String
  | conditional negated path => (if negated then "!" else "") ++ path.render
  | repeating loop => loop.render

end ViewCompiler.Template
