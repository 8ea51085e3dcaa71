import ViewCompiler.Text.Basic

/-!
# Bound values

What a binding reads: literal text, a literal expression, a dotted path such as `user.name`, or a
call with arguments. Arguments are a smaller type of their own, because a call is never nested in
another and the event payload `#` only ever occurs as an argument.
-/

namespace ViewCompiler.Template

open ViewCompiler.Text

/-- A dotted path. Its root is the name looked up in the enclosing scopes. -/
structure Path where
  root : String
  rest : List String := []
  deriving DecidableEq, Repr, Inhabited

namespace Path

/-- All segments of a path. -/
def segments (p : Path) : List String := p.root :: p.rest

/-- A path in expression form. -/
def render (p : Path) : String := join "." p.segments

end Path

/-- An argument of a call. -/
inductive Argument where
  /-- A literal such as `'a'`, `42` or `true`, in expression form. -/
  | literal (source : String)
  /-- A dotted path. -/
  | access (path : Path)
  /-- The payload of the event being handled. -/
  | payload
  deriving DecidableEq, Repr, Inhabited

/-- A bound value. -/
inductive Value where
  /-- Markup text or the value of a literal attribute, with references decoded. -/
  | text (content : String)
  /-- A literal such as `'a'`, `42` or `true`, in expression form. -/
  | literal (source : String)
  /-- A dotted path. -/
  | access (path : Path)
  /-- A call of a declared method. -/
  | call (method : String) (arguments : List Argument)
  deriving DecidableEq, Repr, Inhabited

/-! ### String literals -/

/-- How one character is written inside a string literal with either kind of quote. -/
def escapeChar : Char → List Char
  | '\\' => ['\\', '\\']
  | '"' => ['\\', '"']
  | '\'' => ['\\', '\'']
  | '\n' => ['\\', 'n']
  | '\r' => ['\\', 'r']
  | '\t' => ['\\', 't']
  | c => [c]

/-- Text made safe for a string literal with either kind of quote. -/
def escape (s : String) : String := String.ofList (s.toList.flatMap escapeChar)

/-- Reads escaped text back; an escape of any other character is kept as it is. -/
def unescape : List Char → List Char
  | '\\' :: 'n' :: cs => '\n' :: unescape cs
  | '\\' :: 'r' :: cs => '\r' :: unescape cs
  | '\\' :: 't' :: cs => '\t' :: unescape cs
  | '\\' :: '\\' :: cs => '\\' :: unescape cs
  | '\\' :: '"' :: cs => '"' :: unescape cs
  | '\\' :: '\'' :: cs => '\'' :: unescape cs
  | c :: cs => c :: unescape cs
  | [] => []

/-! ### Expression form -/

/-- An argument in expression form. -/
def Argument.render : Argument → String
  | .literal source => source
  | .access path => path.render
  | .payload => "#"

/-- A value in expression form; text becomes a string literal. -/
def Value.render : Value → String
  | .text content => "'" ++ escape content ++ "'"
  | .literal source => source
  | .access path => path.render
  | .call method arguments => method ++ "(" ++ join ", " (arguments.map Argument.render) ++ ")"

/-- Whether a value is known without looking any name up. -/
def Value.isConstant : Value → Bool
  | .text _ | .literal _ => true
  | .access _ | .call .. => false

end ViewCompiler.Template
