import ViewCompiler.Template.Identifier
import ViewCompiler.Text.Quoted
import ViewCompiler.Text.Quoting

/-!
# Expressions

The small language inside interpolations and dynamic attributes: a literal, a dotted path, or a
call of a method with literals, paths and the event payload as arguments. Quotes delimit string
literals everywhere, with a backslash taking the next character along.
-/

namespace ViewCompiler.Template

open ViewCompiler.Text

/-- Why an argument of a call is refused. -/
inductive ArgumentError where
  | unterminatedString
  | empty
  /-- The payload outside an event handler. -/
  | strayPayload
  | invalid (source : String)
  deriving DecidableEq, Repr

/-- Why an expression is refused. -/
inductive ExpressionError where
  | empty
  /-- The payload on its own. -/
  | strayPayload
  | invalid (source : String)
  | methodName (name : String)
  | unclosedCall (method : String)
  | argument (method : String) (error : ArgumentError)
  deriving DecidableEq, Repr

/-- The message for a refused argument. -/
def ArgumentError.message : ArgumentError → String
  | unterminatedString => "unterminated string"
  | empty => "empty argument"
  | strayPayload => "# is only allowed as a handler argument"
  | invalid source => "invalid argument " ++ quote source

/-- The message for a refused expression. -/
def ExpressionError.message : ExpressionError → String
  | empty => "empty expression"
  | strayPayload => "# is only allowed as a handler argument"
  | invalid source => "invalid expression " ++ quote source
  | methodName name => "invalid method name " ++ quote name
  | unclosedCall method => s!"call {method} is not closed"
  | argument method error => s!"call {method}: {error.message}"

/-! ### Literals -/

/-- Whether `q` closes the string literal exactly at the end of the text. The flag tells whether
a backslash stands just before. -/
def closesAtEnd (q : Char) (escaped : Bool) : List Char → Bool
  | [] => false
  | c :: rest =>
    if escaped then closesAtEnd q false rest
    else if c = '\\' then closesAtEnd q true rest
    else if c = q then rest.isEmpty
    else closesAtEnd q false rest

/-- Whether text has the shape of a literal: a keyword, one string literal, or anything that
starts like a number. -/
def isLiteral (cs : List Char) : Bool :=
  if String.ofList cs ∈ ["true", "false", "null", "undefined"] then true
  else match cs with
    | [] => false
    | [c] => c.isDigit
    | c :: d :: rest =>
      if c = '\'' || c = '"' then closesAtEnd c false (d :: rest)
      else c.isDigit || ((c = '-' || c = '.') && d.isDigit)

/-! ### Quote-aware scanning -/

/-- Splits an argument list at the commas outside string literals; `none` when a literal is not
closed. -/
def splitArguments (state : Quoting) : List Char → Option (List (List Char))
  | [] => if state = .outside then some [[]] else none
  | c :: cs =>
    match splitArguments (state.next c) cs with
    | none => none
    | some pieces =>
      if state = .outside && c = ',' then some ([] :: pieces)
      else match pieces with
        | [] => some [[c]]
        | piece :: rest => some ((c :: piece) :: rest)

/-- What stands before and after the first `}}` outside string literals. -/
def cutInterpolation (state : Quoting) : List Char → Option (List Char × List Char)
  | [] => none
  | c :: cs =>
    if state = .outside && c = '\x7d' && cs.head? = some '\x7d' then some ([], cs.drop 1)
    else (cutInterpolation (state.next c) cs).map fun (before, after) => (c :: before, after)

/-- The expression of an interpolation and what follows it make up the text. -/
theorem eq_of_cutInterpolation {state : Quoting} {s before after : List Char}
    (h : cutInterpolation state s = some (before, after)) :
    s = before ++ ['\x7d', '\x7d'] ++ after := by
  induction s generalizing state before with
  | nil => simp [cutInterpolation] at h
  | cons c cs ih =>
    unfold cutInterpolation at h
    split at h
    · rename_i hc
      simp only [Bool.and_eq_true, decide_eq_true_eq] at hc
      obtain ⟨⟨-, rfl⟩, hh⟩ := hc
      obtain ⟨rfl, rfl⟩ : [] = before ∧ cs.drop 1 = after := by simpa using h
      cases cs with
      | nil => simp at hh
      | cons d ds => simp_all
    · simp only [Option.map_eq_some_iff] at h
      obtain ⟨⟨b, a⟩, hb, heq⟩ := h
      obtain ⟨rfl, rfl⟩ : c :: b = before ∧ a = after := by simpa using heq
      simp [ih hb]

/-! ### Reading -/

/-- Reads one argument. -/
def readArgument (payload : Bool) (source : List Char) : Except ArgumentError Argument :=
  let s := trimBlank source
  if s.isEmpty then .error .empty
  else if s = ['#'] then if payload then .ok .payload else .error .strayPayload
  else if isLiteral s then .ok (.literal (String.ofList s))
  else match readPath? s with
    | some path => .ok (.access path)
    | none => .error (.invalid (String.ofList s))

/-- Reads an argument list; blank text is the empty list. -/
def readArguments (payload : Bool) (source : List Char) : Except ArgumentError (List Argument) :=
  if (trimBlank source).isEmpty then .ok []
  else match splitArguments .outside source with
    | none => .error .unterminatedString
    | some pieces => pieces.mapM (readArgument payload)

/-- Reads a call, given what stands before and after its opening bracket. -/
def readCall (payload : Bool) (before after : List Char) : Except ExpressionError Value :=
  let name := trimBlank before
  let method := String.ofList name
  if !isIdentifier name then .error (.methodName method)
  else if after.getLast? ≠ some ')' then .error (.unclosedCall method)
  else match readArguments payload after.dropLast with
    | .error e => .error (.argument method e)
    | .ok arguments => .ok (.call method arguments)

/-- Reads an expression. The payload is admitted as an argument only where `payload` is set. -/
def readExpression (payload : Bool) (source : List Char) : Except ExpressionError Value :=
  let s := trimBlank source
  if s.isEmpty then .error .empty
  else if s = ['#'] then .error .strayPayload
  else if isLiteral s then .ok (.literal (String.ofList s))
  else match cut? ['('] s with
    | some (before, after) => readCall payload before after
    | none =>
      match readPath? s with
      | some path => .ok (.access path)
      | none => .error (.invalid (String.ofList s))

end ViewCompiler.Template
