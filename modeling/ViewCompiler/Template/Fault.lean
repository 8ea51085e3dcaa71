import ViewCompiler.Template.DirectiveSpec
import ViewCompiler.Template.Expression

/-!
# Faults in templates

Everything that can be wrong with a template, as a cause. The wording of every message is in
`Fault.message` alone. A fault is located by two byte offsets; a reader that has run past the end
of the template has no fault to report and says `overrun`.
-/

namespace ViewCompiler.Template

open ViewCompiler.Text

/-- What can be wrong with a template. -/
inductive Fault where
  | unclosedTag (name : String)
  | unterminatedComment
  | unterminatedDeclaration
  | malformedClosing (name : String)
  | unexpectedClosing (name : String)
  | mismatchedClosing (name opened : String)
  | unterminatedInterpolation
  | expression (error : ExpressionError)
  | unterminatedTag (name : String)
  | unexpectedCharacter (c : Char) (tag : String)
  /-- The template ends where a value should begin. -/
  | missingValue (attr : String)
  | unterminatedValue (attr : String)
  /-- The tag ends where a value should begin. -/
  | emptyValue (attr tag : String)
  | unknownDirective (name : String)
  | directive (error : DirectiveError)
  | componentContent (name : String)
  | secondDirective (tag : String)
  | directiveWithoutValue (attr : String)
  | bindingExpression (attr : String) (error : ExpressionError)
  | handlerNotCall (attr : String)
  /-- A directive written as a plain attribute. -/
  | bareDirective (attr : String)
  | attributeName (name : String)
  | malformedBinding (attr : String)
  | bindingWithoutValue (attr : String)
  | unknownDirectiveBinding (name : String)
  | unsupportedBinding (attr : String)
  deriving DecidableEq, Repr

/-- The message for a fault. -/
def Fault.message : Fault → String
  | unclosedTag name => s!"unclosed tag <{name}>"
  | unterminatedComment => "unterminated comment"
  | unterminatedDeclaration => "unterminated declaration"
  | malformedClosing name => s!"malformed closing tag </{name}"
  | unexpectedClosing name => s!"unexpected closing tag </{name}>"
  | mismatchedClosing name opened => s!"closing tag </{name}> does not match <{opened}>"
  | unterminatedInterpolation => "unterminated interpolation"
  | expression error => error.message
  | unterminatedTag name => s!"unterminated tag <{name}>"
  | unexpectedCharacter c tag => "unexpected " ++ quoteChar c ++ s!" in <{tag}>"
  | missingValue attr => s!"missing value for attribute {attr}"
  | unterminatedValue attr => s!"unterminated value for attribute {attr}"
  | emptyValue attr tag => s!"missing value for attribute {attr} in <{tag}>"
  | unknownDirective name => s!"unknown directive <{name}>"
  | directive error => error.message
  | componentContent name => s!"component <{name}> cannot have content"
  | secondDirective tag => s!"<{tag}> has more than one directive attribute"
  | directiveWithoutValue attr => s!"{attr} requires a value"
  | bindingExpression attr error => s!"{attr}: {error.message}"
  | handlerNotCall attr => s!"handler {attr} must be a method call"
  | bareDirective attr => s!"directive attribute must be written as [{attr}]"
  | attributeName name => "invalid attribute name " ++ quote name
  | malformedBinding attr => s!"malformed binding {attr}"
  | bindingWithoutValue attr => s!"binding {attr} requires a value"
  | unknownDirectiveBinding name => s!"unknown directive {name}"
  | unsupportedBinding attr => s!"unsupported binding {attr}"

/-- Why reading a template stopped. -/
inductive Failure where
  /-- Something is wrong between two byte offsets. -/
  | fault (start stop : Nat) (fault : Fault)
  /-- The search for the end of a raw text element left the template. -/
  | overrun
  deriving DecidableEq, Repr

end ViewCompiler.Template
