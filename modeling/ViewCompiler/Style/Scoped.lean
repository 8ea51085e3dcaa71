import ViewCompiler.Style.Selector

/-!
# Scoped style sheets

`encapsulate` confines a style sheet to the nodes of one component and writes it in its shortest
form. Selectors are scoped at any nesting of groups, except those of key frames, which name moments
and not nodes.
-/

namespace ViewCompiler.Style

open ViewCompiler.Text

/-- The attribute that marks the nodes of the component with the given number. -/
def attributeName (id : Int) : String := s!"data-w-{id}"

/-- A block of declarations. -/
def writeDeclarations (declarations : List String) : String :=
  "\x7b" ++ join ";" declarations ++ "\x7d"

/-- The name and condition of an at-rule. -/
def writeHead (name condition : String) : String :=
  if condition = "" then name else name ++ " " ++ condition

mutual

/-- Writes a rule; selectors are scoped only where `confined` is set. -/
def Scoping.writeRule (s : Scoping) (confined : Bool) : Rule → String
  | .qualified selector declarations =>
    let selector :=
      if confined then s.selectorList selector
      else join "," ((splitList selector).map String.ofList)
    selector ++ writeDeclarations declarations
  | .statement name condition => writeHead name condition ++ ";"
  | .block name condition declarations =>
    writeHead name condition ++ writeDeclarations declarations
  | .group name condition keyframes rules =>
    writeHead name condition ++ "\x7b" ++ s.writeRules (confined && !keyframes) rules ++ "\x7d"

/-- Writes several rules. -/
def Scoping.writeRules (s : Scoping) (confined : Bool) : List Rule → String
  | [] => ""
  | r :: rs => s.writeRule confined r ++ s.writeRules confined rs

end

/-- Confines a style sheet to the component with the given tag and number. -/
def encapsulate (css host : String) (id : Int) (childTag? : String → Option String) :
    Except Error String := do
  let rules ← parse css
  let scoping : Scoping := { host, mark := s!"[{attributeName id}]", childTag? }
  return scoping.writeRules true rules

end ViewCompiler.Style
