import ViewCompiler.Style.Sheet

/-!
# Selectors

A selector list holds complex selectors between commas; a complex selector holds compound selectors
between combinators. Scoping adds one attribute selector to every compound, right after its first
simple selector, so that it matches only nodes of its own component. A compound that starts with
`:host` means the component itself and becomes its tag, and a capitalised type selector that names
another component becomes that component's tag.
-/

namespace ViewCompiler.Style

open ViewCompiler.Text

/-! ### Cutting -/

/-- Splits a selector list at the commas outside strings and brackets. -/
def splitListFrom (quoting : Quoting) (depth : Nat) : List Char → List (List Char)
  | [] => [[]]
  | c :: cs =>
    if quoting.isOutside && depth == 0 && c = ',' then [] :: splitListFrom .outside 0 cs
    else
      let depth := if quoting.isOutside then nesting depth c else depth
      match splitListFrom (quoting.next c) depth cs with
      | [] => [[c]]
      | piece :: pieces => (c :: piece) :: pieces

/-- The complex selectors of a selector list, without blanks around them. -/
def splitList (selector : String) : List (List Char) :=
  (splitListFrom .outside 0 selector.toList).map trimBlank

/-- Characters that separate compounds: blanks and the combinators. -/
def isCombining (c : Char) : Bool := isMarkupSpace c || c == '>' || c == '+' || c == '~'

/-- A part of a complex selector. -/
inductive Part where
  | compound (text : List Char)
  /-- A run of blanks and combinators. -/
  | combinator (run : List Char)
  deriving DecidableEq, Repr

/-- Adds a character to the front of the first part, if that is of the same sort. -/
def Part.prepend (combining : Bool) (c : Char) : List Part → List Part
  | .compound text :: parts =>
    if combining then .combinator [c] :: .compound text :: parts else .compound (c :: text) :: parts
  | .combinator run :: parts =>
    if combining then .combinator (c :: run) :: parts else .compound [c] :: .combinator run :: parts
  | [] => if combining then [.combinator [c]] else [.compound [c]]

/-- The parts of a complex selector: maximal runs, alternating. -/
def partsFrom (quoting : Quoting) (depth : Nat) : List Char → List Part
  | [] => []
  | c :: cs =>
    let combining := quoting.isOutside && depth == 0 && isCombining c
    let depth := if quoting.isOutside then nesting depth c else depth
    Part.prepend combining c (partsFrom (quoting.next c) depth cs)

/-- The parts of a complex selector. -/
def parts (selector : List Char) : List Part := partsFrom .outside 0 selector

/-- The combinator that a run stands for: its last one, or a space. -/
def combinatorOf (run : List Char) : Char :=
  (run.filter (!isMarkupSpace ·)).getLast?.getD ' '

/-! ### Scoping -/

/-- What scoping a style sheet needs to know. -/
structure Scoping where
  /-- The tag of the component. -/
  host : String
  /-- The attribute selector of the component. -/
  mark : String
  /-- The tags of the components that selectors may name. -/
  childTag? : String → Option String

/-- What stands inside and after the bracket that opens the text, when it is closed. -/
def cutBracket? (depth : Nat) : List Char → Option (List Char × List Char)
  | [] => none
  | c :: cs =>
    if c = ')' && depth == 0 then some ([], cs)
    else
      let depth := if c = '(' then depth + 1 else if c = ')' then depth - 1 else depth
      (cutBracket? depth cs).map fun (inside, after) => (c :: inside, after)

namespace Scoping

/-- The part of a `:host` compound after its name; the argument in brackets is applied to the host
itself. -/
def hostArgument (rest : List Char) : List Char :=
  match rest with
  | '(' :: inner =>
    match cutBracket? 0 inner with
    | some (argument, after) => trimBlank argument ++ after
    | none => rest
  | _ => rest

/-- Puts the mark after the leading characters of a compound. -/
def markAfter (s : Scoping) (head tail : List Char) : List Char := head ++ s.mark.toList ++ tail

/-- What follows `:host` when a compound starts with it. -/
def hostRest? (compound : List Char) : Option (List Char) :=
  match dropPrefix? ":host".toList compound with
  | some rest => if rest.head?.any isNameChar then none else some rest
  | none => none

/-- The tag that a type selector stands for. -/
def typeName (s : Scoping) (name : List Char) : List Char :=
  if name.head?.any isUpper then ((s.childTag? (String.ofList name)).map String.toList).getD name
  else name

/-- Scopes one compound selector. -/
def compound (s : Scoping) (c : List Char) : List Char :=
  match hostRest? c with
  | some rest => s.host.toList ++ hostArgument rest
  | none =>
    match c with
    | '*' :: rest => s.markAfter [] rest
    | ':' :: _ => s.markAfter [] c
    | '[' :: _ =>
      match cut? [']'] c with
      | some (before, after) => s.markAfter (before ++ [']']) after
      | none => s.markAfter c []
    | first :: rest =>
      if first = '.' || first = '#' then
        s.markAfter (first :: rest.takeWhile isNameChar) (rest.dropWhile isNameChar)
      else if isNameChar first then
        s.markAfter (s.typeName (c.takeWhile isNameChar)) (c.dropWhile isNameChar)
      else s.markAfter c []
    | [] => s.markAfter c []

/-- Scopes the parts of a complex selector after what has been written. A space is written only
between two compounds. -/
def writeParts (s : Scoping) (written : List Char) : List Part → List Char
  | [] => written
  | .compound text :: rest => writeParts s (written ++ s.compound text) rest
  | .combinator run :: rest =>
    let c := combinatorOf run
    if c ≠ ' ' || (!written.isEmpty && !rest.isEmpty) then writeParts s (written ++ [c]) rest
    else writeParts s written rest

/-- Scopes a complex selector and writes its combinators in short form. -/
def complex (s : Scoping) (selector : List Char) : List Char := s.writeParts [] (parts selector)

/-- Scopes a selector list. -/
def selectorList (s : Scoping) (selector : String) : String :=
  join "," ((splitList selector).map fun c => String.ofList (s.complex c))

end Scoping

end ViewCompiler.Style
