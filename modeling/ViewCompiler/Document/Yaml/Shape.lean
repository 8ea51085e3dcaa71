import ViewCompiler.Document.Shape
import ViewCompiler.Document.Yaml.Reader

/-!
# YAML nodes of a given shape

Every scalar can be read as a string, namely as the text it was written with, and a decimal fraction
as an integer. Items without a value are dropped from lists, and no mapping may give a key twice.
-/

namespace ViewCompiler.Document.Yaml.Node

open ViewCompiler.Text

/-- What a scalar stands for. A quoted scalar is text; a tag has to agree with what is written. -/
def meaning (tag : String) (plain : Bool) (text : String) : Except ReadError Meaning :=
  let written := Scalar.resolve text
  match tag with
  | "" => .ok (if plain then written else .text)
  | "!!str" => .ok .text
  | "!!null" => if written = .absent then .ok written else .error .mismatch
  | "!!bool" => match written with | .flag _ => .ok written | _ => .error .mismatch
  | "!!int" => match written with | .number _ => .ok written | _ => .error .mismatch
  | "!!float" =>
    match written with
    | .number n => .ok (.decimal n 0)
    | .decimal .. | .unbounded => .ok written
    | _ => .error .mismatch
  | "!!timestamp" => if written = .timestamp then .ok written else .error .mismatch
  | _ => .error .mismatch

/-- A string. -/
def readString : Node → Except ReadError (Option String)
  | .scalar tag plain text => do
    return if (← meaning tag plain text) = .absent then none else some text
  | _ => .error .mismatch

/-- The integer part of a decimal fraction. -/
def truncate (mantissa exponent : Int) : Int :=
  if exponent ≥ 0 then mantissa * Word.tenTo exponent.toNat
  else mantissa.tdiv (Word.tenTo (-exponent).toNat)

/-- An integer. A fraction is cut off. -/
def readInteger : Node → Except ReadError (Option Int)
  | .scalar tag plain text => do
    match ← meaning tag plain text with
    | .absent => return none
    | .number n => if Word.fits n then return some n else throw .mismatch
    | .decimal m e =>
      let n := truncate m e
      if Word.fits n then return some n else throw .mismatch
    | _ => throw .mismatch
  | _ => .error .mismatch

/-- A truth value; the old notations are read too. -/
def readFlag : Node → Except ReadError (Option Bool)
  | .scalar tag plain text => do
    match ← meaning tag plain text with
    | .absent => return none
    | .flag b => return some b
    | .text =>
      if ["y", "Y", "yes", "on"].contains text then return some true
      else if ["n", "N", "no", "off"].contains text then return some false
      else throw .mismatch
    | _ => throw .mismatch
  | _ => .error .mismatch

/-- The items of a sequence. -/
def readItems : Node → Except ReadError (Option (List Node))
  | .sequence items => .ok (some items)
  | .scalar tag plain text => do
    if (← meaning tag plain text) = .absent then return none else throw .mismatch
  | .mapping _ => .error .mismatch

/-- Whether some key is given twice. -/
def hasRepeatedKey : List (Node × Node) → Bool
  | [] => false
  | (k, _) :: es => es.any (·.1.sameKey k) || hasRepeatedKey es

/-- The entries of a mapping by name. -/
def readEntries : Node → Except ReadError (Option (List (String × Node)))
  | .mapping es => do
    if hasRepeatedKey es then throw .mismatch
    let named ← es.mapM fun (k, v) => do return (← k.readString).map (·, v)
    return some (named.filterMap id)
  | .scalar tag plain text => do
    if (← meaning tag plain text) = .absent then return none else throw .mismatch
  | .sequence _ => .error .mismatch

instance : Readable Node where
  string? := readString
  integer? := readInteger
  flag? := readFlag
  items? := readItems
  dropsEmptyItems := true
  fields? known n := do
    let es ← n.readEntries
    if es.any (·.any fun e => !known.contains e.1) then throw .mismatch
    return es

end ViewCompiler.Document.Yaml.Node
