import ViewCompiler.Document.Shape
import ViewCompiler.Text.CharClass
import ViewCompiler.Word

/-!
# Reading JSON

The value at the front of a text; what follows it is not looked at. A number keeps the text it was
written with, since only a whole number without an exponent can be read as an integer. Names of
fields are recognised whatever their case, and of a field that is given several times the last one
counts.
-/

namespace ViewCompiler.Document.Json

open ViewCompiler.Text

/-- A value as it was written. -/
inductive Value where
  | null
  | flag (value : Bool)
  | number (text : String)
  | string (text : String)
  | array (items : List Value)
  | object (fields : List (String × Value))
  deriving Repr, Inhabited

/-! ### Scalars -/

/-- Whether a character may stand between tokens. -/
def isSpace (c : Char) : Bool := c = ' ' || c = '\t' || c = '\n' || c = '\r'

/-- The number written by four hexadecimal digits at the front of a text. -/
def hexUnit? (cs : List Char) : Option Nat :=
  let digit? (c : Char) : Option Nat :=
    if c.isDigit then some (digitValue c)
    else if 'a' ≤ c && c ≤ 'f' then some (c.toNat - 'a'.toNat + 10)
    else if 'A' ≤ c && c ≤ 'F' then some (c.toNat - 'A'.toNat + 10)
    else none
  if cs.length < 4 then none
  else (cs.take 4).foldlM (fun n c => (digit? c).map (16 * n + ·)) 0

/-- The character for a unit of a surrogate pair that stands alone. -/
def replacement : Char := Char.ofNat 0xfffd

/-- Reads a string behind its opening quote. The first argument counts the characters that an escape
has already accounted for. -/
def stringBody (skip : Nat) (out : List Char) : List Char → Option (String × List Char)
  | [] => none
  | c :: cs =>
    if skip > 0 then stringBody (skip - 1) out cs
    else if c = '"' then some (String.ofList out.reverse, cs)
    else if c.toNat < 0x20 then none
    else if c ≠ '\\' then stringBody 0 (c :: out) cs
    else match cs with
      | '"' :: _ => stringBody 1 ('"' :: out) cs
      | '\\' :: _ => stringBody 1 ('\\' :: out) cs
      | '/' :: _ => stringBody 1 ('/' :: out) cs
      | 'b' :: _ => stringBody 1 (Char.ofNat 0x08 :: out) cs
      | 'f' :: _ => stringBody 1 (Char.ofNat 0x0c :: out) cs
      | 'n' :: _ => stringBody 1 ('\n' :: out) cs
      | 'r' :: _ => stringBody 1 ('\r' :: out) cs
      | 't' :: _ => stringBody 1 ('\t' :: out) cs
      | 'u' :: ds =>
        match hexUnit? ds with
        | none => none
        | some n =>
          if n < 0xd800 || 0xdfff < n then stringBody 5 (Char.ofNat n :: out) cs
          else
            let low := match ds.drop 4 with
              | '\\' :: 'u' :: es => (hexUnit? es).filter fun m => 0xdc00 ≤ m && m ≤ 0xdfff
              | _ => none
            match low with
            | some m =>
              if n < 0xdc00 then
                stringBody 11 (Char.ofNat (0x10000 + (n - 0xd800) * 0x400 + (m - 0xdc00)) :: out) cs
              else stringBody 5 (replacement :: out) cs
            | none => stringBody 5 (replacement :: out) cs
      | _ => none

/-- Reads a non-empty run of digits. -/
def digitRun? (cs : List Char) : Option (List Char × List Char) :=
  let ds := cs.takeWhile Char.isDigit
  if ds.isEmpty then none else some (ds, cs.dropWhile Char.isDigit)

/-- Reads a number. -/
def number? (cs : List Char) : Option (String × List Char) := do
  let (minus, cs) := match cs with | '-' :: cs => (['-'], cs) | cs => ([], cs)
  let (whole, cs) ← match cs with
    | '0' :: cs => some (['0'], cs)
    | cs => digitRun? cs
  let (fraction, cs) ← match cs with
    | '.' :: cs => do let (ds, cs) ← digitRun? cs; some ('.' :: ds, cs)
    | cs => some ([], cs)
  let (exponent, cs) ← match cs with
    | 'e' :: cs | 'E' :: cs => do
      let (sign, cs) := match cs with
        | '+' :: cs => (['+'], cs)
        | '-' :: cs => (['-'], cs)
        | cs => ([], cs)
      let (ds, cs) ← digitRun? cs
      some ('e' :: (sign ++ ds), cs)
    | cs => some ([], cs)
  return (String.ofList (minus ++ whole ++ fraction ++ exponent), cs)

/-! ### Values -/

mutual

/-- Reads a value at the front of a text. -/
def value? (cs : List Char) : (fuel : Nat) → Option (Value × List Char)
  | 0 => none
  | fuel + 1 =>
    match cs.dropWhile isSpace with
    | '"' :: cs => (stringBody 0 [] cs).map fun (s, cs) => (.string s, cs)
    | '[' :: cs =>
      match cs.dropWhile isSpace with
      | ']' :: cs => some (.array [], cs)
      | cs => (items? cs fuel).map fun (vs, cs) => (.array vs, cs)
    | c :: cs =>
      if c.toNat = 0x7b then
        match cs.dropWhile isSpace with
        | d :: ds =>
          if d.toNat = 0x7d then some (.object [], ds)
          else (fields? (d :: ds) fuel).map fun (fs, cs) => (.object fs, cs)
        | [] => none
      else match dropPrefix? "null".toList (c :: cs), dropPrefix? "true".toList (c :: cs),
          dropPrefix? "false".toList (c :: cs) with
        | some cs, _, _ => some (.null, cs)
        | _, some cs, _ => some (.flag true, cs)
        | _, _, some cs => some (.flag false, cs)
        | _, _, _ => (number? (c :: cs)).map fun (n, cs) => (.number n, cs)
    | [] => none

/-- Reads the items of an array up to its closing bracket. -/
def items? (cs : List Char) : (fuel : Nat) → Option (List Value × List Char)
  | 0 => none
  | fuel + 1 => do
    let (v, cs) ← value? cs fuel
    match cs.dropWhile isSpace with
    | ',' :: cs => do
      let (vs, cs) ← items? cs fuel
      return (v :: vs, cs)
    | ']' :: cs => return ([v], cs)
    | _ => none

/-- Reads the fields of an object up to its closing brace. -/
def fields? (cs : List Char) : (fuel : Nat) → Option (List (String × Value) × List Char)
  | 0 => none
  | fuel + 1 =>
    match cs.dropWhile isSpace with
    | '"' :: cs => do
      let (name, cs) ← stringBody 0 [] cs
      match cs.dropWhile isSpace with
      | ':' :: cs => do
        let (v, cs) ← value? cs fuel
        match cs.dropWhile isSpace with
        | ',' :: cs => do
          let (fs, cs) ← fields? cs fuel
          return ((name, v) :: fs, cs)
        | c :: cs => if c.toNat = 0x7d then return ([(name, v)], cs) else none
        | [] => none
      | _ => none
    | _ => none

end

/-- Reads the value at the front of a text. -/
def read (text : String) : Except ReadError Value :=
  let cs := text.toList
  if cs.all isSpace then .error .endOfText
  else match value? cs (2 * cs.length + 2) with
    | some (v, _) => .ok v
    | none => .error .malformed

/-! ### Shapes -/

/-- The integer written without fraction and exponent, if it fits into 64 bits. -/
def integerOf? (text : String) : Option Int :=
  let (negative, ds) := match text.toList with | '-' :: ds => (true, ds) | ds => (false, ds)
  (readNat? ds).bind fun n =>
    let n : Int := if negative then -(n : Int) else n
    if Word.fits n then some n else none

/-- The known name that a field name stands for, whatever its case. -/
def knownName? (known : List String) (name : String) : Option String :=
  (known.find? (· = name)).or (known.find? fun k => lowercase k = lowercase name)

instance : Readable Value where
  string?
    | .null => .ok none
    | .string s => .ok (some s)
    | _ => .error .mismatch
  integer?
    | .null => .ok none
    | .number t => match integerOf? t with | some n => .ok (some n) | none => .error .mismatch
    | _ => .error .mismatch
  flag?
    | .null => .ok none
    | .flag b => .ok (some b)
    | _ => .error .mismatch
  items?
    | .null => .ok none
    | .array items => .ok (some items)
    | _ => .error .mismatch
  dropsEmptyItems := false
  fields? known
    | .null => .ok none
    | .object fs => do
      let named ← fs.mapM fun (n, v) =>
        match knownName? known n with
        | some k => .ok (k, v)
        | none => .error .mismatch
      return some named.reverse
    | _ => .error .mismatch

end ViewCompiler.Document.Json
