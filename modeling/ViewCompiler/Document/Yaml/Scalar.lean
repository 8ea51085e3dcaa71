import ViewCompiler.Document.Yaml.Timestamp
import ViewCompiler.Word

/-!
# Plain scalars

What a scalar written without quotes stands for. Numbers may be written in several bases and with
underscores between the digits; old notations for truth values and for numbers to base sixty are no
longer read, but a text that looks like one is still quoted when it is written.
-/

namespace ViewCompiler.Document.Yaml

open ViewCompiler.Text

/-- What a plain scalar stands for. -/
inductive Meaning where
  | absent
  | flag (value : Bool)
  | number (value : Int)
  /-- A decimal fraction: `mantissa` times ten to the power `exponent`. -/
  | decimal (mantissa exponent : Int)
  /-- An infinity or an undefined number. -/
  | unbounded
  | timestamp
  | text
  deriving DecidableEq, Repr

namespace Scalar

/-! ### Integers -/

/-- The value of a digit in bases up to sixteen. -/
def digitIn (base : Nat) (c : Char) : Option Nat :=
  let v :=
    if c.isDigit then digitValue c
    else if 'a' ≤ c && c ≤ 'f' then c.toNat - 'a'.toNat + 10
    else if 'A' ≤ c && c ≤ 'F' then c.toNat - 'A'.toNat + 10
    else base
  if v < base then some v else none

/-- Reads a non-empty run of digits. -/
def natural? (base : Nat) (cs : List Char) : Option Nat :=
  if cs.isEmpty then none
  else cs.foldlM (fun n c => (digitIn base c).map (base * n + ·)) 0

/-- Splits off a sign. -/
def sign : List Char → Bool × List Char
  | '-' :: cs => (true, cs)
  | '+' :: cs => (false, cs)
  | cs => (false, cs)

/-- A number with the given sign. -/
def signed (negative : Bool) (n : Nat) : Int := if negative then -(n : Int) else n

/-- Reads digits whose base is told by what they start with. -/
def unsigned? : List Char → Option Nat
  | '0' :: 'x' :: cs | '0' :: 'X' :: cs => natural? 16 cs
  | '0' :: 'o' :: cs | '0' :: 'O' :: cs => natural? 8 cs
  | '0' :: 'b' :: cs | '0' :: 'B' :: cs => natural? 2 cs
  | '0' :: c :: cs => natural? 8 (c :: cs)
  | cs => natural? 10 cs

/-- Reads an integer of 64 bits. One without a sign may use all of them. -/
def integer? (cs : List Char) : Option Int :=
  let (negative, digits) := sign cs
  match unsigned? digits with
  | none => none
  | some n =>
    if Word.fits (signed negative n) then some (signed negative n)
    else if digits.length = cs.length && n < Word.count then some n
    else none

/-- Reads a signed integer in the given base. -/
def integerIn? (base : Nat) (cs : List Char) : Option Int :=
  let (negative, digits) := sign cs
  (natural? base digits).bind fun n =>
    if Word.fits (signed negative n) then some (signed negative n) else none

/-- Reads an integer whose sign stands behind the mark of its base. -/
def prefixed? : List Char → Option Int
  | '0' :: 'b' :: cs => integerIn? 2 cs
  | '0' :: 'o' :: cs => integerIn? 8 cs
  | _ => none

/-! ### Fractions -/

/-- Reads an exponent: nothing, or `e` with a signed number. -/
def exponent? : List Char → Option Int
  | [] => some 0
  | c :: cs =>
    if c = 'e' || c = 'E' then
      let (negative, digits) := sign cs
      (natural? 10 digits).map (signed negative)
    else none

/-- The least number that no floating point number of 64 bits can stand for: half a unit above the
greatest one. -/
def floatBound : Nat := (Nat.pow 2 54 - 1) * Nat.pow 2 970

/-- Whether `n` times ten to the power `e` is too large for a floating point number. The number of
digits tells it, except near the bound. -/
def overflows (n : Nat) (e : Int) : Bool :=
  let size := (digits n).length + e
  n ≠ 0 && (size > 310 || (size ≥ 300 &&
    floatBound * Word.tenTo (-e).toNat ≤ n * Word.tenTo e.toNat))

/-- Reads a decimal number: digits with at most one point, then possibly an exponent. -/
def decimal? (cs : List Char) : Option Meaning := do
  let (negative, cs) := sign cs
  let whole := cs.takeWhile Char.isDigit
  let rest := cs.dropWhile Char.isDigit
  let (fraction, rest) ← match rest with
    | '.' :: after =>
      let fraction := after.takeWhile Char.isDigit
      if whole.isEmpty && fraction.isEmpty then none
      else some (fraction, after.dropWhile Char.isDigit)
    | _ => if whole.isEmpty then none else some ([], rest)
  let e ← exponent? rest
  let n := (whole ++ fraction).foldl (fun n c => 10 * n + digitValue c) 0
  -- A magnitude beyond the range of floating point numbers is no number.
  if overflows n (e - fraction.length) then none
  else return .decimal (signed negative n) (e - fraction.length)

/-- Whether every underscore stands between two digits. The flag tells whether a digit comes before
the text. -/
def underscoresSeparate (digitBefore : Bool) : List Char → Bool
  | [] => true
  | '_' :: cs => digitBefore && cs.head?.any Char.isDigit && underscoresSeparate false cs
  | c :: cs => underscoresSeparate c.isDigit cs

/-- The meaning of text that starts with a point: a fraction, whose digits may be grouped. -/
def fraction (cs : List Char) : Meaning :=
  if underscoresSeparate false cs then (decimal? (cs.filter (· ≠ '_'))).getD .text else .text

/-! ### Resolution -/

/-- The words with a meaning of their own. -/
def word? (s : String) : Option Meaning :=
  if ["true", "True", "TRUE"].contains s then some (.flag true)
  else if ["false", "False", "FALSE"].contains s then some (.flag false)
  else if ["", "~", "null", "Null", "NULL"].contains s then some .absent
  else if [".nan", ".NaN", ".NAN", ".inf", ".Inf", ".INF", "+.inf", "+.Inf", "+.INF", "-.inf",
      "-.Inf", "-.INF"].contains s then some .unbounded
  else none

/-- The meaning of text that starts like a number. -/
def number (cs : List Char) : Meaning :=
  if Timestamp.matches_ cs then .timestamp
  else
    let plain := cs.filter (· ≠ '_')
    match integer? plain with
    | some n => .number n
    | none =>
      match decimal? plain with
      | some d => d
      | none => (prefixed? plain).elim .text .number

/-- What a plain scalar stands for. -/
def resolve (s : String) : Meaning :=
  match word? s with
  | some m => m
  | none =>
    match s.toList with
    | [] => .absent
    | '.' :: cs => fraction ('.' :: cs)
    | c :: cs => if c.isDigit || c = '+' || c = '-' then number (c :: cs) else .text

/-! ### Old notations -/

/-- Whether a text is an old notation for a truth value. -/
def isOldFlag (s : String) : Bool :=
  ["y", "Y", "yes", "Yes", "YES", "on", "On", "ON",
   "n", "N", "no", "No", "NO", "off", "Off", "OFF"].contains s

/-- Whether the text is one or more groups of a colon and a number below sixty, possibly with a
fraction after them. -/
def areSixtieths : List Char → Bool
  | ':' :: a :: b :: cs =>
    (a.isDigit && b.isDigit && digitValue a < 6 && closes cs) || (a.isDigit && closes (b :: cs))
  | [':', a] => a.isDigit
  | _ => false
where
  /-- What may follow a group: nothing, a fraction, or further groups. -/
  closes : List Char → Bool
    | [] => true
    | '.' :: cs => cs.all fun c => c.isDigit || c = '_'
    | cs => areSixtieths cs

/-- Whether a text is an old notation for a number to base sixty. -/
def isSixtieths (s : String) : Bool :=
  match (sign s.toList).2 with
  | c :: cs => c.isDigit && areSixtieths (cs.dropWhile fun c => c.isDigit || c = '_')
  | [] => false

/-- Whether a text can be written without quotes and is still read as text. -/
def readsAsText (s : String) : Bool := resolve s = .text && !isSixtieths s && !isOldFlag s

end Scalar

end ViewCompiler.Document.Yaml
