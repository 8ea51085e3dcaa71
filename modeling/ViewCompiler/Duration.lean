import ViewCompiler.Text.Basic
import ViewCompiler.Word

/-!
# Durations

A duration counts nanoseconds and fits into 64 bits with a sign. It is written with its largest
units, `1h2m3.5s`, and below a second with the one unit that suits it, `1.5µs`.
-/

namespace ViewCompiler

open ViewCompiler.Text

/-- A span of time in nanoseconds. -/
structure Duration where
  nanos : Int
  deriving DecidableEq, Repr

namespace Duration

/-- A number of milliseconds. -/
def ofMillis (n : Int) : Duration := ⟨1000000 * n⟩

/-! ### Writing -/

/-- A number with `places` decimal places, without the zeros at its end. -/
def decimal (n places : Nat) : String :=
  let whole := n / Word.tenTo places
  let digits := Text.digits (n % Word.tenTo places)
  let fraction := dropTrailing (· = '0') (List.replicate (places - digits.length) '0' ++ digits)
  if n % Word.tenTo places = 0 then toString whole else toString whole ++ "." ++
    String.ofList fraction

/-- A length of time without its sign. -/
def magnitude (n : Nat) : String :=
  if n = 0 then "0s"
  else if n < 1000 then toString n ++ "ns"
  else if n < 1000000 then decimal n 3 ++ "µs"
  else if n < 1000000000 then decimal n 6 ++ "ms"
  else
    let minutes := n / 60000000000
    let seconds := decimal (n % 60000000000) 9 ++ "s"
    if minutes = 0 then seconds
    else if minutes < 60 then s!"{minutes}m" ++ seconds
    else
      let hours := minutes / 60
      s!"{hours}h" ++ s!"{minutes % 60}m" ++ seconds

/-- The text of a duration. -/
def text (d : Duration) : String :=
  if d.nanos < 0 then "-" ++ magnitude d.nanos.natAbs else magnitude d.nanos.natAbs

/-! ### Reading -/

/-- The nanoseconds of a unit. -/
def unit? : String → Option Nat
  | "ns" => some 1
  | "us" | "µs" | "μs" => some 1000
  | "ms" => some 1000000
  | "s" => some 1000000000
  | "m" => some 60000000000
  | "h" => some 3600000000000
  | _ => none

/-- Whether a character belongs to a number rather than to a unit. -/
def isNumeric (c : Char) : Bool := c = '.' || c.isDigit

/-- Reads a number with its unit; gives the nanoseconds, cut to a whole number. -/
def term? (cs : List Char) : Option (Nat × List Char) := do
  let whole := cs.takeWhile Char.isDigit
  let rest := cs.dropWhile Char.isDigit
  let (fraction, rest) := match rest with
    | '.' :: rest => (rest.takeWhile Char.isDigit, rest.dropWhile Char.isDigit)
    | rest => ([], rest)
  if whole.isEmpty && fraction.isEmpty then none
  let unit ← unit? (String.ofList (rest.takeWhile (!isNumeric ·)))
  let value (ds : List Char) : Nat := ds.foldl (fun n c => 10 * n + digitValue c) 0
  let nanos := value whole * unit + value fraction * unit / Word.tenTo fraction.length
  if nanos > Word.half then none
  return (nanos, rest.dropWhile (!isNumeric ·))

/-- Adds up numbers with units until nothing is left. Every term is at least one character long. -/
def total? : Nat → List Char → Option Nat
  | _, [] => some 0
  | 0, _ => none
  | fuel + 1, cs => do
    let (n, rest) ← term? cs
    let m ← total? fuel rest
    if n + m > Word.half then none else return n + m

/-- Reads a duration: a sign, and one or more numbers with units, or a bare zero. -/
def read? (s : String) : Option Duration :=
  let (negative, cs) := match s.toList with
    | '-' :: cs => (true, cs)
    | '+' :: cs => (false, cs)
    | cs => (false, cs)
  if cs = ['0'] then some ⟨0⟩
  else if cs.isEmpty then none
  else
    match total? cs.length cs with
    | none => none
    | some n =>
      if negative then some ⟨-(n : Int)⟩ else if n < Word.half then some ⟨n⟩ else none

end Duration

end ViewCompiler
