import ViewCompiler.Text.Basic
import ViewCompiler.Word

/-!
# Dates and times

Days are counted from the first day of year 1 in the calendar that has a leap year in every fourth
year, but not in those that end a century unless 400 divides them. A moment is a number of seconds
since the beginning of that day in universal time, together with the offset it was written with.
-/

namespace ViewCompiler.Calendar

open ViewCompiler.Text

/-- Whether a year has a 29th of February. -/
def isLeap (year : Nat) : Bool := year % 4 = 0 && (year % 100 ≠ 0 || year % 400 = 0)

/-- The number of days of a month. -/
def daysIn (year month : Nat) : Nat :=
  if month = 2 then (if isLeap year then 29 else 28)
  else if month = 4 || month = 6 || month = 9 || month = 11 then 30
  else 31

/-- The days before a date. -/
def dayNumber (year month day : Nat) : Int :=
  let before : Int := (year : Int) - 1
  let months := (List.range (month - 1)).foldl (fun n m => n + daysIn year (m + 1)) 0
  365 * before + before.fdiv 4 - before.fdiv 100 + before.fdiv 400 + months + (day - 1 : Nat)

/-- Finds the month that a day of the year falls in; gives the month and the day of it. -/
def monthAndDay (lengths : List Nat) (month day : Nat) : Nat × Nat :=
  match lengths with
  | [] => (month, day + 1)
  | n :: rest => if day < n then (month, day + 1) else monthAndDay rest (month + 1) (day - n)

/-- The date with the given number: year, month and day. -/
def ofDayNumber (n : Int) : Int × Nat × Nat :=
  let cycle := n.fdiv 146097
  let day := (n.fmod 146097).toNat
  let century := min 3 (day / 36524)
  let day := day - century * 36524
  let leap := day / 1461
  let day := day - leap * 1461
  let single := min 3 (day / 365)
  let day := day - single * 365
  let year := 100 * century + 4 * leap + single + 1
  -- The leap years of a cycle are those of the first one.
  let lengths := (List.range 12).map fun m => daysIn year (m + 1)
  (400 * cycle + year, monthAndDay lengths 1 day)

/-! ### Moments -/

/-- A moment, with the offset it was written with. -/
structure Moment where
  /-- The seconds since the beginning of year 1 in universal time. -/
  seconds : Int := 0
  /-- What is left of a second, in nanoseconds. -/
  nanos : Nat := 0
  /-- The offset in seconds. -/
  offset : Int := 0
  deriving DecidableEq, Repr

namespace Moment

/-- Whether a moment is the beginning of year 1. -/
def isZero (t : Moment) : Bool := t.seconds = 0 && t.nanos = 0

/-- The same moment in universal time. -/
def toUniversal (t : Moment) : Moment := { t with offset := 0 }

/-- A number with at least `width` digits; the sign does not count. -/
def padded (width : Nat) (n : Int) : String :=
  let ds := digits n.natAbs
  (if n < 0 then "-" else "") ++ String.ofList (List.replicate (width - ds.length) '0' ++ ds)

/-- An offset: `Z`, or hours and minutes with a sign. -/
def offsetText (offset : Int) : String :=
  if offset = 0 then "Z"
  else
    let minutes := offset.natAbs / 60
    (if offset < 0 then "-" else "+") ++ padded 2 (minutes / 60 : Nat) ++ ":" ++
      padded 2 (minutes % 60 : Nat)

/-- The date and time of a moment to the second, in its own offset. -/
def local_ (t : Moment) : String :=
  let here := t.seconds + t.offset
  let (year, month, day) := ofDayNumber (here.fdiv 86400)
  let second := (here.fmod 86400).toNat
  padded 4 year ++ "-" ++ padded 2 month ++ "-" ++ padded 2 day ++ "T" ++
    padded 2 (second / 3600 : Nat) ++ ":" ++ padded 2 (second / 60 % 60 : Nat) ++ ":" ++
    padded 2 (second % 60 : Nat)

/-- The text of a moment to the second, `2006-01-02T15:04:05Z`. -/
def text (t : Moment) : String := t.local_ ++ offsetText t.offset

/-- The text of a moment with what is left of the second. -/
def exactText (t : Moment) : String :=
  let fraction := dropTrailing (· = '0') (padded 9 t.nanos).toList
  t.local_ ++ (if t.nanos = 0 then "" else "." ++ String.ofList fraction) ++ offsetText t.offset

/-! ### Reading -/

/-- A number of two digits. -/
def two? : List Char → Option (Nat × List Char)
  | a :: b :: cs =>
    if a.isDigit && b.isDigit then some (10 * digitValue a + digitValue b, cs) else none
  | _ => none

/-- A number of one or two digits. -/
def oneOrTwo? : List Char → Option (Nat × List Char)
  | a :: cs =>
    if a.isDigit then
      match cs with
      | b :: rest =>
        if b.isDigit then some (10 * digitValue a + digitValue b, rest) else some (digitValue a, cs)
      | [] => some (digitValue a, [])
    else none
  | [] => none

/-- What follows a given character. -/
def after? (c : Char) : List Char → Option (List Char)
  | d :: cs => if c = d then some cs else none
  | [] => none

/-- Reads a date. -/
def date? : List Char → Option ((Nat × Nat × Nat) × List Char)
  | a :: b :: c :: d :: cs => do
    let year ← readNat? [a, b, c, d]
    let (month, cs) ← two? (← after? '-' cs)
    let (day, cs) ← two? (← after? '-' cs)
    if 1 ≤ month && month ≤ 12 && 1 ≤ day && day ≤ daysIn year month then
      return ((year, month, day), cs)
    else none
  | _ => none

/-- Reads a time of day with a possible fraction; gives the seconds and the nanoseconds. -/
def time? (cs : List Char) : Option ((Nat × Nat) × List Char) := do
  let (hour, cs) ← oneOrTwo? cs
  let (minute, cs) ← two? (← after? ':' cs)
  let (second, cs) ← two? (← after? ':' cs)
  if hour < 24 && minute < 60 && second < 60 then
    let whole := 3600 * hour + 60 * minute + second
    match cs with
    | c :: d :: rest =>
      if (c = '.' || c = ',') && d.isDigit then
        let ds := ((d :: rest).takeWhile Char.isDigit).take 9
        let n := ds.foldl (fun n c => 10 * n + digitValue c) 0
        return ((whole, n * Word.tenTo (9 - ds.length)), rest.dropWhile Char.isDigit)
      else return ((whole, 0), cs)
    | _ => return ((whole, 0), cs)
  else none

/-- Reads an offset that ends the text. -/
def offset? : List Char → Option Int
  | ['Z'] => some 0
  | [sign, h, i, ':', m, n] => do
    let hours ← readNat? [h, i]
    let minutes ← readNat? [m, n]
    let seconds : Int := 3600 * hours + 60 * minutes
    if hours ≤ 24 && minutes ≤ 60 then
      if sign = '+' then some seconds else if sign = '-' then some (-seconds) else none
    else none
  | _ => none

/-- Reads a moment: a date and a time, joined by `T` with or without an offset, or by blanks without
one. Without an offset it is in universal time. -/
def read? (s : String) : Option Moment := do
  let ((year, month, day), rest) ← date? s.toList
  let (joined, rest) ← match rest with
    | 'T' :: rest => some (true, rest)
    | ' ' :: rest => some (false, rest.dropWhile (· = ' '))
    | _ => none
  let ((second, nanos), rest) ← time? rest
  let offset ← if rest.isEmpty then some 0 else if joined then offset? rest else none
  return { seconds := 86400 * dayNumber year month day + second - offset, nanos, offset }

end Moment

end ViewCompiler.Calendar
