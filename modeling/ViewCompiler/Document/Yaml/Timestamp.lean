import ViewCompiler.Calendar

/-!
# Timestamps

A plain scalar that reads as a date, with or without a time of day, is a timestamp: a year of four
digits, a month and a day of one or two digits, and then possibly `T`, `t` or blanks and a time. A
time after `T` or `t` ends with its offset, a time after blanks has none.
-/

namespace ViewCompiler.Document.Yaml.Timestamp

open ViewCompiler.Text ViewCompiler.Calendar
open ViewCompiler.Calendar.Moment (after?)

/-- A number of one or two digits below `bound`. -/
def small? (bound : Nat) : List Char → Option (Nat × List Char)
  | a :: b :: cs =>
    if !a.isDigit then none
    else
      let (n, rest) :=
        if b.isDigit then (10 * digitValue a + digitValue b, cs) else (digitValue a, b :: cs)
      if n < bound then some (n, rest) else none
  | [a] => if a.isDigit && digitValue a < bound then some (digitValue a, []) else none
  | [] => none

/-- Drops a fraction of a second. -/
def dropFraction : List Char → List Char
  | c :: d :: cs => if (c = '.' || c = ',') && d.isDigit then cs.dropWhile Char.isDigit
        else c :: d :: cs
  | cs => cs

/-- Reads a time of day; gives what follows it. -/
def time? (cs : List Char) : Option (List Char) := do
  let (_, cs) ← small? 24 cs
  let (_, cs) ← small? 60 (← after? ':' cs)
  let (_, cs) ← small? 60 (← after? ':' cs)
  return dropFraction cs

/-- Whether the text is an offset from universal time: `Z`, or a sign, hours and minutes. -/
def isOffset : List Char → Bool
  | ['Z'] => true
  | [sign, h, i, ':', m, n] =>
    (sign = '+' || sign = '-') && [h, i, m, n].all Char.isDigit &&
      10 * digitValue h + digitValue i ≤ 24 && 10 * digitValue m + digitValue n ≤ 60
  | _ => false

/-- Whether what follows a date is a time of day. -/
def isTime : List Char → Bool
  | 'T' :: cs | 't' :: cs => (time? cs).any isOffset
  | ' ' :: cs => (time? (cs.dropWhile (· = ' '))).any List.isEmpty
  | _ => false

/-- Whether the text is a timestamp. -/
def matches_ (cs : List Char) : Bool :=
  match cs with
  | a :: b :: c :: d :: '-' :: rest =>
    if [a, b, c, d].any (!·.isDigit) then false
    else
      let year := [a, b, c, d].foldl (fun n c => 10 * n + digitValue c) 0
      match small? 13 rest with
      | some (month, '-' :: rest) =>
        month ≠ 0 &&
        match small? 32 rest with
        | some (day, rest) =>
          day ≠ 0 && day ≤ daysIn year month && (rest.isEmpty || isTime rest)
        | none => false
      | _ => false
  | _ => false

end ViewCompiler.Document.Yaml.Timestamp
