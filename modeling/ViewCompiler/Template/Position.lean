import ViewCompiler.Text.Basic

/-!
# Source positions

A position in a template is a byte offset together with the line and the column it falls on.
Offsets count UTF-8 bytes from zero, lines and columns count from one, and columns are bytes
too. `Source.position` derives line and column from the offset, so that a node only has to
remember where it begins and ends.
-/

namespace ViewCompiler.Template

open ViewCompiler.Text

/-- A place in a template. -/
structure Position where
  offset : Nat := 0
  line : Nat := 0
  column : Nat := 0
  deriving DecidableEq, Repr, Inhabited

/-- Line and column, as messages show them. -/
def Position.text (p : Position) : String := s!"{p.line}:{p.column}"

/-- The stretch of a template from `start` up to, but not including, `stop`. -/
structure Span where
  start : Position := {}
  stop : Position := {}
  deriving DecidableEq, Repr, Inhabited

/-- The lines of a template: where each begins, and the length of the whole, in bytes. -/
structure Source where
  /-- The offset of the first byte of each line, ascending. -/
  lineStarts : List Nat
  /-- The length of the template. -/
  size : Nat
  deriving Repr

namespace Source

/-- The offsets just after each newline, when the text begins at `offset`. -/
def startsAfterNewlines (offset : Nat) : List Char → List Nat
  | [] => []
  | c :: cs =>
    let next := offset + c.utf8Size
    if c = '\n' then next :: startsAfterNewlines next cs else startsAfterNewlines next cs

/-- The lines of a text. -/
def ofText (cs : List Char) : Source := ⟨0 :: startsAfterNewlines 0 cs, byteLength cs⟩

/-- The position of a byte offset: its line is the last one that starts at or before it. -/
def position (s : Source) (offset : Nat) : Position :=
  let before := s.lineStarts.takeWhile (· ≤ offset)
  { offset, line := before.length, column := offset - before.getLast?.getD 0 + 1 }

/-- The span between two byte offsets. -/
def span (s : Source) (start stop : Nat) : Span := ⟨s.position start, s.position stop⟩

@[simp]
theorem position_offset (s : Source) (n : Nat) : (s.position n).offset = n := rfl

end Source

end ViewCompiler.Template
