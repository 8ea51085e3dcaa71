import ViewCompiler.Text.CharTable.Case
import ViewCompiler.Text.CharTable.Letters
import ViewCompiler.Text.CharTable.Printable
import ViewCompiler.Text.CharTable.Words

/-!
# Classes of characters

Identifiers, quoted messages and tag names all ask what kind of character they are looking at.
Every class below decides ASCII by itself and consults a table only from U+0080 upwards, so
facts about ASCII text never have to look into a table.
-/

namespace ViewCompiler.Text

/-- Whether a character is one of the 128 ASCII characters. -/
def isAscii (c : Char) : Bool := c.toNat < 0x80

/-- Letters of any script. -/
def isLetter (c : Char) : Bool :=
  if isAscii c then c.isAlpha else CharRun.anyContains CharTable.letters c

/-- Numbers of any script and kind, roman numerals and superscripts included. -/
def isNumber (c : Char) : Bool :=
  if isAscii c then c.isDigit else CharRun.anyContains CharTable.numbers c

/-- Decimal digits of any script. -/
def isDecimalDigit (c : Char) : Bool :=
  if isAscii c then c.isDigit else CharRun.anyContains CharTable.decimalDigits c

/-- Upper case letters of any script. Title case digraphs are not upper case. -/
def isUpper (c : Char) : Bool :=
  if isAscii c then c.isUpper else CharRun.anyContains CharTable.upper c

/-- Lower case letters of any script. -/
def isLower (c : Char) : Bool :=
  if isAscii c then c.isLower else CharRun.anyContains CharTable.lower c

/-- Characters with a visible form, and the ASCII space. -/
def isPrintable (c : Char) : Bool :=
  if isAscii c then 0x20 ≤ c.toNat && c.toNat < 0x7f
  else CharRun.anyContains CharTable.printable c

/-- White space of any script: the ASCII blanks with vertical tab, the next-line control, the
no-break space and the Unicode spaces and separators. -/
def isBlank (c : Char) : Bool :=
  let n := c.toNat
  n == 0x20 || (0x09 ≤ n && n ≤ 0x0d) || n == 0x85 || n == 0xa0 || n == 0x1680 ||
    (0x2000 ≤ n && n ≤ 0x200a) || n == 0x2028 || n == 0x2029 || n == 0x202f || n == 0x205f ||
    n == 0x3000

/-- The five blanks that separate the parts of a tag: space, tab, newline, carriage return and
form feed. -/
def isMarkupSpace (c : Char) : Bool :=
  c == ' ' || c == '\t' || c == '\n' || c == '\r' || c == '\x0c'

/-- Every character that separates the parts of a tag is white space. -/
theorem isBlank_of_isMarkupSpace {c : Char} (h : isMarkupSpace c = true) : isBlank c = true := by
  simp only [isMarkupSpace, Bool.or_eq_true, beq_iff_eq] at h
  rcases h with (((h | h) | h) | h) | h <;> subst h <;> decide

/-- The lower case form of one character, by the one-to-one mapping. -/
def lowerChar (c : Char) : Char :=
  if isAscii c then c.toLower else CharShift.apply CharTable.toLower c

/-- The title case form of one character, by the one-to-one mapping. -/
def titleChar (c : Char) : Char :=
  if isAscii c then c.toUpper else CharShift.apply CharTable.toTitle c

/-- Character-by-character lower case; the length in characters stays the same. -/
def lowercase (s : String) : String := String.ofList (s.toList.map lowerChar)

end ViewCompiler.Text
