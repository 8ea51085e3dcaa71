import ViewCompiler.Text.Basic
import ViewCompiler.Text.CharacterReference.Names

/-!
# Character references

Text and literal attribute values may write a character as a reference: by number (`&#65;`,
`&#x41;`) or by name (`&lt;`). Decoding follows the rules of the HTML standard for text:

* a numeric reference needs at least two characters after `&#`, its number wraps at 32 bits, the
  numbers of the C1 controls stand for the characters of Windows code page 1252, and numbers
  that are no character stand for U+FFFD;
* a name may miss its semicolon only when it is one of the legacy names, and then the longest
  legacy name at the front of the letters and digits that follow wins;
* everything else stands for itself.
-/

namespace ViewCompiler.Text.CharacterReference

/-- The characters of Windows code page 1252 at 0x80 to 0x9f. -/
def windowsControls : List Nat :=
  [0x20ac, 0x81, 0x201a, 0x192, 0x201e, 0x2026, 0x2020, 0x2021, 0x2c6, 0x2030, 0x160, 0x2039,
   0x152, 0x8d, 0x17d, 0x8f, 0x90, 0x2018, 0x2019, 0x201c, 0x201d, 0x2022, 0x2013, 0x2014,
   0x2dc, 0x2122, 0x161, 0x203a, 0x153, 0x9d, 0x17e, 0x178]

/-- The character a number stands for. -/
def ofNumber (n : Nat) : Char :=
  if 0x80 ≤ n ∧ n ≤ 0x9f then Char.ofNat (windowsControls.getD (n - 0x80) 0xfffd)
  else if n = 0 ∨ ¬ n.isValidChar then Char.ofNat 0xfffd
  else Char.ofNat n

/-- The value of a hexadecimal digit. -/
def hexValue? (c : Char) : Option Nat :=
  if c.isDigit then some (digitValue c)
  else if 'a' ≤ c ∧ c ≤ 'f' then some (c.toNat - 'a'.toNat + 10)
  else if 'A' ≤ c ∧ c ≤ 'F' then some (c.toNat - 'A'.toNat + 10)
  else none

/-- The value of a decimal digit. -/
def decimalValue? (c : Char) : Option Nat := if c.isDigit then some (digitValue c) else none

/-- The number written by the leading digits, modulo 2^32, and how many digits there are. -/
def readDigits (base : Nat) (value? : Char → Option Nat) : List Char → Nat → Nat × Nat
  | [], n => (n, 0)
  | c :: cs, n =>
    match value? c with
    | some d =>
      let (m, k) := readDigits base value? cs ((base * n + d) % 0x100000000)
      (m, k + 1)
    | none => (n, 0)

/-- Reads a numeric reference from the text after `&#`; gives its character and the number of
characters read after `&#`. -/
def numeric? (cs : List Char) : Option (Char × Nat) :=
  let (mark, (n, digits)) :=
    match cs with
    | 'x' :: rest => (1, readDigits 16 hexValue? rest 0)
    | 'X' :: rest => (1, readDigits 16 hexValue? rest 0)
    | _ => (0, readDigits 10 decimalValue? cs 0)
  let read := mark + digits
  let read := if (cs.drop read).head? = some ';' then read + 1 else read
  if read < 2 then none else some (ofNumber n, read)

/-- The characters of a name, if it is one. -/
def lookup? (name : List Char) : Option (List Char) :=
  (names.lookup (String.ofList name)).map (·.map Char.ofNat)

/-- The longest legacy name of at most `len` and at least two characters at the front of `name`,
with its length. -/
def openPrefix? (name : List Char) : Nat → Option (List Char × Nat)
  | 0 => none
  | 1 => none
  | len + 2 =>
    match lookup? (name.take (len + 2)) with
    | some cs => some (cs, len + 2)
    | none => openPrefix? name (len + 1)

/-- The length of the longest name that needs no semicolon. -/
def longestOpenName : Nat := 6

/-- Reads a named reference from the text after `&`; gives the characters it stands for and the
number of characters read after `&`. -/
def named? (cs : List Char) : Option (List Char × Nat) :=
  let word := cs.takeWhile fun c => c.isAlphanum
  let name := if (cs.drop word.length).head? = some ';' then word ++ [';'] else word
  if name.isEmpty then none
  else match lookup? name with
    | some out => some (out, name.length)
    | none =>
      -- A single code point fits a legacy name; pairs are always closed.
      openPrefix? name (min (name.length - 1) longestOpenName)

/-- Reads a reference from the text after `&`. -/
def reference? (cs : List Char) : Option (List Char × Nat) :=
  match cs with
  | '#' :: rest =>
    if byteLength rest < 2 then none else (numeric? rest).map fun (c, n) => ([c], n + 1)
  | _ => named? cs

/-- Replaces every reference by what it stands for. The second argument counts the characters
of the current reference that are still to be skipped. -/
def decodeFrom : Nat → List Char → List Char
  | _, [] => []
  | skip + 1, _ :: cs => decodeFrom skip cs
  | 0, c :: cs =>
    if c = '&' then
      match reference? cs with
      | some (out, n) => out ++ decodeFrom n cs
      | none => c :: decodeFrom 0 cs
    else c :: decodeFrom 0 cs

/-- Replaces every reference in the text by what it stands for. -/
def decode (s : String) : String := String.ofList (decodeFrom 0 s.toList)

end ViewCompiler.Text.CharacterReference
