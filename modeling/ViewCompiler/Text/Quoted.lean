import ViewCompiler.Text.Basic

/-!
# Quoted text

Messages show user text between double quotes. Printable characters stand for themselves; the
quote, the backslash and everything without a visible form is escaped, so that a message never
breaks a line and two different texts never look the same.
-/

namespace ViewCompiler.Text.Quoted

/-- How one character is written between `delimiter`s. -/
def escapeChar (delimiter c : Char) : List Char :=
  if c = delimiter || c = '\\' then ['\\', c]
  else if isPrintable c then [c]
  else match c.toNat with
    | 0x07 => ['\\', 'a']
    | 0x08 => ['\\', 'b']
    | 0x0c => ['\\', 'f']
    | 0x0a => ['\\', 'n']
    | 0x0d => ['\\', 'r']
    | 0x09 => ['\\', 't']
    | 0x0b => ['\\', 'v']
    | n =>
      if n < 0x20 || n = 0x7f then '\\' :: 'x' :: (hex 2 n).toList
      else if n < 0x10000 then '\\' :: 'u' :: (hex 4 n).toList
      else '\\' :: 'U' :: (hex 8 n).toList

/-- Text between delimiters. -/
def write (delimiter : Char) (cs : List Char) : List Char :=
  delimiter :: cs.flatMap (escapeChar delimiter) ++ [delimiter]

end ViewCompiler.Text.Quoted

namespace ViewCompiler.Text

/-- A string between double quotes. -/
def quote (s : String) : String := String.ofList (Quoted.write '"' s.toList)

/-- A single character between single quotes. -/
def quoteChar (c : Char) : String := String.ofList (Quoted.write '\'' [c])

end ViewCompiler.Text
