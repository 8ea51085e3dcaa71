/-!
# Scanning over string literals

Expressions and style sheets both contain string literals in single or double quotes, inside which
a backslash takes the next character along and nothing else has a meaning. A scan that has to see
only what stands outside of them carries a `Quoting` from character to character.
-/

namespace ViewCompiler.Text

/-- The state of a scan that knows about string literals. -/
inductive Quoting where
  /-- Outside string literals. -/
  | outside
  /-- Inside a string literal opened by the given quote. -/
  | inside (quote : Char)
  /-- Just after a backslash inside a string literal. -/
  | escaped (quote : Char)
  deriving DecidableEq, Repr

/-- The state after one more character. -/
def Quoting.next : Quoting → Char → Quoting
  | .outside, c => if c = '\'' || c = '"' then .inside c else .outside
  | .inside q, c => if c = '\\' then .escaped q else if c = q then .outside else .inside q
  | .escaped q, _ => .inside q

/-- Whether the next character stands outside string literals. -/
def Quoting.isOutside : Quoting → Bool
  | .outside => true
  | .inside _ | .escaped _ => false

end ViewCompiler.Text
