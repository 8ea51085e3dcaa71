import ViewCompiler.Template.Value

/-!
# Identifiers and paths

An identifier starts with a letter of any script, an underscore or a dollar sign, and goes on
with these or decimal digits. A path is one or more identifiers with dots between them. The loop
variables of a repeater are read by a more generous class that also admits number characters
which are no decimal digits.
-/

namespace ViewCompiler.Template

open ViewCompiler.Text

/-- Characters an identifier may start with. -/
def isIdentStart (c : Char) : Bool := c == '_' || c == '$' || isLetter c

/-- Characters an identifier may go on with. -/
def isIdentRest (c : Char) : Bool := isIdentStart c || isDecimalDigit c

/-- Whether the characters form an identifier. -/
def isIdentifier : List Char → Bool
  | [] => false
  | c :: cs => isIdentStart c && cs.all isIdentRest

/-- Characters a loop variable may go on with. -/
def isVariableRest (c : Char) : Bool := isIdentStart c || isNumber c

/-- Reads a dotted path. -/
def readPath? (cs : List Char) : Option Path :=
  match splitOn '.' cs with
  | [] => none
  | root :: rest =>
    if isIdentifier root && rest.all isIdentifier then
      some ⟨String.ofList root, rest.map String.ofList⟩
    else none

/-- Reads one loop variable from the front. -/
def readVariable? (cs : List Char) : Option (List Char × List Char) :=
  match cs with
  | [] => none
  | c :: rest =>
    if isIdentStart c then some (c :: rest.takeWhile isVariableRest, rest.dropWhile isVariableRest)
    else none

/-- Whatever a loop variable's reader takes off, it takes off the front. -/
theorem eq_append_of_readVariable? {cs name rest : List Char}
    (h : readVariable? cs = some (name, rest)) : cs = name ++ rest := by
  unfold readVariable? at h
  split at h
  · simp at h
  · split at h
    · obtain ⟨rfl, rfl⟩ := by simpa using h
      simp [List.takeWhile_append_dropWhile]
    · simp at h

end ViewCompiler.Template
