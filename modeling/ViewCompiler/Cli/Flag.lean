import ViewCompiler.Document.Yaml.Scalar
import ViewCompiler.Config.Setting
import ViewCompiler.Text.Quoted

/-!
# Flags of the command line

A flag has a long name and possibly a letter. Its value follows it as `--name value`,
`--name=value`, `-n value`, `-nvalue` or `-n=value`; a switch needs none, and the letters of several
switches can be written as one group. Everything else is positional, and so is all that follows
`--`. Reading stops at the first fault from the left.
-/

namespace ViewCompiler.Cli

open ViewCompiler.Text

/-! ### Values -/

/-- What a flag takes. -/
inductive FlagKind where
  | text
  /-- One of several words, whatever their case. -/
  | choice (allowed : List String)
  /-- A truth value; the flag alone stands for `true`. -/
  | switch
  | integer
  deriving DecidableEq, Repr

/-- The value of a flag. -/
inductive FlagValue where
  | text (value : String)
  | switch (value : Bool)
  | integer (value : Int)
  deriving DecidableEq, Repr

/-- Why a flag refuses a value. -/
inductive ValueFault where
  | notAllowed (allowed : List String)
  | notSwitch (value : String)
  | notInteger (value : String)
  | outOfRange (value : String)
  deriving DecidableEq, Repr

/-- The message for a refused value. -/
def ValueFault.message : ValueFault → String
  | notAllowed allowed => "must be one of " ++ join ", " allowed
  | notSwitch value => "strconv.ParseBool: parsing " ++ quote value ++ ": invalid syntax"
  | notInteger value => "strconv.ParseInt: parsing " ++ quote value ++ ": invalid syntax"
  | outOfRange value => "strconv.ParseInt: parsing " ++ quote value ++ ": value out of range"

namespace FlagKind

/-- The truth value that a word stands for. -/
def switch? (value : String) : Option Bool :=
  if ["1", "t", "T", "TRUE", "true", "True"].contains value then some true
  else if ["0", "f", "F", "FALSE", "false", "False"].contains value then some false
  else none

/-- The word of a choice in the spelling that counts: two names of a format are one. -/
def spelling (word : String) : String := if word = "yml" then "yaml" else word

/-- Reads an integer of 64 bits in the base that its start tells. -/
def readInteger (value : String) : Except ValueFault Int :=
  let (negative, digits) := Document.Yaml.Scalar.sign value.toList
  match (Setting.dropUnderscores? false digits).bind Document.Yaml.Scalar.unsigned? with
  | none => .error (.notInteger value)
  | some n =>
    let v := Document.Yaml.Scalar.signed negative n
    if Word.fits v then .ok v else .error (.outOfRange value)

/-- Reads the value of a flag. -/
def read (kind : FlagKind) (value : String) : Except ValueFault FlagValue :=
  match kind with
  | text => .ok (.text value)
  | choice allowed =>
    let word := lowercase value
    if allowed.contains word then .ok (.text (spelling word)) else .error (.notAllowed allowed)
  | switch => (switch? value).elim (.error (.notSwitch value)) fun b => .ok (.switch b)
  | integer => (readInteger value).map .integer

end FlagKind

/-! ### Flags -/

/-- A flag that a command knows. -/
structure Flag where
  name : String
  letter? : Option Char := none
  kind : FlagKind := .text
  deriving DecidableEq, Repr

/-- Both ways to write a flag. -/
def Flag.usage (f : Flag) : String :=
  (f.letter?.elim "" fun c => "-" ++ String.ofList [c] ++ ", ") ++ "--" ++ f.name

/-- What is wrong with the flags of a command line. -/
inductive FlagFault where
  | badSyntax (argument : String)
  | unknown (name : String)
  /-- A group of letters that starts with an unknown one. -/
  | unknownLetter (group : List Char)
  | valueMissing (argument : String)
  /-- A group of letters that starts with one whose value is missing. -/
  | letterValueMissing (group : List Char)
  | refused (flag : Flag) (value : String) (fault : ValueFault)
  deriving DecidableEq, Repr

/-- The first letter of a group between quotes; of a character beyond ASCII, its first byte as a
code point. -/
def letterOf : List Char → String
  | [] => ""
  | c :: _ =>
    quoteChar (((String.ofList [c]).toUTF8.data.toList.head?).elim c fun b => Char.ofNat b.toNat)

/-- The message for a fault of the flags. -/
def FlagFault.message : FlagFault → String
  | badSyntax argument => "bad flag syntax: " ++ argument
  | unknown name => "unknown flag: --" ++ name
  | unknownLetter group =>
    "unknown shorthand flag: " ++ letterOf group ++ " in -" ++ String.ofList group
  | valueMissing argument => "flag needs an argument: " ++ argument
  | letterValueMissing group =>
    "flag needs an argument: " ++ letterOf group ++ " in -" ++ String.ofList group
  | refused flag value fault =>
    "invalid argument " ++ quote value ++ " for " ++ quote flag.usage ++ " flag: " ++ fault.message

/-- Gives a flag its value. -/
def Flag.set (f : Flag) (value : String) : Except FlagFault (String × FlagValue) :=
  match f.kind.read value with
  | .ok v => .ok (f.name, v)
  | .error fault => .error (.refused f value fault)

/-! ### Reading -/

/-- What a command line gives: the flags with their values in the order of writing, and the
positional arguments. -/
structure Arguments where
  flags : List (String × FlagValue) := []
  positional : List String := []
  deriving DecidableEq, Repr

/-- A flag at the end of an argument that takes the next argument as its value. -/
structure Pending where
  flag : Flag
  /-- What is wrong when no argument follows. -/
  otherwise : FlagFault

/-- What one argument is. -/
inductive Argument where
  | positional
  /-- The end of the flags. -/
  | divider
  | flags (set : List (String × FlagValue)) (pending : Option Pending)

/-- Reads a group of letters. -/
def readLetters (known : List Flag) :
    List Char → Except FlagFault (List (String × FlagValue) × Option Pending)
  | [] => .ok ([], none)
  | c :: cs =>
    match known.find? (·.letter? = some c) with
    | none => .error (.unknownLetter (c :: cs))
    | some flag =>
      match cs with
      | '=' :: d :: ds => (flag.set (String.ofList (d :: ds))).map fun v => ([v], none)
      | _ =>
        if flag.kind = .switch then do
          let (vs, pending) ← readLetters known cs
          return ((flag.name, .switch true) :: vs, pending)
        else if cs.isEmpty then .ok ([], some ⟨flag, .letterValueMissing (c :: cs)⟩)
        else (flag.set (String.ofList cs)).map fun v => ([v], none)

/-- Reads a long flag, given with and without its two dashes. -/
def readLong (known : List Flag) (argument : String) (body : List Char) :
    Except FlagFault (List (String × FlagValue) × Option Pending) :=
  if body.head?.any fun c => c = '-' || c = '=' then .error (.badSyntax argument)
  else
    let (name, value?) := match cut? ['='] body with
      | some (name, value) => (String.ofList name, some (String.ofList value))
      | none => (String.ofList body, none)
    match known.find? (·.name = name), value? with
    | none, _ => .error (.unknown name)
    | some flag, some value => (flag.set value).map fun v => ([v], none)
    | some flag, none =>
      if flag.kind = .switch then .ok ([(flag.name, .switch true)], none)
      else .ok ([], some ⟨flag, .valueMissing argument⟩)

/-- Reads one argument. -/
def readArgument (known : List Flag) (argument : String) : Except FlagFault Argument :=
  match argument.toList with
  | ['-', '-'] => .ok .divider
  | '-' :: '-' :: body => (readLong known argument body).map fun (vs, p) => .flags vs p
  | '-' :: c :: cs => (readLetters known (c :: cs)).map fun (vs, p) => .flags vs p
  | _ => .ok .positional

namespace Arguments

/-- Puts flags in front. -/
def withFlags (a : Arguments) (flags : List (String × FlagValue)) : Arguments :=
  { a with flags := flags ++ a.flags }

/-- Reads a command line. -/
def read (known : List Flag) : List String → Except FlagFault Arguments
  | [] => .ok {}
  | argument :: rest => do
    match ← readArgument known argument with
    | .divider => return { positional := rest }
    | .positional =>
      let a ← read known rest
      return { a with positional := argument :: a.positional }
    | .flags set none =>
      let a ← read known rest
      return a.withFlags set
    | .flags set (some pending) =>
      match rest with
      | [] => throw pending.otherwise
      | value :: rest =>
        let v ← pending.flag.set value
        let a ← read known rest
        return a.withFlags (set ++ [v])

/-- The value of a flag: the last one given. -/
def value? (a : Arguments) (name : String) : Option FlagValue := a.flags.reverse.lookup name

/-- The text of a flag, if it was given. -/
def text? (a : Arguments) (name : String) : Option String :=
  match a.value? name with
  | some (.text s) => some s
  | _ => none

/-- The text of a flag; empty when it was not given. -/
def text (a : Arguments) (name : String) : String := (a.text? name).getD ""

/-- Whether a switch is on. -/
def isOn (a : Arguments) (name : String) : Bool := a.value? name = some (.switch true)

/-- The number of a flag; zero when it was not given. -/
def integer (a : Arguments) (name : String) : Int :=
  match a.value? name with
  | some (.integer n) => n
  | _ => 0

/-- All that follows the divider is positional. -/
@[simp]
theorem read_divider (known : List Flag) (rest : List String) :
    read known ("--" :: rest) = .ok { positional := rest } := by
  have h : readArgument known "--" = .ok .divider := by simp [readArgument]
  rw [read.eq_def]
  simp only [h]
  rfl

end Arguments

end ViewCompiler.Cli
