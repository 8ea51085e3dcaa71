import ViewCompiler.Cli.Flag
import ViewCompiler.Text.EditDistance

/-!
# Commands

The commands of the program, what each of them takes, and how a command line names one. The command
is the first word that is neither a flag nor the value of one; since the flags of the command are
not known before it is, every flag that stands alone is taken to have a value.
-/

namespace ViewCompiler.Cli

open ViewCompiler.Text

/-- The name of the program. -/
def programName : String := "wane"

/-- What the program can be asked to do. -/
inductive Command where
  /-- Compile a root component to its model. -/
  | compile
  /-- Report every problem of the components. -/
  | check
  /-- Scope a style sheet. -/
  | style
  /-- List the components. -/
  | list
  /-- Compile again on every change. -/
  | watch
  /-- Tell the version. -/
  | version
  deriving DecidableEq, Repr

namespace Command

/-- All commands. -/
def all : List Command := [compile, check, style, list, watch, version]

/-- The name of a command. -/
def name : Command → String
  | compile => "compile"
  | check => "check"
  | style => "style"
  | list => "list"
  | watch => "watch"
  | version => "version"

/-- The letter that stands for a command. -/
def alias? : Command → Option String
  | compile => some "c"
  | list => some "l"
  | watch => some "w"
  | _ => none

/-- What a command does, in a line. -/
def summary : Command → String
  | compile => "Compile a root component to its view model"
  | check => "Report every problem in the discovered components"
  | style => "Encapsulate a stylesheet"
  | list => "List all discovered components"
  | watch => "Recompile the root component on every change"
  | version => "Show version information"

/-- The command that a word names. -/
def ofWord? (word : String) : Option Command :=
  all.find? fun c => c.name = word || c.alias? = some word

/-- Every command is found by its name. -/
theorem ofWord?_name (c : Command) : ofWord? c.name = some c := by
  cases c <;> decide

/-! ### What commands take -/

/-- The flags of all commands. -/
def sharedFlags : List Flag :=
  [{ name := "config" }, { name := "log-level", letter? := some 'l' },
   { name := "help", letter? := some 'h', kind := .switch }]

/-- The flags of a command that compiles. -/
def compileFlags : List Flag :=
  [{ name := "root", letter? := some 'r' }, { name := "output", letter? := some 'o' },
   { name := "format", letter? := some 'f', kind := .choice ["yaml", "yml", "json"] }]

/-- The flags of a command by itself. -/
def ownFlags : Command → List Flag
  | compile | watch => compileFlags
  | check =>
    [{ name := "no-color", kind := .switch },
     { name := "quiet", letter? := some 'q', kind := .switch }]
  | style => [{ name := "tag", letter? := some 't' }, { name := "id", kind := .integer }]
  | list =>
    [{ name := "format", letter? := some 'f', kind := .choice ["table", "json", "yaml", "yml"] },
     { name := "with-deps", letter? := some 'd', kind := .switch },
     { name := "with-meta", letter? := some 'm', kind := .switch }]
  | version =>
    [{ name := "format", letter? := some 'f', kind := .choice ["text", "json", "yaml", "yml"] },
     { name := "short", kind := .switch }, { name := "detailed", kind := .switch }]

/-- The flags that a command knows. -/
def flags (c : Command) : List Flag := c.ownFlags ++ sharedFlags

end Command

/-! ### Faults -/

/-- What is wrong with a command line. -/
inductive UsageFault where
  | flag (fault : FlagFault)
  /-- More than one positional argument. -/
  | tooMany (count : Nat)
  /-- Not exactly one positional argument. -/
  | notOne (count : Nat)
  /-- A positional argument of a command that takes none. -/
  | unexpected (word : String) (command : Command)
  | unknownCommand (word : String)
  deriving DecidableEq, Repr

/-- The words that can be suggested for a command. -/
def suggestible : List String := Command.all.map Command.name ++ ["completion"]

/-- How far a suggestion may be from what was written. -/
def suggestionDistance : Nat := 2

/-- The commands that may have been meant by a word: those that start with it, and those that differ
from it in few bytes. Case does not count. -/
def suggestions (word : String) : List String :=
  let bytes (s : String) : List UInt8 := (lowercase s).toUTF8.data.toList
  suggestible.filter fun name =>
    EditDistance.distance (bytes word) (bytes name) ≤ suggestionDistance ||
      hasPrefix (lowercase word) (lowercase name)

/-- The message for a faulty command line. -/
def UsageFault.message : UsageFault → String
  | flag fault => fault.message
  | tooMany count => s!"accepts at most 1 arg(s), received {count}"
  | notOne count => s!"accepts 1 arg(s), received {count}"
  | unexpected word command =>
    "unknown command " ++ quote word ++ " for " ++ quote (programName ++ " " ++ command.name)
  | unknownCommand word =>
    let meant := suggestions word
    let hint :=
      if meant.isEmpty then ""
      else "\n\nDid you mean this?\n" ++ String.join (meant.map fun name => "\t" ++ name ++ "\n")
    "unknown command " ++ quote word ++ " for " ++ quote programName ++ hint

/-- What is said after the message. -/
def UsageFault.advice : UsageFault → String
  | unknownCommand _ => "Run '" ++ programName ++ " --help' for usage.\n"
  | _ => ""

/-- What is wrong with the number of positional arguments of a command. -/
def Command.arityFault? (c : Command) (positional : List String) : Option UsageFault :=
  match c with
  | compile | watch => if positional.length > 1 then some (.tooMany positional.length) else none
  | style => if positional.length ≠ 1 then some (.notOne positional.length) else none
  | check | list | version => positional.head?.map fun word => .unexpected word c

/-! ### Finding the command -/

/-- Whether an argument looks like a flag whose value is the next argument. -/
def takesNext (argument : String) : Bool :=
  !contains "=" argument &&
    (hasPrefix "--" argument || (hasPrefix "-" argument && argument.utf8ByteSize = 2))

/-- The first word of a command line. A flag that has fewer than two arguments after it ends the
search. -/
def firstWord? : List String → Option String
  | [] => none
  | argument :: rest =>
    if argument = "--" then none
    else if takesNext argument then
      match rest with
      | _ :: next :: more => firstWord? (next :: more)
      | _ => none
    else if argument = "" || hasPrefix "-" argument then firstWord? rest
    else some argument

/-- A command line without the word that names its command. -/
def dropWord (word : String) : List String → List String
  | [] => []
  | argument :: rest =>
    if argument = "--" then argument :: rest
    else if takesNext argument then
      match rest with
      | value :: rest => argument :: value :: dropWord word rest
      | [] => [argument]
    else if argument = word then rest
    else argument :: dropWord word rest

/-- What a command line asks for. -/
inductive Request where
  | help
  | run (command : Command) (arguments : Arguments)
  deriving DecidableEq, Repr

/-- The words that ask for help on the command line itself. -/
def helpWords : List String := ["help", "completion"]

/-- Reads a command line. Faulty flags win over a wrong number of arguments, and a request for help
wins over the latter. -/
def Request.read (arguments : List String) : Except UsageFault Request :=
  match firstWord? arguments with
  | none => (Arguments.read Command.sharedFlags arguments).mapError .flag |>.map fun _ => .help
  | some word =>
    match Command.ofWord? word with
    | none => if helpWords.contains word then .ok .help else .error (.unknownCommand word)
    | some command => do
      let given ← (Arguments.read command.flags (dropWord word arguments)).mapError .flag
      if given.isOn "help" then return .help
      match command.arityFault? given.positional with
      | some fault => throw fault
      | none => return .run command given

end ViewCompiler.Cli
