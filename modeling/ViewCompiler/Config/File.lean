import ViewCompiler.Config.Setting
import ViewCompiler.Document.Json.Reader
import ViewCompiler.FileTree
import ViewCompiler.Text.Quoted

/-!
# Configuration files

Where the configuration file is found and how it is read. A file that is named has to be there and
to be readable, in the format that its extension tells; YAML and JSON are read. Without a name, the
first file in the working directory that is called `.wane`, alone or with a known extension, is read
as YAML, and a file that cannot be read counts as none.
-/

namespace ViewCompiler.Config

open ViewCompiler.Text

/-- Why a named configuration file is of no use. -/
inductive FileProblem where
  /-- The extension is that of no configuration file. -/
  | unsupported (extension : String)
  | unreadable (error : FileError)
  | malformed (error : Document.ReadError)
  deriving DecidableEq, Repr

/-- The message for a configuration file that is of no use. -/
def FileProblem.message : FileProblem → String
  | unsupported extension => "Unsupported Config Type " ++ quote extension
  | unreadable error => error.message
  | malformed error => "While parsing config: " ++ error.message

namespace File

/-- The extensions of configuration files, in the order in which they are looked for. -/
def extensions : List String :=
  ["json", "toml", "yaml", "yml", "properties", "props", "prop", "hcl", "tfvars", "dotenv", "env",
   "ini"]

/-- The name of a configuration file without an extension. -/
def defaultName : String := ".wane"

/-- The names under which a configuration file is looked for. -/
def defaultNames : List String := defaultName :: extensions.map (defaultName ++ "." ++ ·)

/-- The extension of a path without its dot. -/
def extensionOf (path : String) : String := String.ofList ((Path.extension path).toList.drop 1)

mutual

/-- The setting that a JSON value stands for. -/
def ofJson : Document.Json.Value → Setting
  | .null => .absent
  | .flag b => .flag b
  | .number text =>
    match Document.Yaml.Scalar.decimal? text.toList with
    | some (.decimal m e) => .decimal m e
    | _ => .other
  | .string s => .text s
  | .array items => .list (ofJsonItems items)
  | .object fields => .group (ofJsonFields fields).reverse

/-- The settings of the items of an array. -/
def ofJsonItems : List Document.Json.Value → List Setting
  | [] => []
  | v :: vs => ofJson v :: ofJsonItems vs

/-- The settings of the fields of an object, in the order of writing. -/
def ofJsonFields : List (String × Document.Json.Value) → List (String × Setting)
  | [] => []
  | (name, v) :: fields => (name, ofJson v) :: ofJsonFields fields

end

/-- Reads a JSON text: an object, with nothing after it. -/
def readJson (text : String) : Except Document.ReadError Setting :=
  let cs := text.toList
  match Document.Json.value? cs (2 * cs.length + 2) with
  | some (v, rest) =>
    if rest.all Document.Json.isSpace then
      match v with
      | .object fields => .ok (ofJson (.object fields))
      | .null => .ok (.group [])
      | _ => .error .mismatch
    else .error .malformed
  | none => .error .malformed

/-- Reads the text of a configuration file with the given extension. -/
def readText (extension text : String) : Except Document.ReadError Setting :=
  if extension = "yaml" || extension = "yml" then Setting.read text
  else if extension = "json" then readJson text
  else .error .malformed

/-- Reads the configuration file with the given path. -/
def readNamed (files : FileTree) (path : String) : Except FileProblem Setting := do
  let extension := extensionOf path
  if !extensions.contains extension then throw (.unsupported extension)
  let text ← (files.read path).mapError .unreadable
  (readText extension text).mapError .malformed

/-- The name of the configuration file in the working directory. -/
def default? (files : FileTree) : Option String :=
  defaultNames.find? fun name =>
    match files.look "stat" name with
    | .ok (.file _) => true
    | _ => false

/-- The configuration file in the working directory with what it says. -/
def readDefault? (files : FileTree) : Option (String × Setting) :=
  (default? files).bind fun name =>
    match files.read name with
    | .error _ => none
    | .ok text => (Setting.read text).toOption.map fun s => (name, s)

end File

end ViewCompiler.Config
