import ViewCompiler.Text.Basic

/-!
# Documents

Plain data as it is written to files and read back: trees of records, lists, strings, integers,
truth values and times. A record keeps the order of its fields. The formats that write such trees
are separate modules.
-/

namespace ViewCompiler

/-- A tree of plain data. -/
inductive Document where
  /-- A list that was never given. -/
  | absent
  | flag (value : Bool)
  | number (value : Int)
  | text (value : String)
  /-- A date or a time; formats that know such values write it without quotes. -/
  | moment (value : String)
  | list (items : List Document)
  | record (fields : List (String × Document))
  deriving Repr, Inhabited

namespace Document

/-- A list of strings. -/
def texts (values : List String) : Document := .list (values.map .text)

/-- A list of numbers. -/
def numbers (values : List Int) : Document := .list (values.map .number)

/-- A field that is left out when it holds an empty string. -/
def textUnlessEmpty (name value : String) : List (String × Document) :=
  if value = "" then [] else [(name, .text value)]

/-- A field that is left out when it holds an empty list. -/
def listUnlessEmpty (name : String) (items : List Document) : List (String × Document) :=
  if items.isEmpty then [] else [(name, .list items)]

/-- A field that is left out when it has no value. -/
def numberIfSome (name : String) (value : Option Int) : List (String × Document) :=
  value.elim [] fun n => [(name, .number n)]

/-- A list that may be absent altogether. -/
def ofOption (items : Option (List Document)) : Document := items.elim .absent .list

end Document

end ViewCompiler
