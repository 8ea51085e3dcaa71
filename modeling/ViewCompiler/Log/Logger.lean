import ViewCompiler.Log.Entry

/-!
# Loggers

A logger decides which messages become entries and which fields every entry carries: the component
it speaks for, then the error, then its own fields, then those of the message. It writes nothing
itself; what it admits is returned as data.
-/

namespace ViewCompiler.Log

/-- Named values in order. -/
abbrev Fields := List (String × Value)

/-- Sets a field, in place when it is already there. -/
def Fields.set (fields : Fields) (name : String) (value : Value) : Fields :=
  if fields.any (·.1 = name) then fields.map fun f => if f.1 = name then (name, value) else f
  else fields ++ [(name, value)]

/-- Reads names and values in turn. A pair whose name is no string is left out, and so is a name
without a value. -/
def Fields.ofItems : List Value → Fields
  | .plain (.text name) :: value :: rest => (name, value) :: ofItems rest
  | _ :: _ :: rest => ofItems rest
  | _ => []

/-- A source of entries. -/
structure Logger where
  level : Level := .info
  format : Format := .text
  /-- The part of the program that speaks; nothing when empty. -/
  component : String := ""
  /-- The fields of every entry. -/
  fields : Fields := []
  deriving Repr

namespace Logger

/-- The logger whose entries also carry the given fields; of two values for a name the later one
counts. -/
def with_ (l : Logger) (fields : Fields) : Logger :=
  { l with fields := fields.foldl (fun fs f => fs.set f.1 f.2) l.fields }

/-- The logger that speaks for another part of the program. -/
def forComponent (l : Logger) (component : String) : Logger := { l with component }

/-- The entry of a message, if the level lets it through. -/
def entry (l : Logger) (level : Level) (error : Option String) (message : String)
    (fields : Fields) :
    List Entry :=
  if l.level.admits level then
    let speaker := if l.component = "" then [] else [("component", Value.text l.component)]
    let error := error.elim [] fun e => [("error", Value.text e)]
    [⟨level, message, speaker ++ error ++ l.fields ++ fields⟩]
  else []

/-- A message for those who look for a fault. -/
def debug (l : Logger) (message : String) (fields : Fields := []) : List Entry :=
  l.entry .debug none message fields

/-- A message about the normal course of events. -/
def info (l : Logger) (message : String) (fields : Fields := []) : List Entry :=
  l.entry .info none message fields

/-- A message about something that may be wrong. -/
def warn (l : Logger) (error : Option String) (message : String) (fields : Fields := []) :
    List Entry :=
  l.entry .warn error message fields

/-- A message about a failure. -/
def error (l : Logger) (error : Option String) (message : String) (fields : Fields := []) :
    List Entry :=
  l.entry .error error message fields

/-- A message that the level keeps back leaves no entry. -/
theorem entry_eq_nil_iff {l : Logger} {level : Level} {error : Option String} {message : String}
    {fields : Fields} : l.entry level error message fields = [] ↔ l.level.admits level = false := by
  unfold entry
  split <;> simp_all

/-! ### Operations -/

/-- The logger of an operation that has just started: every entry names it. -/
def start (l : Logger) (operation : String) : Logger :=
  l.with_ [("operation", .text operation)]

/-- The end of an operation that went well, with names and values in turn. -/
def finish (l : Logger) (items : List Value) : List Entry :=
  l.debug "Operation completed" (.ofItems (items ++ [.text "duration_ms", .elapsedMillis]))

/-- The end of an operation that failed. -/
def fail (l : Logger) (error : Option String) : List Entry :=
  l.error error "Operation failed" [("duration_ms", .elapsedMillis)]

end Logger

end ViewCompiler.Log
