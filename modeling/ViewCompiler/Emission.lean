import ViewCompiler.Log.Logger

/-!
# What a run writes

A run writes text to its two output streams and entries to its log, which share the second stream.
All of it is returned as data in the order of writing.
-/

namespace ViewCompiler

/-- Something that a run writes. -/
inductive Emission where
  /-- Text on the standard output. -/
  | out (text : String)
  /-- Text on the standard error output. -/
  | err (text : String)
  /-- A line of the log. -/
  | log (format : Log.Format) (entry : Log.Entry)
  deriving Repr

namespace Emission

/-- Entries of a logger. -/
def ofEntries (logger : Log.Logger) (entries : List Log.Entry) : List Emission :=
  entries.map (.log logger.format)

/-- What stands on the standard output. -/
def standardOutput (es : List Emission) : String :=
  String.join (es.filterMap fun | out text => some text | _ => none)

/-- What stands on the standard error output. -/
def errorOutput (clock : Log.Clock) (es : List Emission) : String :=
  String.join (es.filterMap fun
    | out _ => none
    | err text => some text
    | log format entry => some (entry.render format clock))

end Emission

end ViewCompiler
