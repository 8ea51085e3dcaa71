import ViewCompiler.Problem

/-!
# Diagnostics

A diagnostic is a problem as a reader of the sources sees it: the component and file it concerns,
a place, a text and a severity. A `Collector` gathers them in the order of arrival and lists them
by component, line and column.
-/

namespace ViewCompiler

open ViewCompiler.Text

/-- How serious a diagnostic is. Levels beyond the named ones are kept as they are. -/
structure Severity where
  level : Int
  deriving DecidableEq, Repr

namespace Severity

def info : Severity := ⟨0⟩
def warning : Severity := ⟨1⟩
def error : Severity := ⟨2⟩
def fatal : Severity := ⟨3⟩

/-- The name of a severity. -/
def name (s : Severity) : String :=
  if s = info then "info"
  else if s = warning then "warning"
  else if s = error then "error"
  else if s = fatal then "fatal"
  else "unknown"

/-- Whether a severity counts as an error. -/
def isError (s : Severity) : Bool := s.level ≥ error.level

end Severity

/-- A problem as a reader of the sources sees it. -/
structure Diagnostic where
  component : String
  file : String
  line : Int
  column : Int
  message : String
  severity : Severity
  deriving DecidableEq, Repr

namespace Diagnostic

/-- A diagnostic in one line. -/
def text (d : Diagnostic) : String :=
  let file := if d.file = "" then d.component else d.file
  s!"{file}:{d.line}:{d.column}: {d.severity.name}: {d.message}"

/-- The diagnostic of a problem found in a component. The place is that of the outermost problem
that has one; a parse problem is shown without its own place, and a coded problem may name another
file. -/
def ofProblem (component file : String) (p : Problem) : Diagnostic :=
  let base : Diagnostic :=
    { component, file, line := 0, column := 0, message := p.message, severity := .error }
  match p.parse?, p.unresolved?, p.coded? with
  | some (span, message), _, _ =>
    { base with line := span.start.line, column := span.start.column, message }
  | none, some r, _ => { base with line := r.span.start.line, column := r.span.start.column }
  | none, none, some detail =>
    { base with
      line := detail.line
      column := detail.column
      file := if detail.file = "" then file else detail.file }
  | none, none, none => base

/-- The order of reports: by component, then line, then column. -/
def before (a b : Diagnostic) : Bool :=
  if a.component ≠ b.component then a.component < b.component
  else if a.line ≠ b.line then a.line < b.line
  else a.column < b.column

end Diagnostic

/-- Diagnostics in the order of their arrival. -/
structure Collector where
  diagnostics : List Diagnostic := []
  deriving Repr

namespace Collector

/-- Adds a diagnostic. -/
def add (c : Collector) (d : Diagnostic) : Collector := ⟨c.diagnostics ++ [d]⟩

/-- Adds the diagnostic of a problem, if there is one. -/
def addProblem (c : Collector) (component file : String) (p : Option Problem) : Collector :=
  match p with
  | some p => c.add (.ofProblem component file p)
  | none => c

/-- Whether an error has been collected. -/
def hasErrors (c : Collector) : Bool := c.diagnostics.any (·.severity.isError)

/-- The diagnostics in report order; equal places keep the order of arrival. -/
def sorted (c : Collector) : List Diagnostic := c.diagnostics.mergeSort fun a b => !b.before a

/-- The diagnostics of one component, in the order of arrival. -/
def ofComponent (c : Collector) (component : String) : List Diagnostic :=
  c.diagnostics.filter (·.component = component)

end Collector

end ViewCompiler
