import ViewCompiler.Compile.Check
import ViewCompiler.Log.Logger

/-!
# What is told of runs

A compiler counts how often it ran, with which outcome, and how many templates it took from its
cache. A run is also an operation of the log that either completes or fails; on the way the compiler
tells how many templates it has read.
-/

namespace ViewCompiler

open ViewCompiler.Text ViewCompiler.Log

/-! ### Counts -/

/-- What a compiler has done so far. -/
structure Metrics where
  successful : Nat := 0
  failed : Nat := 0
  /-- Templates read anew. -/
  parsed : Nat := 0
  /-- Templates taken from the cache. -/
  cached : Nat := 0
  deriving DecidableEq, Repr

namespace Metrics

/-- The number of runs. -/
def total (m : Metrics) : Nat := m.successful + m.failed

/-- Counts a run. -/
def record (m : Metrics) (run : CompileRun) : Metrics :=
  let ok := run.outcome.isOk
  { successful := m.successful + (if ok then 1 else 0)
    failed := m.failed + (if ok then 0 else 1)
    parsed := m.parsed + run.reading.parsed
    cached := m.cached + run.reading.cached }

/-- A quotient rounded to the nearest integer, a half going to the even neighbour. -/
def roundDiv (n d : Nat) : Nat :=
  let q := n / d
  let twice := 2 * (n % d)
  if twice < d || (twice = d && q % 2 = 0) then q else q + 1

/-- The share of templates taken from the cache, in per cent with four decimals. -/
def hitRate (m : Metrics) : String :=
  let all := m.parsed + m.cached
  let scaled := if all = 0 then 0 else roundDiv (m.cached * 1000000) all
  let fraction := digits (scaled % 10000)
  toString (scaled / 10000) ++ "." ++
    String.ofList (List.replicate (4 - fraction.length) '0' ++ fraction)

end Metrics

/-! ### The log -/

/-- The name under which the compiler logs. -/
def compilerName : String := "compiler"

/-- What a run of the compiler logs. -/
def CompileRun.entries (run : CompileRun) (logger : Logger) : List Entry :=
  let logger := logger.forComponent compilerName
  let operation := logger.start "compile"
  let read :=
    if run.complete then
      logger.debug "Parsed templates"
        [("parsed", .count run.reading.parsed), ("cached", .count run.reading.cached)]
    else []
  read ++ match run.outcome with
    | .error p => operation.fail (some p.message)
    | .ok c =>
      operation.finish [.text "root", .text c.root, .text "factories", .count c.tree.scopes.length,
        .text "styles", .count c.styles.length]

/-- What a check of all components logs. -/
def CheckRun.entries (run : CheckRun) (logger : Logger) : List Entry :=
  let operation := (logger.forComponent compilerName).start "check"
  match run.outcome with
  | .error p => operation.fail (some p.message)
  | .ok found =>
    operation.finish [.text "components", .count run.registry.size, .text "diagnostics",
      .count found.diagnostics.length]

end ViewCompiler
