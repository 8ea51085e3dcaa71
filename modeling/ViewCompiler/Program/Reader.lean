import ViewCompiler.Document.Json.Reader
import ViewCompiler.Document.Yaml.Shape
import ViewCompiler.Program.Document

/-!
# Reading programs

A program is read from the fields under which it is written, in either format. A field that is not
given is empty, and a field with another name is refused.
-/

namespace ViewCompiler.Program

open ViewCompiler.Document ViewCompiler.Document.Readable

variable {ν : Type} [Readable ν]

/-- The names of the fields of a value. -/
def valueFields : List String :=
  ["kind", "text", "constant", "ref_kind", "definition", "access", "args"]

/-- Reads a value whose arguments are nested less deeply than `fuel`. -/
def readValue (n : ν) : (fuel : Nat) → Except ReadError (Option Value)
  | 0 => .error .mismatch
  | fuel + 1 => record? valueFields (fun fs => do
      let operand : Operand := {
        kind := ← field fs "kind" "" string?
        text := ← field fs "text" "" string?
        constant := ← field fs "constant" false flag?
        refKind := ← field fs "ref_kind" "" string?
        definition := ← field? fs "definition" integer?
        access := ← field fs "access" [] (list? 0 integer?) }
      return ⟨operand, ← field fs "args" [] (list? ⟨{}, []⟩ fun n => readValue n fuel)⟩) n

/-- Reads a binding. -/
def readBinding (fuel : Nat) : ν → Except ReadError (Option Binding) :=
  record? ["kind", "name", "value"] fun fs => do
    return {
      kind := ← field fs "kind" "" string?
      name := ← field fs "name" "" string?
      value := ← field fs "value" ⟨{}, []⟩ fun n => readValue n fuel }

/-- Reads a node. -/
def readNode (fuel : Nat) : ν → Except ReadError (Option Node) :=
  record? ["index", "kind", "name", "slots", "bindings"] fun fs => do
    return {
      index := ← field fs "index" 0 integer?
      kind := ← field fs "kind" "" string?
      name := ← field fs "name" "" string?
      slots := ← field fs "slots" 0 integer?
      bindings := ← field fs "bindings" [] (list? {} (readBinding fuel)) }

/-- Reads the update of a node. -/
def readNodeUpdate : ν → Except ReadError (Option NodeUpdate) :=
  record? ["index", "values"] fun fs => do
    return {
      index := ← field fs "index" 0 integer?
      values := ← field? fs "values" strings? }

/-- Reads a trigger. -/
def readTrigger : ν → Except ReadError (Option Trigger) :=
  record? ["value", "reason"] fun fs => do
    return {
      value := ← field fs "value" "" string?
      reason := ← field fs "reason" "" string? }

/-- Reads the update of a child. -/
def readChildUpdate : ν → Except ReadError (Option ChildUpdate) :=
  record? ["child", "triggers"] fun fs => do
    return {
      child := ← field fs "child" 0 integer?
      triggers := ← field? fs "triggers" (list? {} readTrigger) }

/-- Reads a step of an update routine. -/
def readAction : ν → Except ReadError (Option Action) :=
  record? ["kind", "index", "child", "values"] fun fs => do
    return {
      kind := ← field fs "kind" "" string?
      index := ← field? fs "index" integer?
      child := ← field? fs "child" integer?
      values := ← field? fs "values" strings? }

/-- The names of the fields of a scope. -/
def scopeFields : List String :=
  ["id", "name", "kind", "parent", "anchor", "spec", "children", "slots", "self_bindings", "nodes",
   "dom_diff", "factory_diff", "actions"]

/-- Reads a scope. -/
def readScope (fuel : Nat) : ν → Except ReadError (Option Scope) :=
  record? scopeFields fun fs => do
    return {
      id := ← field fs "id" 0 integer?
      name := ← field fs "name" "" string?
      kind := ← field fs "kind" "" string?
      parent := ← field? fs "parent" integer?
      anchor := ← field fs "anchor" 0 integer?
      spec := ← field fs "spec" "" string?
      children := ← field fs "children" [] (list? 0 integer?)
      slots := ← field fs "slots" 0 integer?
      selfBindings := ← field fs "self_bindings" [] (list? {} (readBinding fuel))
      nodes := ← field fs "nodes" [] (list? {} (readNode fuel))
      nodeUpdates := ← field fs "dom_diff" [] (list? {} readNodeUpdate)
      childUpdates := ← field fs "factory_diff" [] (list? {} readChildUpdate)
      actions := ← field fs "actions" [] (list? {} readAction) }

/-- Reads a style sheet. -/
def readStyle : ν → Except ReadError (Option Style) :=
  record? ["component", "tag", "attribute", "css"] fun fs => do
    return {
      component := ← field fs "component" "" string?
      tag := ← field fs "tag" "" string?
      attributeName := ← field fs "attribute" "" string?
      css := ← field fs "css" "" string? }

/-- Reads a program. -/
def readProgram (fuel : Nat) : ν → Except ReadError (Option Program) :=
  record? ["root", "factories", "styles"] fun fs => do
    return {
      root := ← field fs "root" "" string?
      scopes := ← field? fs "factories" (list? {} (readScope fuel))
      styles := ← field fs "styles" [] (list? {} readStyle) }

/-- Reads a program written in the given format. -/
def read (format : Format) (text : String) : Except ReadError Program := do
  let program ← match format with
    | .yaml => readProgram text.length (← Yaml.read text)
    | .json => readProgram text.length (← Json.read text)
  return program.getD {}

/-- The name by which messages refer to a format. -/
def Format.name : Format → String
  | .yaml => "yaml"
  | .json => "json"

/-- Reads a program written in the format with the given name. -/
def decode (text format : String) : Except Problem Program := do
  let f ← Format.ofName format
  (read f text).mapError fun e => .plain (s!"decoding {f.name}: " ++ e.message)

end ViewCompiler.Program
