import ViewCompiler.Document.Yaml.Shape
import ViewCompiler.Metadata.Basic
import ViewCompiler.Problem

/-!
# Manifests

A manifest declares the members of a component in a file of its own: its name, properties, getters
and methods, and for each method what it calls and assigns directly.
-/

namespace ViewCompiler.Manifest

open ViewCompiler.Document

/-- The direct edges of a method. -/
def readEdges : Yaml.Node → Except ReadError (Option MethodEdges) :=
  Readable.record? ["calls", "assigns"] fun fs => do
    return {
      calls := ← Readable.field fs "calls" [] Readable.strings?
      assigns := ← Readable.field fs "assigns" [] Readable.strings? }

/-- The methods by name. A method without a value has no edges. -/
def readMethods (n : Yaml.Node) : Except ReadError (Option (List (String × MethodEdges))) := do
  match ← n.readEntries with
  | none => return none
  | some es => return some (← es.mapM fun (m, e) => do return (m, (← readEdges e).getD {}))

/-- A whole declaration. -/
def readDeclaration : Yaml.Node → Except ReadError (Option Declaration) :=
  Readable.record? ["name", "properties", "getters", "methods"] fun fs => do
    return {
      name := ← Readable.field fs "name" "" Readable.string?
      properties := ← Readable.field fs "properties" [] Readable.strings?
      getters := ← Readable.field fs "getters" [] Readable.strings?
      methods := ← Readable.field fs "methods" [] readMethods }

/-- Reads a manifest. -/
def read (text : String) : Except Problem Metadata := do
  let d ← (Yaml.read text >>= readDeclaration).mapError fun e =>
    .plain ("failed to decode manifest: " ++ e.message)
  let d := d.getD { name := "" }
  if d.name = "" then throw (.plain "manifest has no name")
  (Metadata.ofDeclaration d).mapError fun e => .plain e.message

end ViewCompiler.Manifest
