import ViewCompiler.Config.Basic
import ViewCompiler.Emission
import ViewCompiler.FileTree
import ViewCompiler.Program.Document

/-!
# Publishing programs

A program is written to the standard output or, where the configuration names a file, to that file.
The directories above the file are made. Whoever reads the file finds either the former content or
the new one.
-/

namespace ViewCompiler.Program

open ViewCompiler.Text

/-- Writes a program where the configuration says; gives the files after that, and what else is
written. -/
def publish (p : Program) (config : Config) (logger : Log.Logger) (files : FileTree) :
    Except Problem (FileTree × List Emission) := do
  let text ← p.encode config.format
  if config.output = "" then return (files, [.out text])
  let directory := Path.directory config.output
  let files ← (files.makeDirectory directory).mapError fun e =>
    .context "creating output directory" (.plain e.message)
  if files.isDirectory config.output then
    throw (.context "writing output file"
      (.plain ("rename " ++ Path.child directory ".wane-0" ++ " " ++ config.output ++
        ": file exists")))
  let entries := logger.info "Wrote model"
    [("path", .text config.output), ("factories", .count (p.scopes.getD []).length)]
  return (files.write config.output text, Emission.ofEntries logger entries)

end ViewCompiler.Program
