import UnitLoader.CommandLine.Execution

/-!
# The program

The outer layer of the command line: it reads the files and variables that a command can see,
executes the command on them, and prints what comes of it. It starts no compiler and loads no
library, so a command that needs one reports that there is none.
-/

namespace UnitLoader.CommandLine

/-- The environment of the program. -/
def readEnvironment : IO Environment := do
  let names := Config.variableNames ++ [Engine.compilerVariable, searchVariable]
  return ⟨← names.filterMapM fun name => return (← IO.getEnv name).map (name, ·)⟩

/-- The path up to its last slash. -/
def directoryOf (path : String) : String :=
  "/".intercalate ((path.splitOn "/").dropLast ++ [""])

/-- The error number of a directory that is read like a file. -/
def directoryNumber : UInt32 := 21

/-- Files with what stands at one more path. -/
def readInput (files : Files) (path : String) : IO Files := do
  try
    let bytes ← IO.FS.readBinFile path
    let files := (files.makeDirectories (directoryOf path)).2
    return (files.write path bytes.toList).toOption.getD files
  catch
    | .inappropriateType _ number _ =>
      if number = directoryNumber then
        return (files.makeDirectories path).2
      else return files
    | _ => return files

/-- The surroundings that the arguments speak of. -/
def readWorld (arguments : List String) : IO World := do
  let inputs := match Command.ofArguments arguments with
    | .ok command => command.inputs
    | .error _ => []
  return {
    files := ← inputs.foldlM readInput .empty
    environment := ← readEnvironment
    images := fun _ => none
    causes := fun _ _ _ => "no system loader"
    draws := .counting
    memory := .empty
    calls := [] }

/-- The bytes of an output. -/
def outputBytes (passages : List Passage) : ByteArray :=
  ⟨(passages.flatMap Passage.bytes).toArray⟩

end UnitLoader.CommandLine

/-- Executes the command line. -/
def main (arguments : List String) : IO UInt32 := do
  let world ← UnitLoader.CommandLine.readWorld arguments
  let outcome := UnitLoader.CommandLine.executeLine ⟨"0.00", "0"⟩ world arguments
  (← IO.getStdout).write (UnitLoader.CommandLine.outputBytes outcome.screen.out)
  (← IO.getStderr).write (UnitLoader.CommandLine.outputBytes outcome.screen.err)
  return outcome.status.toUInt32
