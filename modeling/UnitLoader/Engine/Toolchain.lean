import UnitLoader.Engine.Basic
import UnitLoader.Text.Lines

/-!
# Finding the compiler

The compiler is the configured one, else the one that a variable of the environment names, else the
first of its name among the programs. It must tell its version. Whatever the search comes to is
kept: an engine searches once.
-/

namespace UnitLoader.Engine

open UnitLoader.Engine.Action

/-- The variable that names the compiler. -/
def compilerVariable : String := "HOTLOAD_RUSTC"

/-- The name of the compiler among the programs. -/
def compilerName : String := "rustc"

/-- The path of the compiler, or why there is none. -/
def findCompiler (c : Config) (w : World) : Except String String :=
  match c.compilerPath with
  | some path => .ok path
  | none =>
    match (w.environment.get? compilerVariable).filter (· ≠ "") with
    | some path => .ok path
    | none =>
      match w.files.firstProgram? (Files.candidates w.searchPath compilerName) with
      | some (path, _) => .ok path
      | none => .error (compilerName ++ " not found in " ++ searchVariable)

/-- The program that is run as the compiler of a path. -/
def compilerAt (w : World) (path : String) : Except FileFault Compiler :=
  w.files.command w.searchPath path

/-- The version that a compiler tells, or why it tells none. -/
def versionOf (path : String) (output : ProgramOutput) : Except String String :=
  if !output.ending.isSuccess then
    .error (path ++ " --version exited with " ++ output.ending.text)
  else
    let version := Text.trim (Text.Utf8.decodeLossy output.bytes)
    if version.isEmpty then .error (path ++ " reported no version")
    else .ok (String.ofList version)

/-- Searches for the compiler and asks it for its version. -/
def searchToolchain : Action (Except String Toolchain) := do
  let s ← get
  match findCompiler s.engine.config s.world with
  | .error reason => return .error reason
  | .ok path =>
    match compilerAt s.world path with
    | .error fault => return .error ("failed to run " ++ path ++ ": " ++ fault.message)
    | .ok compiler =>
      called (.version path)
      return (versionOf path compiler.version).map fun version => ⟨path, version⟩

/-- The compiler. It is searched for at the first call, and every later call gives the same
answer. -/
def requireToolchain : Action Toolchain := do
  match (← get).engine.toolchain with
  | some (.ok found) => return found
  | some (.error reason) => fail (.toolchainUnavailable reason)
  | none =>
    let found ← searchToolchain
    modifyEngine fun e => { e with toolchain := some found }
    match found with
    | .ok found => return found
    | .error reason =>
      let e := Error.toolchainUnavailable reason
      tell [.warn ("Toolchain detection failed: " ++ e.message)]
      fail e

/-- What stands in front of the platform in what a compiler tells of itself. -/
def platformMark : List Char := "host: ".toList

/-- The platform in what a compiler tells of itself. -/
def platformIn? (output : List Char) : Option String :=
  (Text.lines output).findSome? fun line =>
    if platformMark.isPrefixOf line then
      some (String.ofList (Text.trim (line.drop platformMark.length)))
    else none

/-- The platform that a compiler compiles for. -/
def platform (t : Toolchain) : Action String := do
  match compilerAt (← get).world t.path with
  | .error fault =>
    fail (.toolchainUnavailable ("failed to run " ++ compilerName ++ ": " ++ fault.message))
  | .ok compiler =>
    called (.platform t.path)
    match platformIn? (Text.Utf8.decodeLossy compiler.platform) with
    | some name => return name
    | none =>
      fail (.toolchainUnavailable (compilerName ++ " did not report a host triple"))

end UnitLoader.Engine
