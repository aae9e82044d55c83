import UnitLoader.Diagnostic.Attribution
import UnitLoader.Engine.Scratch
import UnitLoader.Engine.Toolchain
import UnitLoader.Options

/-!
# Compiling

`compileWithin` compiles a unit: its source with the dispatch module in it goes to the compiler, and
what the compiler links is registered under the unit's name. If anything fails, nothing is
registered and the scratch directory is gone.
-/

namespace UnitLoader.Engine

open UnitLoader.Engine.Action
open Text (Duration)

/-- The language edition of units whose options name none. -/
def standardEdition : String := "2021"

/-- The arguments for the compiler. The source comes from its input. -/
def compilerArguments (u : SourceUnit) (artifactPath : String) (options : OptionSet) :
    List String :=
  ["-", "--crate-name", u.crateName, "--crate-type=cdylib", "--error-format=json", "-o",
      artifactPath] ++
    (if options.sets "--edition" then [] else ["--edition=" ++ standardEdition]) ++ options.tokens

/-- How a compilation ends within a time limit, if it ends in time. Without a limit it is waited
for. -/
def endingWithin (limit : Option Duration) (c : Compilation) : Option Ending :=
  match limit with
  | some d => if d.nanoseconds < c.takes.nanoseconds then none else some c.ending
  | none => some c.ending

/-- The diagnostics of a compilation that failed. If none of them is an error, one is added that
says how the compiler ended, or shows all it wrote. -/
def failureDiagnostics (found : List Diagnostic) (log : List Char) (ending : Ending) :
    List Diagnostic :=
  if found.any Diagnostic.isError then found
  else
    let text := Text.trim log
    found ++ [if text.isEmpty then .simple (compilerName ++ " exited with " ++ ending.text)
      else .simpleRendered (String.ofList text)]

/-- What comes of a compilation. -/
structure Compiled where
  /-- The artifact, which is registered. -/
  artifact : Artifact
  /-- What the compiler had to say. -/
  diagnostics : List Diagnostic
  deriving DecidableEq, Repr

/-- What the compiler is given for a unit. -/
def invocationFor (scratch : Scratch) (u : SourceUnit) (text : List Char) (options : OptionSet) :
    Invocation :=
  { arguments := compilerArguments u (scratch.artifactPath u) options
    input := text
    scratch := scratch.path }

/-- Gives a unit to the compiler and keeps in the scratch directory what it writes. -/
def runCompiler (t : Toolchain) (scratch : Scratch) (u : SourceUnit) (text : List Char)
    (options : OptionSet) : Action Compilation := do
  -- The log is there before the compiler runs, even if it writes nothing.
  Scratch.writeFile (scratch.logPath u) []
  let compiler ← ofFiles (compilerAt (← get).world t.path)
  let invocation := invocationFor scratch u text options
  let run := compiler.compile invocation
  called (.compile t.path invocation run)
  Scratch.writeFile (scratch.logPath u) run.log
  match run.artifact, invocation.outputPath? with
  | some bytes, some path => Scratch.writeFile path bytes
  | _, _ => pure ()
  return run

/-- Something stands where a path leads. -/
def isThere (path : String) : Action Bool := do
  return ((← get).world.files.find path).toOption.isSome

/-- Compiles a unit in a scratch directory. -/
def compileIn (t : Toolchain) (u : SourceUnit) (d : Dispatch) (options : OptionSet)
    (limit : Option Duration) (scratch : Scratch) : Action Compiled := do
  let attached := d.attach u.source.toList
  let run ← runCompiler t scratch u attached.text options
  match endingWithin limit run with
  | none =>
    let after := limit.getD ⟨0⟩
    tell [.warn ("Compilation of " ++ u.name ++ " timed out after " ++ after.text)]
    fail (.timeout u.name after)
  | some ending =>
    let log := Text.Utf8.decodeLossy
      (← ofFiles ((← get).world.files.read (scratch.logPath u)))
    let attribution := Attribution.ofSource u.virtualPath u.source.toList attached.region
    let diagnostics := attribution.diagnostics log
    -- A compiler may end well and link nothing.
    if ending.isSuccess && (← isThere (scratch.artifactPath u)) then
      let artifact ← scratch.capture u
      return ⟨artifact, diagnostics⟩
    else fail (.compile u.name (failureDiagnostics diagnostics log ending))

/-- The dispatch module of a unit. -/
def dispatchOf (u : SourceUnit) : Action Dispatch :=
  match Dispatch.generate u with
  | .ok d => pure d
  | .error fault => throw (.unwritable fault)

/-- Compiles a source as the definition of a name with the compiler that was found, within a time
limit. -/
def compileWith (name source : String) (options : OptionSet) (limit : Option Duration)
    (t : Toolchain) : Action Compiled := do
  let u : SourceUnit := ⟨name, source⟩
  let d ← dispatchOf u
  Scratch.during (compileIn t u d options limit)

/-- Compiles a source as the definition of a name, within a time limit. -/
def compileWithin (name source : String) (options : OptionSet) (limit : Option Duration) :
    Action Compiled := do
  compileWith name source options limit (← requireToolchain)

/-- Compiles a source as the definition of a name. -/
def compile (name source : String) (options : OptionSet) : Action Compiled := do
  compileWithin name source options (← get).engine.config.timeout

/-- Compiles a source under the name that it declares, and loads that name. -/
def compileAndLoad (source : String) (options : OptionSet) : Action Handle := do
  let name ← ofExcept (resolveName source)
  discard (compile name source options)
  load name

end UnitLoader.Engine
