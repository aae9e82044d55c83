import UnitLoader.CommandLine.Command
import UnitLoader.CommandLine.Screen
import UnitLoader.Engine.Compile

/-!
# Executing commands

`execute` runs a command with a fresh engine and says what it wrote, how it ended and what it left
behind; `executeLine` does the same for the arguments of a command line. What the engine tells of
its work in its log is not shown.
-/

namespace UnitLoader.CommandLine

open UnitLoader.Engine (Action)

/-- Why a command fails. -/
inductive Failure where
  /-- A file cannot be read. -/
  | unreadable (file : String) (fault : FileFault)
  /-- A file cannot be compiled. -/
  | uncompiled (file : String) (e : Error)
  /-- Anything else that is reported. -/
  | error (e : Error)
  /-- The name of a unit cannot be written in its dispatch module. -/
  | unwritable (fault : Dispatch.NameFault)
  deriving DecidableEq, Repr

namespace Failure

/-- What an action of an engine fails for. -/
def ofEngine : Engine.Failure → Failure
  | .error e => .error e
  | .unwritable fault => .unwritable fault

/-- The failure to compile a file. -/
def ofCompilation (file : String) : Engine.Failure → Failure
  | .error e => .uncompiled file e
  | .unwritable fault => .unwritable fault

/-- What lies behind an error. -/
def causesOf : Error → List String
  | .io fault => [fault.message]
  | _ => []

/-- The diagnostics that a failure carries. -/
def diagnostics : Failure → List Diagnostic
  | .uncompiled _ e | .error e => e.diagnostics
  | .unreadable _ _ | .unwritable _ => []

/-- What is written on a failure. -/
def report : Failure → String
  | .unreadable file fault => errorReport ("failed to read " ++ file) [fault.message]
  | .uncompiled file e => errorReport ("failed to compile " ++ file) (e.message :: causesOf e)
  | .error e => errorReport e.message (causesOf e)
  | .unwritable fault => fault.message ++ "\n"

/-- The exit status of a failure. -/
def status : Failure → Nat
  | .unwritable _ => 101
  | _ => 1

end Failure

/-- What a command works on. -/
structure Console where
  /-- The engine and its surroundings. -/
  state : Engine.State
  /-- What was written so far. -/
  screen : Screen

/-- A step of a command. -/
abbrev Step (α : Type) := EStateM Failure Console α

namespace Step

variable {α : Type}

/-- Writes to the standard output. -/
def print (text : String) : Step Unit := modify fun c => { c with screen := c.screen.print text }

/-- Writes to the error output. -/
def warn (text : String) : Step Unit := modify fun c => { c with screen := c.screen.warn text }

/-- Shows what the code of libraries wrote. -/
def showLoaded (written : Written) : Step Unit :=
  modify fun c => { c with screen := c.screen.load written }

/-- An action of the engine; `failure` says what a failure of it means. -/
def act (failure : Engine.Failure → Failure) (a : Action α) : Step α := fun c =>
  match a c.state with
  | .ok value state => .ok value { c with state }
  | .error problem state => .error (failure problem) { c with state }

/-- An action of the engine. -/
def ofAction (a : Action α) : Step α := act Failure.ofEngine a

end Step

open Step

/-- The text of a file. -/
def readSource (file : String) : Step String := do
  match (← get).state.world.files.read file with
  | .error fault => throw (.unreadable file fault)
  | .ok bytes =>
    match Text.Utf8.decode bytes with
    | .ok text => return String.ofList text
    | .error _ => throw (.unreadable file (.other "stream did not contain valid UTF-8"))

/-- Loads a name. -/
def loadName (name : String) : Step Handle := do
  match (← get).state.opens? name with
  | some library => showLoaded (library.loading name)
  | none => pure ()
  ofAction (Engine.load name)

/-- Runs an operation on a new instance, which is dropped afterwards. -/
def callFresh (made : Done (Except Error Nat)) (operation : String)
    (arguments : List String) : Option (Done (Except Error String)) :=
  match made.result with
  | .error e => some ⟨.error e, made.memory, made.written⟩
  | .ok number =>
    (made.memory.call number operation arguments).map fun called =>
      match called.memory.drop number with
      | none => ⟨called.result, called.memory, made.written ++ called.written⟩
      | some dropped =>
        ⟨called.result, dropped.memory, made.written ++ called.written ++ dropped.written⟩

/-- Runs an operation of a type. If it is not known to do without an instance, one is made for it
and dropped afterwards. Nothing comes of a handle that stands for no type. -/
def callOperation (m : Memory) (h : Handle) (operation : String) (arguments : List String) :
    Option (Done (Except Error String)) :=
  let static := ((m.type? h).bind (·.operation? operation)).any fun o => !o.needsInstance
  if static then m.callStatic h operation arguments
  else (m.instantiate h).bind fun made => callFresh made operation arguments

/-- Runs an operation of the type that a name is loaded as, and prints the answer. -/
def printCall (name : String) (h : Handle) (operation : String) (arguments : List String) :
    Step Unit := do
  match callOperation (← get).state.world.memory h operation arguments with
  | none => throw (.error (.resolution name))
  | some called =>
    ofAction (Action.modifyWorld fun w => { w with memory := called.memory })
    showLoaded called.written
    print ((← ofAction (Action.ofExcept called.result)) ++ "\n")

/-- Prints the operations of the type that a name is loaded as. -/
def printOperations (name : String) (h : Handle) : Step Unit := do
  match (← get).state.world.memory.type? h with
  | none => throw (.error (.resolution name))
  | some t => print (operationLines t.name t.operations)

/-- Compiles and loads a file, then calls an operation or lists all of them. -/
def run (times : Times) (file : String) (call : Option String) (arguments : List String)
    (flags : BuildFlags) (timeout : Option Nat) : Step Unit := do
  let source ← readSource file
  let name ← ofAction (Action.ofExcept (resolveName source))
  let limit := (timeout.map Text.Duration.ofSeconds).or (← get).state.engine.config.timeout
  warn (progressLine "Compiling" name)
  let compiled ← ofAction (Engine.compileWithin name source flags.options limit)
  warn (shownDiagnostics compiled.diagnostics)
  let handle ← loadName name
  warn (progressLine "Loaded"
    (name ++ " in " ++ times.seconds ++ "s (compile: " ++ times.milliseconds ++ "ms)"))
  match call with
  | some operation => printCall name handle operation arguments
  | none => printOperations name handle

/-- Lists the operations that a file declares. -/
def inspect (file : String) : Step Unit := do
  let source ← readSource file
  let u ← ofAction (Action.ofExcept (SourceUnit.ofSource source))
  let d ← ofAction (Engine.dispatchOf u)
  print (operationLines u.name d.manifest.operations)
  if !d.isInstantiable then print notExposedLine

/-- Compiles a file that goes into an archive. -/
def compileForArchive (options : OptionSet) (file : String) : Step Unit := do
  let source ← readSource file
  let name ← ofAction (Action.ofExcept (resolveName source))
  warn (progressLine "Compiling" (name ++ " (" ++ file ++ ")"))
  let compiled ← act (Failure.ofCompilation file) (Engine.compile name source options)
  warn (shownDiagnostics compiled.diagnostics)

/-- Compiles files into an archive. -/
def pack (times : Times) (archive : String) (files : List String) (flags : BuildFlags) :
    Step Unit := do
  files.forM (compileForArchive flags.options)
  let count ← ofAction (Engine.exportArchive archive)
  print (progressLine "Packed"
    (toString count ++ " artifact(s) into " ++ archive ++ " in " ++ times.seconds ++ "s"))

/-- Calls an operation of a type from archives. -/
def invoke (archives : List String) (typeName operation : String) (arguments : List String) :
    Step Unit := do
  archives.forM fun archive => ofAction (Engine.appendArchive archive)
  let handle ← loadName typeName
  printCall typeName handle operation arguments

/-- The steps of a command. -/
def Command.steps (times : Times) : Command → Step Unit
  | .run file call arguments flags timeout =>
    CommandLine.run times file call arguments flags timeout
  | .inspect file => CommandLine.inspect file
  | .pack archive files flags => CommandLine.pack times archive files flags
  | .invoke archives typeName operation arguments =>
    CommandLine.invoke archives typeName operation arguments

/-- What comes of a command line. -/
structure Outcome where
  /-- The exit status. -/
  status : Nat
  /-- What was written. -/
  screen : Screen
  /-- The surroundings afterwards. -/
  world : World

/-- What a command starts with: a process that has loaded nothing, and a fresh engine, which is
configured by the environment. -/
def Console.opened (w : World) : Console :=
  let config := (Config.ofEnvironment w.environment).1
  ⟨⟨.new config, { w with memory := .empty }, [], .fresh⟩, .empty⟩

/-- The screen when the process is over and has closed its libraries. -/
def Console.closed (c : Console) : Screen :=
  c.state.world.memory.closing.foldl Screen.load c.screen

/-- Executes a command in a process of its own. -/
def execute (times : Times) (w : World) (c : Command) : Outcome :=
  match c.steps times (.opened w) with
  | .ok _ after => ⟨0, after.closed, after.state.world⟩
  | .error failure after =>
    ⟨failure.status, (after.closed.warn (shownDiagnostics failure.diagnostics)).warn failure.report,
      after.state.world⟩

/-- How the program is used. -/
def usage : String :=
  "Usage: " ++ programName ++ " [OPTIONS] <COMMAND>\n\nCommands:\n" ++
    "  run      Compile and load a source file, then optionally call an operation\n" ++
    "  inspect  Print the declared type and its operations without compiling\n" ++
    "  pack     Compile source files into an archive\n" ++
    "  invoke   Call an operation on a type loaded from archives\n"

/-- What comes of arguments that ask for no command. -/
def Stop.outcome (w : World) : Stop → Outcome
  | .help => ⟨0, Screen.empty.print usage, w⟩
  | .version => ⟨0, Screen.empty.print (programName ++ " " ++ programVersion ++ "\n"), w⟩
  | .fault f => ⟨2, Screen.empty.warn ("error: " ++ f.message ++ "\n\n" ++ usage), w⟩

/-- Executes what the arguments of a command line ask for. -/
def executeLine (times : Times) (w : World) (arguments : List String) : Outcome :=
  match Command.ofArguments arguments with
  | .ok command => execute times w command
  | .error stop => stop.outcome w

end UnitLoader.CommandLine
