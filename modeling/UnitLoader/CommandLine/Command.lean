import UnitLoader.CommandLine.Form
import UnitLoader.Options

/-!
# Commands

What can be asked for on the command line, and `Command.ofArguments`, which says what arguments ask
for.
-/

namespace UnitLoader.CommandLine

/-- The name of the program. -/
def programName : String := "hotload"

/-- The version of the program. -/
def programVersion : String := "0.1.0"

/-- How a command is to compile. -/
structure BuildFlags where
  /-- The language edition. -/
  edition : Option String
  /-- Full debug information is wanted. -/
  debug : Bool
  /-- No debug information is wanted. -/
  noDebug : Bool
  /-- Options for code generation. -/
  codegen : List String
  deriving DecidableEq, Repr

/-- The options for the compiler. -/
def BuildFlags.options (b : BuildFlags) : OptionSet :=
  let o := OptionSet.empty
  let o := match b.edition with
    | some edition => o.edition edition
    | none => o
  let o := if b.debug then o.enableDebug else o
  let o := if b.noDebug then o.disableDebug else o
  o.append (b.codegen.map ("-C" ++ ·))

/-- What can be asked for. -/
inductive Command where
  /-- Compile and load a file, then call an operation or list all of them. -/
  | run (file : String) (call : Option String) (arguments : List String) (flags : BuildFlags)
    (timeout : Option Nat)
  /-- List the operations that a file declares. -/
  | inspect (file : String)
  /-- Compile files into an archive. -/
  | pack (archive : String) (files : List String) (flags : BuildFlags)
  /-- Call an operation of a type from archives. -/
  | invoke (archives : List String) (typeName operation : String) (arguments : List String)
  deriving DecidableEq, Repr

/-- The files that a command reads. -/
def Command.inputs : Command → List String
  | .run file _ _ _ _ => [file]
  | .inspect file => [file]
  | .pack _ files _ => files
  | .invoke archives _ _ _ => archives

/-- An option that takes no value. -/
def flagForm (name : OptionName) (long : String) (short : Option Char) : OptionForm :=
  ⟨name, some long, short, .nothing, false⟩

/-- An option that takes a text as its value and is given at most once. -/
def textForm (name : OptionName) (long : String) : OptionForm :=
  ⟨name, some long, none, .text, false⟩

/-- The options that every command takes. -/
def sharedForms : List OptionForm :=
  [flagForm .verbose "verbose" (some 'v'), flagForm .help "help" (some 'h')]

/-- The options of a command that compiles. -/
def buildForms : List OptionForm :=
  [textForm .edition "edition", flagForm .debug "debug" none, flagForm .noDebug "no-debug" none,
    ⟨.codegen, none, some 'C', .text, true⟩]

/-- The name under which help is asked for. -/
def helpName : String := "help"

/-- The names of the commands. -/
def commandNames : List String := ["run", "inspect", "pack", "invoke"]

/-- What stands in front of the name of a command. -/
def programForm : Form :=
  ⟨flagForm .version "version" (some 'V') :: sharedForms, some 0, helpName :: commandNames⟩

/-- The flags that options give. Options that exclude each other are refused. -/
def BuildFlags.ofReading (r : Reading) : Except Stop BuildFlags :=
  if r.has .debug && r.has .noDebug then .error (.fault .conflictingOptions)
  else .ok ⟨r.value? .edition, r.has .debug, r.has .noDebug, r.values .codegen⟩

namespace Command

/-- The command to run a file. -/
def readRun (arguments : List String) : Except Stop Command := do
  let form : Form :=
    { options := [textForm .call "call", ⟨.argument, some "arg", none, .text, true⟩,
        ⟨.timeout, some "timeout", none, .number, false⟩] ++ buildForms ++ sharedForms
      positionals := some 1
      commands := [] }
  let (r, _) ← form.read arguments
  let flags ← BuildFlags.ofReading r
  match r.positionals with
  | file :: _ =>
    return .run file (r.value? .call) (r.values .argument) flags (r.number? .timeout)
  | [] => throw (.fault (.missingArgument "<FILE>"))

/-- The command to inspect a file. -/
def readInspect (arguments : List String) : Except Stop Command := do
  let (r, _) ← Form.read ⟨sharedForms, some 1, []⟩ arguments
  match r.positionals with
  | file :: _ => return .inspect file
  | [] => throw (.fault (.missingArgument "<FILE>"))

/-- The command to pack files. -/
def readPack (arguments : List String) : Except Stop Command := do
  let (r, _) ← Form.read ⟨buildForms ++ sharedForms, none, []⟩ arguments
  let flags ← BuildFlags.ofReading r
  match r.positionals with
  | archive :: file :: files => return .pack archive (file :: files) flags
  | [_] => throw (.fault (.missingArgument "<FILES>"))
  | [] => throw (.fault (.missingArgument "<ARCHIVE>"))

/-- The command to invoke an operation. -/
def readInvoke (arguments : List String) : Except Stop Command := do
  let form : Form :=
    ⟨⟨.archive, some "archive", none, .text, true⟩ :: sharedForms, none, []⟩
  let (r, _) ← form.read arguments
  match r.values .archive, r.positionals with
  | [], _ => throw (.fault (.missingArgument "--archive"))
  | archives, typeName :: operation :: arguments =>
    return .invoke archives typeName operation arguments
  | _, [_] => throw (.fault (.missingArgument "<OPERATION>"))
  | _, [] => throw (.fault (.missingArgument "<TYPE_NAME>"))

/-- What comes of asking for help on topics: one command at most. -/
def helpOn : List String → Stop
  | [] => .help
  | [topic] =>
    if topic = helpName ∨ topic ∈ commandNames then .help
    else .fault (.unexpectedArgument topic)
  | first :: second :: _ =>
    .fault (.unexpectedArgument
      (if first = helpName ∨ first ∈ commandNames then second else first))

/-- The command that arguments ask for. -/
def ofArguments (arguments : List String) : Except Stop Command := do
  let (_, rest) ← programForm.read arguments
  match rest with
  | [] => throw (.fault .missingCommand)
  | "run" :: rest => readRun rest
  | "inspect" :: rest => readInspect rest
  | "pack" :: rest => readPack rest
  | "invoke" :: rest => readInvoke rest
  | _ :: topics => throw (helpOn topics)

end Command

end UnitLoader.CommandLine
