import UnitLoader.Log
import UnitLoader.Text.Duration
import UnitLoader.Text.Number
import UnitLoader.Text.Quoted

/-!
# Configuration

What an engine is told before it starts: which compiler to run, where to put scratch files, how
long a compilation may take, and whether a loaded name may be defined anew. `Config.ofEnvironment`
reads this off environment variables and passes over values that make no sense.
-/

namespace UnitLoader

open UnitLoader.Text (Duration)

/-- The environment variables of a process. -/
structure Environment where
  /-- Each variable with its value. -/
  bindings : List (String × String)

/-- The value of a variable. -/
def Environment.get? (e : Environment) (name : String) : Option String := e.bindings.lookup name

/-- What happens to a definition of a name that is loaded already. -/
inductive RedefinitionPolicy where
  /-- It is kept beside what is loaded. -/
  | allow
  /-- It is refused. -/
  | reject
  deriving DecidableEq, Repr

namespace RedefinitionPolicy

/-- The name of a policy. -/
def name : RedefinitionPolicy → String
  | .allow => "allow"
  | .reject => "reject"

/-- The policy of a name, in any case and with blanks around it. -/
def parse (text : String) : Except String RedefinitionPolicy :=
  match String.ofList (Text.asciiLower (Text.trim text.toList)) with
  | "allow" => .ok .allow
  | "reject" => .ok .reject
  | other => .error ("unknown redefinition policy: " ++ other)

end RedefinitionPolicy

/-- The configuration of an engine. -/
structure Config where
  /-- The path of the compiler, if it is not to be searched for. -/
  compilerPath : Option String
  /-- The directory for scratch directories, if it is not the system's. -/
  scratchRoot : Option String
  /-- How long a compilation may take, if there is a limit. -/
  timeout : Option Duration
  /-- What happens to a new definition of a loaded name. -/
  policy : RedefinitionPolicy
  deriving DecidableEq, Repr

namespace Config

/-- Nothing is set and new definitions are allowed. -/
def standard : Config := ⟨none, none, none, .allow⟩

/-- The variable that names the directory for scratch directories. -/
def scratchVariable : String := "HOTLOAD_SCRATCH_DIR"

/-- The variable that limits the time of a compilation, in seconds. -/
def timeoutVariable : String := "HOTLOAD_COMPILE_TIMEOUT_SECS"

/-- The variable that says what happens to a new definition. -/
def policyVariable : String := "HOTLOAD_REDEFINITION"

/-- The variables that configure an engine. -/
def variableNames : List String := [scratchVariable, timeoutVariable, policyVariable]

/-- The time limit that the environment sets, and a warning if it sets none that can be read. -/
def timeoutOf (e : Environment) : Option Duration × List LogLine :=
  match e.get? timeoutVariable with
  | none => (none, [])
  | some text =>
    match Text.parseNatural (UInt64.size - 1) (Text.trim text.toList) with
    | .ok seconds => (some (.ofSeconds seconds), [])
    | .error fault =>
      (none, [.warn ("Ignoring " ++ timeoutVariable ++ "=" ++
        String.ofList (Text.quoted text.toList) ++ ": " ++ fault.message)])

/-- The policy that the environment sets, and a warning if it sets none that there is. -/
def policyOf (e : Environment) : RedefinitionPolicy × List LogLine :=
  match e.get? policyVariable with
  | none => (.allow, [])
  | some text =>
    match RedefinitionPolicy.parse text with
    | .ok policy => (policy, [])
    | .error message => (.allow, [.warn ("Ignoring " ++ policyVariable ++ ": " ++ message)])

/-- The configuration that the environment sets, and the warnings about it. -/
def ofEnvironment (e : Environment) : Config × List LogLine :=
  let (timeout, timeoutLog) := timeoutOf e
  let (policy, policyLog) := policyOf e
  (⟨none, (e.get? scratchVariable).filter (· ≠ ""), timeout, policy⟩, timeoutLog ++ policyLog)

end Config

end UnitLoader
