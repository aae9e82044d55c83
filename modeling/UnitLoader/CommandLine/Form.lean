import UnitLoader.Text.Number

/-!
# The form of a command's arguments

A `Form` says which options a command takes and how many other arguments. `Form.read` goes through
arguments from left to right: each one is an option, the value of the option before it, or a
positional argument; behind `--` all are positional. The first argument that does not fit decides,
and so does the first one that asks for help.
-/

namespace UnitLoader.CommandLine

/-- The options of all commands. -/
inductive OptionName where
  | help
  | version
  | verbose
  | call
  | argument
  | edition
  | debug
  | noDebug
  | codegen
  | timeout
  | archive
  deriving DecidableEq, Repr

/-- What stands behind the name of an option. -/
inductive ValueKind where
  | nothing
  | text
  | number
  deriving DecidableEq, Repr

/-- How an option is written. -/
structure OptionForm where
  /-- The option. -/
  name : OptionName
  /-- What is written behind two hyphens. -/
  long : Option String
  /-- What is written behind one hyphen. -/
  short : Option Char
  /-- What stands behind the name. -/
  value : ValueKind
  /-- The option may be given more than once. -/
  repeatable : Bool
  deriving DecidableEq, Repr

/-- An option as it is written. -/
def OptionForm.text (o : OptionForm) : String :=
  match o.long, o.short with
  | some name, _ => "--" ++ name
  | none, some c => String.ofList ['-', c]
  | none, none => ""

/-- Why arguments are refused. -/
inductive UsageFault where
  /-- No command is named. -/
  | missingCommand
  /-- An argument that the command has no place for. -/
  | unexpectedArgument (argument : String)
  /-- An option that needs a value has none. -/
  | missingValue (option : OptionForm)
  /-- An option that takes no value has one. -/
  | unexpectedValue (option : OptionForm)
  /-- The value of an option is no number. -/
  | invalidNumber (option : OptionForm) (value : String)
  /-- An option is given more than once. -/
  | repeatedOption (option : OptionForm)
  /-- Options that exclude each other. -/
  | conflictingOptions
  /-- An argument that the command needs is not there. -/
  | missingArgument (name : String)
  deriving DecidableEq, Repr

/-- The text of a fault. -/
def UsageFault.message : UsageFault → String
  | .missingCommand => "a command is required"
  | .unexpectedArgument argument => "unexpected argument " ++ argument
  | .missingValue option => "a value is required for " ++ option.text
  | .unexpectedValue option => "no value is allowed for " ++ option.text
  | .invalidNumber option value => "invalid value " ++ value ++ " for " ++ option.text
  | .repeatedOption option => option.text ++ " cannot be used multiple times"
  | .conflictingOptions => "--debug cannot be used with --no-debug"
  | .missingArgument name => "the argument " ++ name ++ " is required"

/-- Why no command comes of arguments. -/
inductive Stop where
  /-- They ask for help. -/
  | help
  /-- They ask for the version. -/
  | version
  /-- They are refused. -/
  | fault (f : UsageFault)
  deriving DecidableEq, Repr

/-- What was read of arguments. -/
structure Reading where
  /-- The options with their values, in order. -/
  options : List (OptionName × String)
  /-- The positional arguments, in order. -/
  positionals : List String
  deriving DecidableEq, Repr

namespace Reading

/-- Nothing is read. -/
def empty : Reading := ⟨[], []⟩

/-- The values of an option. -/
def values (r : Reading) (name : OptionName) : List String :=
  r.options.filterMap fun given => if given.1 = name then some given.2 else none

/-- The option is given. -/
def has (r : Reading) (name : OptionName) : Bool := !(r.values name).isEmpty

/-- The value of an option. -/
def value? (r : Reading) (name : OptionName) : Option String := (r.values name).head?

/-- The largest number that an option takes. -/
def numberBound : Nat := UInt64.size - 1

/-- The number that is the value of an option. -/
def number? (r : Reading) (name : OptionName) : Option Nat :=
  (r.value? name).bind fun value => (Text.parseNatural numberBound value.toList).toOption

/-- Takes an option in. -/
def give (r : Reading) (o : OptionForm) (value : String) : Except Stop Reading :=
  match o.name with
  | .help => .error .help
  | .version => .error .version
  | name =>
    if r.has name && !o.repeatable then .error (.fault (.repeatedOption o))
    else if o.value = .number && (Text.parseNatural numberBound value.toList).toOption.isNone then
      .error (.fault (.invalidNumber o value))
    else .ok { r with options := r.options ++ [(name, value)] }

end Reading

/-- Which arguments a command takes. -/
structure Form where
  /-- Its options. -/
  options : List OptionForm
  /-- The most positional arguments it takes, if there is a limit. -/
  positionals : Option Nat
  /-- The positional arguments that end the reading, since they name a command. -/
  commands : List String
  deriving DecidableEq, Repr

namespace Form

/-- The option behind two hyphens. -/
def long? (f : Form) (name : List Char) : Option OptionForm :=
  f.options.find? fun o => o.long.map String.toList == some name

/-- The option behind one hyphen. -/
def short? (f : Form) (c : Char) : Option OptionForm :=
  f.options.find? fun o => o.short == some c

/-- Takes a positional argument in. -/
def position (f : Form) (r : Reading) (argument : String) : Except Stop Reading :=
  match f.positionals with
  | some limit =>
    if r.positionals.length < limit then
      .ok { r with positionals := r.positionals ++ [argument] }
    else .error (.fault (.unexpectedArgument argument))
  | none => .ok { r with positionals := r.positionals ++ [argument] }

/-- Cuts a text at its first equals sign. -/
def cutValue (text : List Char) : List Char × Option String :=
  match text.dropWhile (· ≠ '=') with
  | [] => (text, none)
  | _ :: value => (text.takeWhile (· ≠ '='), some (String.ofList value))

/-- Reads what stands behind two hyphens. An option that waits for its value is given back. -/
def readLong (f : Form) (r : Reading) (text : List Char) :
    Except Stop (Reading × Option OptionForm) :=
  let (name, value) := cutValue text
  match f.long? name with
  | none => .error (.fault (.unexpectedArgument (String.ofList ('-' :: '-' :: text))))
  | some o =>
    match value with
    | some value =>
      if o.value = .nothing then .error (.fault (.unexpectedValue o))
      else (r.give o value).map (·, none)
    | none => if o.value = .nothing then (r.give o "").map (·, none) else .ok (r, some o)

/-- Reads what stands behind one hyphen: options without values, and at the end perhaps one with
its value. An option that waits for its value is given back. -/
def readShort (f : Form) : Reading → List Char → Except Stop (Reading × Option OptionForm)
  | r, [] => .ok (r, none)
  | r, c :: rest =>
    match f.short? c with
    | none => .error (.fault (.unexpectedArgument (String.ofList ['-', c])))
    | some o =>
      if o.value = .nothing then do readShort f (← r.give o "") rest
      else
        match rest with
        | [] => .ok (r, some o)
        | '=' :: value => (r.give o (String.ofList value)).map (·, none)
        | value => (r.give o (String.ofList value)).map (·, none)

/-- The argument has the shape of an option. -/
def looksLikeOption (argument : List Char) : Bool :=
  match argument with
  | '-' :: _ :: _ => true
  | _ => false

/-- Reads arguments, of which the first may be the value of an option that waits for it. What
follows from the name of a command on is given back. -/
def readFrom (f : Form) : Option OptionForm → Reading → List String →
    Except Stop (Reading × List String)
  | none, r, [] => .ok (r, [])
  | some o, _, [] => .error (.fault (.missingValue o))
  | some o, r, value :: rest =>
    if looksLikeOption value.toList then .error (.fault (.missingValue o))
    else do readFrom f none (← r.give o value) rest
  | none, r, argument :: rest =>
    if argument ∈ f.commands then .ok (r, argument :: rest)
    else
      match argument.toList with
      | ['-', '-'] => (rest.foldlM f.position r).map (·, [])
      | '-' :: '-' :: text => do
        let (r, waiting) ← f.readLong r text
        readFrom f waiting r rest
      | '-' :: c :: cs => do
        let (r, waiting) ← f.readShort r (c :: cs)
        readFrom f waiting r rest
      | _ => do readFrom f none (← f.position r argument) rest

/-- Reads arguments. What follows from the name of a command on is given back. -/
def read (f : Form) (arguments : List String) : Except Stop (Reading × List String) :=
  f.readFrom none .empty arguments

end Form

end UnitLoader.CommandLine
