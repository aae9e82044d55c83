import UnitLoader.Text.Duration

/-!
# Compilers

A compiler is described by what it does when it is run: it tells its version, it tells the platform
it compiles for, and it compiles. `Compilation` is one such run, from its messages to its end.
-/

namespace UnitLoader

open Text (Duration)

/-- How a program ends. -/
inductive Ending where
  /-- It returns an exit status. -/
  | exited (status : Nat)
  /-- A signal kills it. -/
  | signalled (signal : Nat)
  deriving DecidableEq, Repr

namespace Ending

/-- The names of the signals that kill a program. -/
def signalNames : List (Nat × String) :=
  [(1, "SIGHUP"), (2, "SIGINT"), (3, "SIGQUIT"), (4, "SIGILL"), (5, "SIGTRAP"), (6, "SIGABRT"),
    (7, "SIGBUS"), (8, "SIGFPE"), (9, "SIGKILL"), (10, "SIGUSR1"), (11, "SIGSEGV"),
    (12, "SIGUSR2"), (13, "SIGPIPE"), (14, "SIGALRM"), (15, "SIGTERM"), (16, "SIGSTKFLT"),
    (24, "SIGXCPU"), (25, "SIGXFSZ"), (26, "SIGVTALRM"), (27, "SIGPROF"), (29, "SIGIO"),
    (30, "SIGPWR"), (31, "SIGSYS")]

/-- The program did its work. -/
def isSuccess (e : Ending) : Bool := e == .exited 0

/-- The text of an ending. -/
def text : Ending → String
  | .exited status => "exit status: " ++ toString status
  | .signalled signal =>
    match signalNames.lookup signal with
    | some name => "signal: " ++ toString signal ++ " (" ++ name ++ ")"
    | none => "signal: " ++ toString signal

end Ending

/-- What a program prints, and how it ends. -/
structure ProgramOutput where
  /-- What it prints. -/
  bytes : List UInt8
  /-- How it ends. -/
  ending : Ending
  deriving DecidableEq, Repr

/-- What a compiler is given. -/
structure Invocation where
  /-- The arguments. -/
  arguments : List String
  /-- The source text. -/
  input : List Char
  /-- The directory for files of its own. -/
  scratch : String
  deriving DecidableEq, Repr

/-- One run of a compiler. It comes to its end if it is left alone for long enough. -/
structure Compilation where
  /-- It reads the source text. -/
  readsInput : Bool
  /-- What it writes to its log. -/
  log : List UInt8
  /-- What it links, if it gets so far. -/
  artifact : Option (List UInt8)
  /-- How it ends. -/
  ending : Ending
  /-- The shortest time limit within which it ends. -/
  takes : Duration
  deriving DecidableEq, Repr

/-- A compiler. -/
structure Compiler where
  /-- What it does when it is asked for its version. -/
  version : ProgramOutput
  /-- What it prints when it is asked for the platform. -/
  platform : List UInt8
  /-- What it does with a source text. -/
  compile : Invocation → Compilation

/-- The argument behind the first one that names the output. -/
def Invocation.outputPath? (i : Invocation) : Option String :=
  (i.arguments.dropWhile (· ≠ "-o")).tail.head?

end UnitLoader
