import UnitLoader.Diagnostic.Basic
import UnitLoader.Library.Basic
import UnitLoader.Text.Utf8

/-!
# What a command shows

A command writes its result to the standard output, and progress, diagnostics and errors to the
error output. The code of the libraries that it loads runs in the same process and may write to both
as well, so an output is made of passages, each of which is known by whose it is. This module holds
them and the wording and the colours of what the program writes.
-/

namespace UnitLoader.CommandLine

/-- A part of what stands on an output. -/
inductive Passage where
  /-- A text that the program wrote itself. -/
  | own (text : String)
  /-- Bytes that the code of a library wrote. -/
  | loaded (bytes : List UInt8)
  deriving DecidableEq, Repr

namespace Passage

/-- What the program wrote of a passage. -/
def ownText : Passage → String
  | own text => text
  | loaded _ => ""

/-- The bytes of a passage. -/
def bytes : Passage → List UInt8
  | own text => Text.Utf8.encode text.toList
  | loaded bytes => bytes

/-- The passages of bytes that the code of libraries wrote. -/
def ofLoaded (bytes : List UInt8) : List Passage :=
  if bytes = [] then [] else [.loaded bytes]

end Passage

/-- The texts that the program itself wrote to the two outputs. -/
structure Texts where
  /-- To the standard output. -/
  out : String
  /-- To the error output. -/
  err : String
  deriving DecidableEq, Repr

/-- What was written to the two outputs. -/
structure Screen where
  /-- The standard output. -/
  out : List Passage
  /-- The error output. -/
  err : List Passage
  deriving DecidableEq, Repr

namespace Screen

/-- Nothing is written. -/
def empty : Screen := ⟨[], []⟩

/-- Writes to the standard output. -/
def print (s : Screen) (text : String) : Screen := { s with out := s.out ++ [.own text] }

/-- Writes to the error output. -/
def warn (s : Screen) (text : String) : Screen := { s with err := s.err ++ [.own text] }

/-- Shows what the code of libraries wrote. -/
def load (s : Screen) (written : Written) : Screen :=
  ⟨s.out ++ Passage.ofLoaded written.out, s.err ++ Passage.ofLoaded written.err⟩

/-- What the program itself wrote of it. -/
def own (s : Screen) : Texts :=
  ⟨String.join (s.out.map Passage.ownText), String.join (s.err.map Passage.ownText)⟩

end Screen

/-- The ways in which a text can stand out. -/
inductive Style where
  | bold
  | dim
  | green
  | yellow
  | cyan
  deriving DecidableEq, Repr

/-- What switches a style on. -/
def Style.code : Style → String
  | .bold => "\x1b[1m"
  | .dim => "\x1b[2m"
  | .green => "\x1b[32m"
  | .yellow => "\x1b[33m"
  | .cyan => "\x1b[36m"

/-- What ends every style. -/
def plainCode : String := "\x1b[0m"

/-- A text in a style. -/
def Style.apply (s : Style) (text : String) : String := s.code ++ text ++ plainCode

/-- How long the steps of a command took, in figures. -/
structure Times where
  /-- The seconds since the command started. -/
  seconds : String
  /-- The milliseconds of the compilation. -/
  milliseconds : String
  deriving DecidableEq, Repr

/-- A line that says what is done. -/
def progressLine (verb rest : String) : String := Style.green.apply verb ++ " " ++ rest ++ "\n"

/-- How a diagnostic is shown: as the compiler prints it, provided that it points somewhere. -/
def shownDiagnostic (d : Diagnostic) : String :=
  match d.rendered, d.location with
  | some text, some _ => text
  | _, _ => d.terminal

/-- How diagnostics are shown. -/
def shownDiagnostics (diagnostics : List Diagnostic) : String :=
  String.join (diagnostics.map shownDiagnostic)

/-- The line that lists an operation. A star marks one that needs no instance. -/
def operationLine (o : Operation) : String :=
  "  " ++ Style.cyan.apply (if o.needsInstance then " " else "*") ++ " " ++ o.signature ++ "\n"

/-- The lines that list the operations of a type. -/
def operationLines (typeName : String) (operations : List Operation) : String :=
  Style.bold.apply typeName ++ "\n" ++
    if operations.isEmpty then "  " ++ Style.dim.apply "(no invocable operations)" ++ "\n"
    else String.join (operations.map operationLine)

/-- The line on a type whose operations cannot be called. -/
def notExposedLine : String :=
  "  " ++ Style.yellow.apply "generic or unparsable: operations are not exposed" ++ "\n"

/-- What stands in front of the lines of a cause behind its first one. -/
def causeIndent (numbered : Bool) : String := if numbered then "       " else "    "

/-- What stands in front of a cause. -/
def causeLabel (numbered : Bool) (index : Nat) : String :=
  if numbered then
    let digits := toString index
    String.ofList (List.replicate (5 - digits.length) ' ') ++ digits ++ ": "
  else "    "

/-- A cause under its label, with its further lines indented. -/
def causeText (numbered : Bool) (index : Nat) (cause : String) : String :=
  causeLabel numbered index ++
    String.ofList (cause.toList.flatMap fun c =>
      if c = '\n' then '\n' :: (causeIndent numbered).toList else [c])

/-- The causes of an error, one below the other. -/
def causesText (causes : List String) : String :=
  if causes.isEmpty then ""
  else "\n\nCaused by:" ++ String.join (causes.mapIdx fun index cause =>
    "\n" ++ causeText (1 < causes.length) index cause)

/-- The report of an error with its causes. -/
def errorReport (message : String) (causes : List String) : String :=
  "Error: " ++ message ++ causesText causes ++ "\n"

end UnitLoader.CommandLine
