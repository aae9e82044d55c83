import UnitLoader.Config
import UnitLoader.Draws
import UnitLoader.Files
import UnitLoader.Memory

/-!
# The surroundings of an engine

What an engine works in and does not own: files, environment variables, the bytes that can be
loaded, and what memory holds. The calls of compilers are kept, since they are seen from
outside.

Files and variables are there for all processes. The rest belongs to the one in which the engine
works: what a library does, what the system says of bytes that it cannot load, and what is drawn for
new names may all be different in another process.
-/

namespace UnitLoader

/-- A call of a compiler. -/
inductive CompilerCall where
  /-- It was asked for its version. -/
  | version (path : String)
  /-- It was asked for its platform. -/
  | platform (path : String)
  /-- It was given a source text and did this. -/
  | compile (path : String) (invocation : Invocation) (run : Compilation)
  deriving DecidableEq, Repr

/-- The surroundings of an engine. -/
structure World where
  /-- The files. -/
  files : Files
  /-- The environment variables. -/
  environment : Environment
  /-- The library that bytes are, if they are one. -/
  images : List UInt8 → Option Library
  /-- What the system's loader and the reader of manifests say of a fault in bytes, when so many
  images were opened before. -/
  causes : Nat → List UInt8 → LoadFault → String
  /-- What is drawn for new names. -/
  draws : Draws
  /-- What memory holds. -/
  memory : Memory
  /-- The calls of compilers, the latest first. -/
  calls : List CompilerCall

/-- The variable that lists the directories of programs. -/
def searchVariable : String := "PATH"

/-- The directories of programs. -/
def World.searchPath (w : World) : Option String := w.environment.get? searchVariable

end UnitLoader
