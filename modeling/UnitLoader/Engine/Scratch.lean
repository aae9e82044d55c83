import UnitLoader.Engine.Basic

/-!
# Scratch directories

A compiler writes to files, so every compilation has a directory of its own, which is gone when the
compilation ends. What the compiler links there is read back into memory and registered.
-/

namespace UnitLoader.Engine

open UnitLoader.Engine.Action

/-- A directory for one compilation. -/
structure Scratch where
  /-- Its path. -/
  path : String
  deriving DecidableEq, Repr

namespace Scratch

/-- What the name of every scratch directory starts with. -/
def namePrefix : String := "hotload-"

/-- The directory that holds scratch directories if none is configured. -/
def systemDirectory : String := "/tmp"

/-- Where the artifact of a unit is linked. -/
def artifactPath (s : Scratch) (u : SourceUnit) : String := Files.join s.path u.libraryName

/-- The name of the file for what the compiler says of a unit. -/
def logName (u : SourceUnit) : String := u.crateName ++ ".stderr"

/-- Where the compiler's messages on a unit are kept. -/
def logPath (s : Scratch) (u : SourceUnit) : String := Files.join s.path (logName u)

/-- A name for a scratch directory that is not taken. -/
def newName (taken : List String) : Action String := do
  let s ← get
  match s.world.draws.free? namePrefix taken Draws.tries s.usage.drawn with
  | none =>
    modifyUsage fun u => { u with drawn := u.drawn + Draws.tries }
    fail (.io (.other "too many temporary files exist"))
  | some (name, drawn) =>
    modifyUsage fun u => { u with drawn }
    return name

/-- Makes a scratch directory in a directory. -/
def makeIn (directory : String) : Action Scratch := do
  let files := (← get).world.files
  let name ← newName ((files.listing (if directory = "" then "." else directory)).getD [])
  let scratch : Scratch := ⟨Files.join directory name⟩
  setFiles (← ofFiles (files.makeDirectory scratch.path))
  return scratch

/-- Makes a scratch directory below a root, which is made if it is missing, or else in the
system's place for them. -/
def makeBelow : (scratchRoot : Option String) → Action Scratch
  | none => makeIn systemDirectory
  | some root => do
    changeFiles (·.makeDirectories root)
    makeIn root

/-- Makes a scratch directory for an engine. -/
def make : Action Scratch := do makeBelow (← get).engine.config.scratchRoot

/-- Takes a scratch directory away with all it holds. -/
def discard (s : Scratch) : Action Unit := modifyWorld fun w =>
  match w.files.resolve s.path with
  | .ok place => { w with files := w.files.remove place }
  -- It is gone already.
  | .error _ => w

/-- Runs an action with a scratch directory, which is gone afterwards even if the action fails. -/
def during {α : Type} (body : Scratch → Action α) : Action α := do
  let scratch ← make
  let outcome ← attempt (body scratch)
  scratch.discard
  match outcome with
  | .ok value => return value
  | .error failure => throw failure

/-- Writes a file. -/
def writeFile (path : String) (bytes : List UInt8) : Action Unit := do
  setFiles (← ofFiles ((← get).world.files.write path bytes))

end Scratch

/-- What a compiler produces. -/
inductive OutputKind where
  | artifact
  | diagnostics
  | other
  deriving DecidableEq, Repr

/-- An output of this kind is kept in memory. -/
def OutputKind.isCaptured (k : OutputKind) : Bool := k == .artifact

/-- An artifact that is being written. -/
structure ArtifactWriter where
  /-- The name that it will define. -/
  name : String
  /-- The bytes so far. -/
  buffer : List UInt8
  deriving DecidableEq, Repr

namespace ArtifactWriter

/-- Nothing is written yet. -/
def new (name : String) : ArtifactWriter := ⟨name, []⟩

/-- Writes further bytes. -/
def write (w : ArtifactWriter) (bytes : List UInt8) : ArtifactWriter :=
  { w with buffer := w.buffer ++ bytes }

/-- Ends the artifact and registers it. -/
def close (w : ArtifactWriter) : Action Artifact := do
  let artifact : Artifact := ⟨w.name, w.buffer⟩
  register artifact
  return artifact

end ArtifactWriter

/-- Registers the artifact that was linked for a unit. -/
def Scratch.capture (s : Scratch) (u : SourceUnit) : Action Artifact := do
  let bytes ← ofFiles ((← get).world.files.read (s.artifactPath u))
  ((ArtifactWriter.new u.name).write bytes).close

end UnitLoader.Engine
