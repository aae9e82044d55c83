import UnitLoader.Dispatch.Basic
import UnitLoader.Namespace
import UnitLoader.World

/-!
# Engines

An engine compiles units and loads them. It owns a configuration, a namespace, and what it found
out about the compiler, and it works in a `World`. An `Action` is a step of an engine: it may change
the engine and its surroundings, it tells of its work in a log, and it may fail. What a failing
action changed before it failed stays changed.
-/

namespace UnitLoader

/-- A compiler that was found and told its version. -/
structure Toolchain where
  /-- The path of the compiler. -/
  path : String
  /-- The version that it told. -/
  version : String
  deriving DecidableEq, Repr

/-- An engine. -/
structure Engine where
  /-- The configuration. -/
  config : Config
  /-- The namespace. -/
  loader : Namespace
  /-- The compiler, or why there is none, once it was searched for. -/
  toolchain : Option (Except String Toolchain)

namespace Engine

/-- An engine that has done nothing yet. -/
def new (config : Config) : Engine := ⟨config, .empty config.policy, none⟩

/-- What a process used up so far. -/
structure Usage where
  /-- The number of draws for new names. -/
  drawn : Nat
  /-- The number of images that were opened. -/
  opened : Nat
  deriving DecidableEq, Repr

namespace Usage

/-- A process that has just started. -/
def fresh : Usage := ⟨0, 0⟩

/-- Opens one more image. -/
def openImage (u : Usage) : Usage := { u with opened := u.opened + 1 }

end Usage

/-- What an action works on. -/
structure State where
  /-- The engine. -/
  engine : Engine
  /-- Its surroundings. -/
  world : World
  /-- What was told so far. -/
  log : List LogLine
  /-- What the process used up. -/
  usage : Usage

/-- Why an action fails. -/
inductive Failure where
  /-- For a cause that is reported. -/
  | error (e : Error)
  /-- The name of a unit cannot be written in its dispatch module. -/
  | unwritable (fault : Dispatch.NameFault)
  deriving DecidableEq, Repr

/-- A step of an engine. -/
abbrev Action (α : Type) := EStateM Failure State α

namespace Action

variable {α : Type}

/-- Tells something. -/
def tell (lines : List LogLine) : Action Unit :=
  modify fun s => { s with log := s.log ++ lines }

/-- Fails for a cause that is reported. -/
def fail (e : Error) : Action α := throw (.error e)

/-- The value, or failure for the cause that stands in its place. -/
def ofExcept : Except Error α → Action α
  | .ok a => pure a
  | .error e => fail e

/-- What the file system gives, or failure for its refusal. -/
def ofFiles : Except FileFault α → Action α
  | .ok a => pure a
  | .error fault => fail (.io fault)

/-- The outcome of an action that does not fail any more. -/
def attempt (a : Action α) : Action (Except Failure α) := fun s =>
  match a s with
  | .ok value s => .ok (.ok value) s
  | .error failure s => .ok (.error failure) s

/-- Changes the engine. -/
def modifyEngine (f : Engine → Engine) : Action Unit :=
  modify fun s => { s with engine := f s.engine }

/-- Changes the surroundings. -/
def modifyWorld (f : World → World) : Action Unit :=
  modify fun s => { s with world := f s.world }

/-- Uses something of the process up. -/
def modifyUsage (f : Usage → Usage) : Action Unit :=
  modify fun s => { s with usage := f s.usage }

/-- Changes the namespace. -/
def modifyLoader (f : Namespace → Namespace) : Action Unit :=
  modifyEngine fun e => { e with loader := f e.loader }

/-- Runs a step of the namespace, which may change it also where it fails. -/
def ofLoader (step : Namespace → Except Error α × Namespace) : Action α := do
  let (outcome, after) := step (← get).engine.loader
  modifyLoader fun _ => after
  ofExcept outcome

/-- Changes the files. -/
def setFiles (files : Files) : Action Unit := modifyWorld fun w => { w with files }

/-- Changes the files, also where the file system refuses a part of it. -/
def changeFiles (step : Files → Except FileFault Unit × Files) : Action Unit := do
  let (outcome, after) := step (← get).world.files
  setFiles after
  ofFiles outcome

/-- Keeps a call of a compiler. -/
def called (call : CompilerCall) : Action Unit :=
  modifyWorld fun w => { w with calls := call :: w.calls }

end Action

open UnitLoader.Engine.Action

/-- Registers an artifact. -/
def register (a : Artifact) : Action Unit := do
  tell (← ofLoader (·.register a))

/-- The library that is opened when a name is loaded, if one is. -/
def State.opens? (s : State) (name : String) : Option Library :=
  s.engine.loader.opens? s.world.images name

/-- What is used up when a name is loaded: one more image, if one is opened, whether its library can
be used or not. -/
def State.usageOf (s : State) (name : String) : Usage :=
  if (s.opens? name).isSome then s.usage.openImage else s.usage

/-- Loads a name. -/
def load (name : String) : Action Handle := do
  let s ← get
  -- An image is opened whatever comes of it, so it counts even if the load fails.
  modifyUsage fun _ => s.usageOf name
  let loading ← ofLoader
    (·.load s.world.images (s.world.causes s.usage.opened) s.world.memory name)
  modifyWorld fun w => { w with memory := loading.memory }
  tell loading.log
  return loading.handle

/-- The archive in a file. -/
def openArchive (location : String) : Action Archive := do
  ofExcept (Archive.ofFile location ((← get).world.files.read location))

/-- Searches the archive in a file behind all others. -/
def appendArchive (location : String) : Action Unit := do
  let archive ← openArchive location
  let (after, log) := (← get).engine.loader.append archive
  modifyLoader fun _ => after
  tell log

/-- Writes entries as an archive into a file. -/
def writeArchive (location : String) (entries : List Archive.Entry) : Action Unit := do
  let s ← get
  setFiles (← ofFiles (s.world.files.write location (Archive.encodeFile entries)))

/-- Writes every registered artifact into an archive and gives their number. -/
def exportArchive (location : String) : Action Nat := do
  let artifacts := (← get).engine.loader.artifacts
  writeArchive location (artifacts.map fun a => ⟨a.name, a.bytes⟩)
  return artifacts.length

end Engine

end UnitLoader
