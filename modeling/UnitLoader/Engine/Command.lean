import UnitLoader.Engine.Compile

/-!
# Commands and requests

What an engine is used for, as data: a `Command` is what it can be told to do, and a `Request` adds
the two questions that it answers about its compiler. `Request.runWith` is what a request does once
the compiler is found.
-/

namespace UnitLoader.Engine

open UnitLoader.Engine.Action
open Text (Duration)

/-- What an engine can be told to do. -/
inductive Command where
  /-- To register an artifact. -/
  | register (a : Artifact)
  /-- To put an artifact into the registry, whatever is loaded. -/
  | insert (a : Artifact)
  /-- To take a name out of the registry. -/
  | unregister (name : String)
  /-- To take every name out of the registry. -/
  | clear
  /-- To search the archive in a file behind all others. -/
  | append (location : String)
  /-- To search a source behind all others. -/
  | push (source : Source)
  /-- To load a name. -/
  | load (name : String)
  /-- To compile a source as the definition of a name. -/
  | compile (name source : String) (options : OptionSet)
  /-- The same, within a time limit. -/
  | compileWithin (name source : String) (options : OptionSet) (limit : Option Duration)
  /-- To compile a source under the name that it declares, and to load that name. -/
  | compileAndLoad (source : String) (options : OptionSet)
  /-- To write every registered artifact into an archive. -/
  | exportTo (location : String)

/-- What a command comes back with. -/
inductive Answer where
  /-- It is done. -/
  | done
  /-- A handle. -/
  | loaded (handle : Handle)
  /-- What comes of a compilation. -/
  | compiled (compiled : Compiled)
  /-- The number of artifacts that were written. -/
  | exported (count : Nat)

namespace Command

/-- Does what the engine is told. -/
def run : Command → Action Answer
  | .register a => do Engine.register a; return .done
  | .insert a => do modifyLoader fun n => n.insert a; return .done
  | .unregister name => do modifyLoader fun n => n.unregister name; return .done
  | .clear => do modifyLoader Namespace.clear; return .done
  | .append location => do appendArchive location; return .done
  | .push source => do modifyLoader fun n => n.push source; return .done
  | .load name => do return .loaded (← Engine.load name)
  | .compile name source options => do return .compiled (← Engine.compile name source options)
  | .compileWithin name source options limit => do
    return .compiled (← Engine.compileWithin name source options limit)
  | .compileAndLoad source options => do return .loaded (← Engine.compileAndLoad source options)
  | .exportTo location => do return .exported (← exportArchive location)

/-- The name that a command loads. -/
def target? : Command → Option String
  | .load name => some name
  | .compileAndLoad source _ => (resolveName source).toOption
  | _ => none

end Command

/-- What an engine can be asked for. -/
inductive Request where
  /-- To do what it is told. -/
  | command (c : Command)
  /-- Its compiler. -/
  | toolchain
  /-- The platform that its compiler compiles for. -/
  | platform

/-- What a request comes back with. -/
inductive Reply where
  /-- What a command comes back with. -/
  | answered (answer : Answer)
  /-- The compiler. -/
  | found (t : Toolchain)
  /-- The platform. -/
  | compilesFor (name : String)

namespace Request

/-- Does what is asked for. -/
def run : Request → Action Reply
  | .command c => do return .answered (← c.run)
  | .toolchain => do return .found (← requireToolchain)
  | .platform => do return .compilesFor (← Engine.platform (← requireToolchain))

/-- The request needs the compiler. A source that declares no name is not compiled. -/
def asks : Request → Bool
  | .command (.compile _ _ _) | .command (.compileWithin _ _ _ _) => true
  | .command (.compileAndLoad source _) => (resolveName source).toOption.isSome
  | .command _ => false
  | .toolchain | .platform => true

/-- What a request does once it has the compiler. -/
def runWith (t : Toolchain) : Request → Action Reply
  | .command (.compile name source options) => do
    let limit := (← get).engine.config.timeout
    return .answered (.compiled (← compileWith name source options limit t))
  | .command (.compileWithin name source options limit) => do
    return .answered (.compiled (← compileWith name source options limit t))
  | .command (.compileAndLoad source options) => do
    let name ← ofExcept (resolveName source)
    let limit := (← get).engine.config.timeout
    discard (compileWith name source options limit t)
    return .answered (.loaded (← Engine.load name))
  | .command c => do return .answered (← c.run)
  | .toolchain => return .found t
  | .platform => do return .compilesFor (← Engine.platform t)

end Request

end UnitLoader.Engine
