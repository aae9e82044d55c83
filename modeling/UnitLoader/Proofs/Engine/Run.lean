import UnitLoader.Engine.Command
import UnitLoader.Proofs.Engine.Compile
import UnitLoader.Proofs.Memory

/-!
# Runs of an engine

A run is a list of events: the engine is given a command, or its surroundings change without it. A
command that fails is an event like any other. Of what happens between commands only this is known:
memory does not forget a loaded type (`Memory.Grows`).

`ensures_command` says what one command can do to the load slots and to memory: no command but a
load touches them, a load that fails does not touch them either, and one that succeeds gives what
the slot of its name holds or fills it with a new type. `tidy_run` follows for all runs.
-/

namespace UnitLoader.Engine

open UnitLoader.Engine.Action
open Text (Duration)

/-! ## Events -/

/-- A change of the surroundings that the engine has no part in. -/
structure Change where
  /-- The surroundings afterwards. -/
  apply : World → World
  /-- Memory does not forget a loaded type. -/
  grows : ∀ w : World, w.memory.Grows (apply w).memory

/-- What happens in a run. -/
inductive Event where
  /-- The engine is given a command. -/
  | command (c : Command)
  /-- Its surroundings change. -/
  | change (c : Change)

/-- The state that an action ends in, whether it fails or not. -/
def endOf {α : Type} : EStateM.Result Failure State α → State
  | .ok _ s => s
  | .error _ s => s

/-- The state after an event. -/
def Event.after (s : State) : Event → State
  | .command c => endOf (c.run s)
  | .change c => { s with world := c.apply s.world }

/-- A load that gave a handle. -/
structure Arrival where
  /-- The name that was loaded. -/
  name : String
  /-- The handle. -/
  handle : Handle
  /-- The handle stood for no type before. -/
  isNew : Bool
  deriving DecidableEq, Repr

/-- The arrival that an event is, if it is one. -/
def Event.arrival? (s : State) : Event → Option Arrival
  | .change _ => none
  | .command c =>
    match c.run s with
    | .ok (.loaded handle) _ =>
      c.target?.map fun name => ⟨name, handle, (s.world.memory.type? handle).isNone⟩
    | _ => none

/-- An engine that has done nothing yet. -/
def start (config : Config) (world : World) (log : List LogLine) : State :=
  ⟨.new config, world, log, .fresh⟩

/-- The state after events. -/
def runFrom (s : State) (events : List Event) : State := events.foldl Event.after s

/-! ## What a command does to slots and memory -/

/-- A load of a name gave the handle in its slot, and the slots and memory are as they were. -/
structure LoadedAgain (n : Namespace) (m : Memory) (name : String) (handle : Handle)
    (n' : Namespace) (m' : Memory) : Prop where
  /-- The handle was in the slot. -/
  cached : n.handle? name = some handle
  /-- No slot is changed. -/
  slots : n'.slots = n.slots
  /-- Memory is not changed. -/
  memory : m' = m

/-- A load of a name filled its slot with the handle of a new type of the name. -/
structure LoadedAnew (n : Namespace) (m : Memory) (name : String) (handle : Handle)
    (n' : Namespace) (m' : Memory) : Prop where
  /-- The slot held nothing. -/
  empty : n.handle? name = none
  /-- It holds the handle. -/
  slots : n'.slots = n.slots.insert name (some handle)
  /-- The handle is that of a new type, which has the name and the current version. -/
  type : ∃ t, t.name = name ∧ t.manifest.abi = Manifest.currentAbi ∧
    handle = (m.add t).1 ∧ m' = (m.add t).2

/-- It depends on nothing but the slots whether a load finds its slot full. -/
theorem LoadedAgain.of_slots {n₁ n n' : Namespace} {m m' : Memory} {name : String} {handle : Handle}
    (h : LoadedAgain n₁ m name handle n' m') (hslots : n₁.slots = n.slots) :
    LoadedAgain n m name handle n' m' :=
  ⟨(Namespace.handle?_of_slots hslots name).symm.trans h.cached, h.slots.trans hslots, h.memory⟩

theorem LoadedAnew.of_slots {n₁ n n' : Namespace} {m m' : Memory} {name : String} {handle : Handle}
    (h : LoadedAnew n₁ m name handle n' m') (hslots : n₁.slots = n.slots) :
    LoadedAnew n m name handle n' m' :=
  ⟨(Namespace.handle?_of_slots hslots name).symm.trans h.empty, hslots ▸ h.slots, h.type⟩

/-- What a command that comes back with an answer did to slots and memory. -/
def Does (command : Command) (answer : Answer) (n : Namespace) (m : Memory) (n' : Namespace)
    (m' : Memory) : Prop :=
  match answer with
  | .loaded handle => ∃ name, command.target? = some name ∧
      (LoadedAgain n m name handle n' m' ∨ LoadedAnew n m name handle n' m')
  | _ => n'.slots = n.slots ∧ m' = m

/-- No slot is changed, and nothing of memory. -/
structure SlotsKept (n : Namespace) (w : World) (s : State) : Prop where
  /-- No slot is changed. -/
  slots : s.engine.loader.slots = n.slots
  /-- Memory is not changed. -/
  memory : s.world.memory = w.memory

section

variable {c : Config} {n : Namespace} {w : World}

theorem SlotsKept.and {s : State} (h : SlotsKept n w s) :
    s.engine.loader.slots = n.slots ∧ s.world.memory = w.memory := ⟨h.slots, h.memory⟩

theorem At.slotsKept {n' : Namespace} {w' : World} {s : State} (h : At c n' w' s)
    (hslots : n'.slots = n.slots) (hmemory : w'.memory = w.memory) : SlotsKept n w s :=
  ⟨h.loader ▸ hslots, h.world ▸ hmemory⟩

/-- A load is one of the namespace, and what memory and the log make of it. -/
theorem load_eq (name : String) (s : State) :
    load name s =
      match s.engine.loader.load s.world.images (s.world.causes s.usage.opened) s.world.memory
        name with
      | (.ok loading, after) =>
        .ok loading.handle
          { engine := { s.engine with loader := after }
            world := { s.world with memory := loading.memory }
            log := s.log ++ loading.log
            usage := s.usageOf name }
      | (.error e, after) =>
        .error (.error e)
          { s with engine := { s.engine with loader := after }, usage := s.usageOf name } := by
  generalize hcauses : s.world.causes s.usage.opened = causes
  generalize hloaded : s.engine.loader.load s.world.images causes s.world.memory name = loaded
  have hstep : ofLoader (·.load s.world.images causes s.world.memory name)
      { s with usage := s.usageOf name } =
      EStateM.bind (modifyLoader fun _ => loaded.2) (fun _ => ofExcept loaded.1)
        { s with usage := s.usageOf name } := by
    rw [← hloaded]
    rfl
  change EStateM.bind (ofLoader (·.load s.world.images (s.world.causes s.usage.opened)
    s.world.memory name)) _ { s with usage := s.usageOf name } = _
  rw [hcauses, EStateM.bind, hstep]
  rcases loaded with ⟨_ | _, _⟩ <;> rfl

/-- Nothing is used up for a name that is loaded already. -/
theorem State.usageOf_of_handle? {s : State} {name : String} {handle : Handle}
    (h : s.engine.loader.handle? name = some handle) : s.usageOf name = s.usage := by
  have hloaded : s.engine.loader.isLoaded name = true := by
    rw [Namespace.isLoaded, h]
    rfl
  unfold usageOf opens? Namespace.opens?
  rw [if_pos hloaded]
  rfl

/-- Nor for a name that nothing is found for. -/
theorem State.usageOf_of_find? {s : State} {name : String}
    (h : s.engine.loader.find? name = none) : s.usageOf name = s.usage := by
  have hnone : s.opens? name = none := by
    unfold opens? Namespace.opens?
    rw [h]
    exact ite_self none
  unfold usageOf
  rw [hnone]
  rfl

/-- A load gives the handle in the slot of its name; or, if the slot holds nothing, it either fails
and leaves everything as it was but what it used of the process, or fills the slot with a new type
of the bytes found for the name. -/
theorem load_cases {s : State} (h : s.engine.loader.Tidy) (name : String) :
    (∃ handle, s.engine.loader.handle? name = some handle ∧ load name s = .ok handle s) ∨
    (s.engine.loader.handle? name = none ∧
      ∃ e, s.engine.loader.Unloadable s.world.images (s.world.causes s.usage.opened) name e ∧
        load name s = .error (.error e) { s with usage := s.usageOf name }) ∨
    (s.engine.loader.handle? name = none ∧ ∃ origin bytes t log,
      s.engine.loader.find? name = some (origin, bytes) ∧
      LoadedType.load s.world.images name bytes = .ok t ∧
      load name s = .ok (s.world.memory.add t).1
        { engine := { s.engine with loader := { s.engine.loader with
            slots := s.engine.loader.slots.insert name (some (s.world.memory.add t).1) } }
          world := { s.world with memory := (s.world.memory.add t).2 }
          log := s.log ++ log
          usage := s.usageOf name }) := by
  rw [load_eq]
  rcases Namespace.load_cases h s.world.images (s.world.causes s.usage.opened) s.world.memory
      name with
    ⟨handle, hcached, heq⟩ | ⟨hempty, e, hfault, heq⟩ |
    ⟨hempty, origin, bytes, t, log, hfind, htype, heq⟩
  · refine .inl ⟨handle, hcached, ?_⟩
    rw [heq, s.usageOf_of_handle? hcached]
    dsimp only
    rw [List.append_nil]
  · refine .inr (.inl ⟨hempty, e, hfault, ?_⟩)
    rw [heq]
  · refine .inr (.inr ⟨hempty, origin, bytes, t, log, hfind, htype, ?_⟩)
    rw [heq]

/-- In short: if it fails, everything is as it was. -/
theorem ensures_load (hn : n.Tidy) (name : String) :
    Ensures (At c n w) (load name)
      (fun handle s => ∃ n' m', (LoadedAgain n w.memory name handle n' m' ∨
        LoadedAnew n w.memory name handle n' m') ∧ At c n' { w with memory := m' } s)
      (fun _ => At c n w) := by
  rintro s ⟨rfl, rfl, rfl⟩
  rcases load_cases hn name with ⟨handle, hcached, hrun⟩ | ⟨-, e, -, hrun⟩ |
    ⟨hempty, origin, bytes, t, log, -, htype, hrun⟩
  · rw [hrun]
    exact ⟨_, _, .inl ⟨hcached, rfl, rfl⟩, at_self s⟩
  · rw [hrun]
    exact ⟨rfl, rfl, rfl⟩
  · rw [hrun]
    obtain ⟨hname, habi⟩ := LoadedType.load_eq_ok htype
    exact ⟨_, _, .inr ⟨hempty, rfl, t, hname, habi, rfl, rfl⟩, rfl, rfl, rfl⟩

/-- The archive in a file is searched behind the others, or there is none in it and nothing is
changed. -/
theorem ensures_appendArchive (location : String) :
    Ensures (At c n w) (appendArchive location)
      (fun _ s => ∃ archive, Archive.ofFile location (w.files.read location) = .ok archive ∧
        At c { n with archives := n.archives ++ [archive] } w s)
      (fun _ s => ∃ e, Archive.ofFile location (w.files.read location) = .error e ∧
        At c n w s) := by
  have hopen : Ensures (At c n w) (openArchive location)
      (fun archive s => Archive.ofFile location (w.files.read location) = .ok archive ∧ At c n w s)
      (fun _ s => ∃ e, Archive.ofFile location (w.files.read location) = .error e ∧ At c n w s) :=
    ensures_get fun s hs => by
      rw [hs.world]
      exact ensures_ofExcept fun e s he hs => ⟨e, he, hs⟩
  refine hopen.bind fun archive => ensures_and fun harchive => ensures_get fun s hs => ?_
  rw [hs.loader]
  refine (ensures_modifyLoader _).bind fun _ => ?_
  exact (ensures_tell _).mono_ok fun _ s hs => ⟨archive, harchive, hs⟩

/-- An archive is written, or it cannot be written and nothing is changed. -/
theorem ensures_exportArchive (location : String) :
    Ensures (At c n w) (exportArchive location)
      (fun _ s => ∃ files, At c n { w with files } s) (fun _ => At c n w) := by
  refine ensures_get fun s hs => Ensures.bind ?_ fun _ => ensures_pure fun s hs => hs
  refine ensures_get fun s hs => (ensures_ofFiles fun _ s _ hs => hs).bind fun files =>
    ensures_and fun _ => ?_
  exact (ensures_setFiles files).mono_ok fun _ s hs => ⟨files, hs⟩

/-- A compilation within the time limit of the engine is one within some time limit. -/
theorem ensures_compile (hn : n.Tidy) (name source : String) (options : OptionSet) :
    Ensures (At c n w) (compile name source options) (CompiledAt c n w name)
      (fun _ s => ∃ calls, LeftAt c n { w with calls } s) :=
  ensures_get fun _ _ => ensures_compileWithin hn name source options _

/-- What comes of compiling and loading a source: the name is read off it, the source is compiled,
and the name is loaded, unless a step before fails. -/
theorem compileAndLoad_eq (source : String) (options : OptionSet) (s : State) :
    compileAndLoad source options s =
      match resolveName source with
      | .error e => .error (.error e) s
      | .ok name =>
        match compile name source options s with
        | .error e s' => .error e s'
        | .ok _ s' => load name s' := by
  unfold compileAndLoad
  cases resolveName source with
  | error e => rfl
  | ok name =>
    change EStateM.bind (EStateM.map _ (compile name source options)) _ s = _
    unfold EStateM.bind EStateM.map
    dsimp only
    cases compile name source options s <;> rfl

/-- A source that is compiled and loaded is loaded under the name that it declares, or the slots and
memory are as they were. -/
theorem ensures_compileAndLoad (hn : n.Tidy) (source : String) (options : OptionSet) :
    Ensures (At c n w) (compileAndLoad source options)
      (fun handle s => ∃ name n' w', resolveName source = .ok name ∧
        (LoadedAgain n w.memory name handle n' w'.memory ∨
          LoadedAnew n w.memory name handle n' w'.memory) ∧ At c n' w' s)
      (fun _ => SlotsKept n w) := by
  refine (ensures_ofExcept fun _ s _ hs => hs.slotsKept rfl rfl).bind fun name =>
    ensures_and fun hname => ?_
  refine ((ensures_compile hn name source options).mono_error fun _ s ⟨calls, f', _, hs⟩ =>
    hs.slotsKept rfl rfl).discard.bind fun _ => ensures_exists fun compiled => ?_
  refine ensures_exists fun after => ensures_exists fun calls => ensures_and fun hregisters =>
    ensures_exists fun f' => ensures_and fun _ => ?_
  -- What was compiled stands in no slot, so the load finds the slots that there were.
  have hslots := hregisters.slots
  refine (ensures_load (hn.of_slots hslots) name).mono (fun handle s ⟨n', m', hloaded, hs⟩ => ?_)
    fun _ s hs => hs.slotsKept hslots rfl
  exact ⟨name, n', _, hname, hloaded.imp (·.of_slots hslots) (·.of_slots hslots), hs⟩

/-- What a command can do to slots and memory. Where it fails it does nothing to them. -/
theorem ensures_command (hn : n.Tidy) (command : Command) :
    Ensures (At c n w) command.run
      (fun answer s => Does command answer n w.memory s.engine.loader s.world.memory)
      (fun _ => SlotsKept n w) := by
  -- An answer that is no handle says that slots and memory are as they were.
  have hkept {α : Type} {a : Action α} {f : α → Answer}
      (hf : ∀ value s, SlotsKept n w s →
        Does command (f value) n w.memory s.engine.loader s.world.memory)
      (ha : Ensures (At c n w) a (fun _ => SlotsKept n w) (fun _ => SlotsKept n w)) :
      Ensures (At c n w) (do return f (← a))
        (fun answer s => Does command answer n w.memory s.engine.loader s.world.memory)
        (fun _ => SlotsKept n w) := ha.bind fun value => ensures_pure (hf value)
  have hloader (f : Namespace → Namespace) (hf : (f n).slots = n.slots) :
      Ensures (At c n w) (modifyLoader f) (fun _ => SlotsKept n w) (fun _ => SlotsKept n w) :=
    (ensures_modifyLoader f).mono_ok fun _ s hs => hs.slotsKept hf rfl
  have hcompiled {name : String} {a : Action Compiled}
      (ha : Ensures (At c n w) a (CompiledAt c n w name)
        (fun _ s => ∃ calls, LeftAt c n { w with calls } s)) :
      Ensures (At c n w) a (fun _ => SlotsKept n w) (fun _ => SlotsKept n w) :=
    ha.mono (fun _ s ⟨_, _, hregisters, _, _, hs⟩ => hs.slotsKept hregisters.slots rfl)
      fun _ s ⟨_, _, _, hs⟩ => hs.slotsKept rfl rfl
  cases command with
  -- These change what is searched, and no slot.
  | insert a => exact hkept (fun _ _ hs => hs.and) (hloader _ rfl)
  | unregister name => exact hkept (fun _ _ hs => hs.and) (hloader _ rfl)
  | clear => exact hkept (fun _ _ hs => hs.and) (hloader _ rfl)
  | push source => exact hkept (fun _ _ hs => hs.and) (hloader _ rfl)
  | register a =>
    exact hkept (fun _ _ hs => hs.and) ((ensures_register hn a).mono
      (fun _ s ⟨_, hs⟩ => hs.slotsKept rfl rfl) fun _ s ⟨_, hs⟩ => hs.slotsKept rfl rfl)
  | append location =>
    exact hkept (fun _ _ hs => hs.and) ((ensures_appendArchive location).mono
      (fun _ s ⟨_, _, hs⟩ => hs.slotsKept rfl rfl) fun _ s ⟨_, _, hs⟩ => hs.slotsKept rfl rfl)
  | exportTo location =>
    exact hkept (fun _ _ hs => hs.and) ((ensures_exportArchive location).mono
      (fun _ s ⟨_, hs⟩ => hs.slotsKept rfl rfl) fun _ s hs => hs.slotsKept rfl rfl)
  | compile name source options =>
    exact hkept (fun _ _ hs => hs.and) (hcompiled (ensures_compile hn name source options))
  | compileWithin name source options limit =>
    exact hkept (fun _ _ hs => hs.and)
      (hcompiled (ensures_compileWithin hn name source options limit))
  | load name =>
    -- Only a load fills a slot and adds a type to memory.
    refine ((ensures_load hn name).mono_error fun _ s hs => hs.slotsKept rfl rfl).bind
      fun handle => ?_
    refine ensures_pure fun s ⟨n', m', hloaded, hs⟩ => ⟨name, rfl, ?_⟩
    rwa [hs.loader, hs.world]
  | compileAndLoad source options =>
    refine (ensures_compileAndLoad hn source options).bind fun handle => ?_
    refine ensures_pure fun s ⟨name, n', w', hname, hloaded, hs⟩ =>
      ⟨name, congrArg Except.toOption hname, ?_⟩
    rwa [hs.loader, hs.world]

end

/-! ## What an event does to slots and memory -/

/-- An event either is an arrival, of what the slot of its name holds or of what now fills it; or it
touches no slot, and memory forgets nothing. -/
theorem Event.after_cases (e : Event) {s : State} (h : s.engine.loader.Tidy) :
    (e.arrival? s = none ∧ (e.after s).engine.loader.slots = s.engine.loader.slots ∧
      s.world.memory.Grows (e.after s).world.memory) ∨
    ∃ name handle, e.arrival? s = some ⟨name, handle, (s.world.memory.type? handle).isNone⟩ ∧
      (LoadedAgain s.engine.loader s.world.memory name handle (e.after s).engine.loader
        (e.after s).world.memory ∨
      LoadedAnew s.engine.loader s.world.memory name handle (e.after s).engine.loader
        (e.after s).world.memory) := by
  cases e with
  | change c => exact .inl ⟨rfl, rfl, c.grows s.world⟩
  | command c =>
    have hstep := ensures_command h c s (at_self s)
    unfold arrival? after
    dsimp only
    -- A command that fails is no arrival and changes nothing.
    split at hstep
    · rename_i answer s' hrun
      rw [hrun]
      cases answer with
      | loaded handle =>
        obtain ⟨name, htarget, hload⟩ := hstep
        dsimp only [endOf]
        rw [htarget]
        exact .inr ⟨name, handle, rfl, hload⟩
      | _ =>
        obtain ⟨hslots, hmemory⟩ := hstep
        exact .inl ⟨rfl, hslots, hmemory ▸ s.world.memory.grows_refl⟩
    · rename_i e s' hrun
      rw [hrun]
      exact .inl ⟨rfl, hstep.slots, hstep.memory ▸ s.world.memory.grows_refl⟩

/-- After every event the namespace is tidy if it was before. -/
theorem tidy_after (e : Event) {s : State} (h : s.engine.loader.Tidy) :
    (e.after s).engine.loader.Tidy := by
  rcases e.after_cases h with ⟨-, hslots, -⟩ | ⟨name, handle, -, hagain | hanew⟩
  · exact h.of_slots hslots
  · exact h.of_slots hagain.slots
  · exact (h.fill name handle).of_slots hanew.slots

/-- In every run the namespace is tidy between events. -/
theorem tidy_run (config : Config) (world : World) (log : List LogLine) (events : List Event) :
    (runFrom (start config world log) events).engine.loader.Tidy := by
  have hstart : (start config world log).engine.loader.Tidy := Namespace.tidy_empty config.policy
  revert hstart
  generalize start config world log = s
  intro h
  induction events generalizing s with
  | nil => exact h
  | cons e rest ih => exact ih (e.after s) (tidy_after e h)

end UnitLoader.Engine
