import UnitLoader.Proofs.Balance
import UnitLoader.Proofs.Engine.Agreement

/-!
# Runs of a host

A host gives commands to an engine, holds the handles that it gets, and works with the types that
they stand for: it makes instances, calls operations with and without them, and drops them. To
memory a step of a host does what one operation on memory does (`Use.step_after`); and a command
does nothing to it but to add a type that was not called yet (`memory_command`). So every library is
accounted for after every step, and `balanced_run` says of all runs that nothing is leaked and
nothing is freed twice.
-/

namespace UnitLoader.Engine

/-! ## Hosts -/

/-- An engine in its surroundings, and the handles that are held. One that was let go leaves its
place empty. -/
structure Host where
  /-- The engine and its surroundings. -/
  state : State
  /-- The handles. -/
  handles : List (Option Handle)

namespace Host

/-- What memory holds. -/
def memory (host : Host) : Memory := host.state.world.memory

/-- The handle at a place. -/
def handle? (host : Host) (place : Nat) : Option Handle := (host.handles[place]?).join

/-- Holds one more handle, if there is one. -/
def hold (host : Host) (h : Option Handle) : Host :=
  { host with handles := host.handles ++ (h.map some).toList }

/-- Goes on with the memory that an operation leaves, if there was something to work on. -/
def leave {α : Type} (host : Host) : Option (Done α) → Host
  | some done =>
    { host with
      state := { host.state with world := { host.state.world with memory := done.memory } } }
  | none => host

/-- A host that holds nothing, in a process that has loaded nothing. -/
def start (config : Config) (world : World) (log : List LogLine) : Host :=
  ⟨Engine.start config { world with memory := .empty } log, []⟩

end Host

/-- A step of a host. -/
inductive Use where
  /-- The engine is given a command. A handle that comes of it is held. -/
  | command (c : Command)
  /-- A handle is cloned. -/
  | clone (place : Nat)
  /-- A handle is dropped. -/
  | letGo (place : Nat)
  /-- An instance is made. -/
  | instantiate (place : Nat)
  /-- An operation is called without an instance. -/
  | callStatic (place : Nat) (operation : String) (arguments : List String)
  /-- The handle of an instance is asked for. -/
  | typeOf (number : Nat)
  /-- An operation is called on an instance. -/
  | call (number : Nat) (operation : String) (arguments : List String)
  /-- An instance is dropped. -/
  | drop (number : Nat)

/-- The handle that a command comes back with, if it does. -/
def handleOf? : EStateM.Result Failure State Answer → Option Handle
  | .ok (.loaded h) _ => some h
  | _ => none

namespace Use

/-- The host after a step. A step that fails is one like any other. -/
def after (host : Host) : Use → Host
  | .command c =>
    Host.hold { host with state := endOf (c.run host.state) } (handleOf? (c.run host.state))
  | .clone place => host.hold (host.handle? place)
  | .letGo place => { host with handles := host.handles.set place none }
  | .instantiate place => host.leave ((host.handle? place).bind host.memory.instantiate)
  | .callStatic place operation arguments =>
    host.leave ((host.handle? place).bind fun h => host.memory.callStatic h operation arguments)
  | .typeOf number => host.hold ((host.memory.instance? number).map Instance.handle)
  | .call number operation arguments =>
    host.leave (host.memory.call number operation arguments)
  | .drop number => host.leave (host.memory.drop number)

/-- The address of the instance of a type that a step drops, if it drops one. -/
def gone (m : Memory) : Use → Handle → Option Nat
  | .drop number, h => Memory.addressOf h (m.instance? number)
  | _, _ => none

end Use

/-! ## What commands do to memory -/

variable {s : State}

/-- A load leaves memory as it was, or adds a type that was not called yet. -/
theorem memory_load (h : s.engine.loader.Tidy) (name : String) :
    (endOf (load name s)).world.memory = s.world.memory ∨
      ∃ t, t.trace = [] ∧ (endOf (load name s)).world.memory = (s.world.memory.add t).2 := by
  rcases load_cases h name with ⟨handle, -, hrun⟩ | ⟨-, e, -, hrun⟩ |
    ⟨-, origin, bytes, t, log, -, htype, hrun⟩
  · exact .inl (congrArg (·.world.memory) (congrArg endOf hrun))
  · exact .inl (congrArg (·.world.memory) (congrArg endOf hrun))
  · obtain ⟨library, manifest, -, -, rfl⟩ := LoadedType.load_eq_ok_iff.1 htype
    exact .inr ⟨_, rfl, congrArg (·.world.memory) (congrArg endOf hrun)⟩

/-- A command that is not to load anything leaves memory as it was. -/
theorem memory_of_target? (h : s.engine.loader.Tidy) {c : Command} (hc : c.target? = none) :
    (endOf (c.run s)).world.memory = s.world.memory := by
  have hstep := ensures_command h c s (at_self s)
  split at hstep
  · rename_i answer s' hrun
    rw [hrun]
    cases answer with
    | loaded handle =>
      obtain ⟨name, htarget, -⟩ := hstep
      rw [hc] at htarget
      contradiction
    | _ => exact hstep.2
  · rename_i e s' hrun
    rw [hrun]
    exact hstep.memory

/-- So a command leaves memory as it was, or adds a type that was not called yet. -/
theorem memory_command (h : s.engine.loader.Tidy) (c : Command) :
    (endOf (c.run s)).world.memory = s.world.memory ∨
      ∃ t, t.trace = [] ∧ (endOf (c.run s)).world.memory = (s.world.memory.add t).2 := by
  cases c with
  | load name =>
    rw [Command.run, endOf_bind_pure _ Answer.loaded]
    exact memory_load h name
  | compileAndLoad source options =>
    rw [Command.run, endOf_bind_pure _ Answer.loaded, compileAndLoad_eq]
    cases resolveName source with
    | error e => exact .inl rfl
    | ok name =>
      dsimp only
      have hcompile := ensures_compile h name source options s (at_self s)
      cases hrun : compile name source options s with
      | error e s' =>
        -- A compilation that fails leaves memory as it is.
        rw [hrun] at hcompile
        obtain ⟨calls, files, -, hs'⟩ := hcompile
        have hmemory : s'.world.memory = s.world.memory := by rw [hs'.world]
        exact .inl hmemory
      | ok compiled s' =>
        rw [hrun] at hcompile
        obtain ⟨after, calls, hregisters, files, -, hs'⟩ := hcompile
        -- The compilation touched neither memory nor a slot; so it is the load that adds the type.
        have hmemory : s'.world.memory = s.world.memory := by rw [hs'.world]
        have htidy : s'.engine.loader.Tidy := by
          rw [hs'.loader]
          exact h.of_slots hregisters.slots
        rw [← hmemory]
        exact memory_load htidy name
  | _ => exact .inl (memory_of_target? h rfl)

/-! ## What a step does -/

namespace Use

variable {host : Host}

/-- The namespace stays tidy. -/
theorem tidy_after (h : host.state.engine.loader.Tidy) (use : Use) :
    (use.after host).state.engine.loader.Tidy := by
  have hleave {α : Type} (outcome : Option (Done α)) :
      (host.leave outcome).state.engine.loader.Tidy := by
    cases outcome <;> exact h
  cases use with
  | command c => exact Engine.tidy_after (.command c) h
  | clone place => exact h
  | letGo place => exact h
  | typeOf number => exact h
  | instantiate place => exact hleave _
  | callStatic place operation arguments => exact hleave _
  | call number operation arguments => exact hleave _
  | drop number => exact hleave _

/-- An operation on memory is a step, whether there is something to work on or not. -/
theorem step_leave {α : Type} {outcome : Option (Done α)}
    (h : ∀ done, outcome = some done → host.memory.Step (fun _ => none) done.memory) :
    host.memory.Step (fun _ => none) (host.leave outcome).memory := by
  cases outcome with
  | none => exact .keep
  | some done => exact h done rfl

/-- To memory every step does what one step can do. -/
theorem step_after (h : host.state.engine.loader.Tidy) (hm : host.memory.Accounts) (use : Use) :
    host.memory.Step (use.gone host.memory) (use.after host).memory := by
  cases use with
  | command c =>
    change host.memory.Step (fun _ => none) (endOf (c.run host.state)).world.memory
    rcases memory_command h c with hsame | ⟨t, htrace, hadd⟩
    · rw [hsame]
      exact .keep
    · rw [hadd]
      exact .load htrace
  -- Handles are not kept in memory.
  | clone place => exact .keep
  | letGo place => exact .keep
  | typeOf number => exact .keep
  | instantiate place =>
    -- A use of a place without a handle, or without an instance, is none.
    refine step_leave fun done hasked => ?_
    obtain ⟨handle, -, hasked⟩ := Option.bind_eq_some_iff.1 hasked
    exact .instantiate hasked
  | callStatic place operation arguments =>
    refine step_leave fun done hcall => ?_
    obtain ⟨handle, -, hcall⟩ := Option.bind_eq_some_iff.1 hcall
    exact .callStatic hcall
  | call number operation arguments => exact step_leave fun done hcall => .call hcall
  | drop number =>
    change host.memory.Step (fun h => Memory.addressOf h (host.memory.instance? number))
      (host.leave (host.memory.drop number)).memory
    -- What cannot be dropped is no instance, so nothing of any type is gone.
    cases hdrop : host.memory.drop number with
    | none =>
      rw [hm.instance?_of_drop hdrop]
      exact .keep
    | some done => exact .drop hdrop

end Use

/-! ## Runs -/

/-- What a run carries on. -/
structure Host.Sound (host : Host) : Prop where
  /-- The namespace is tidy. -/
  tidy : host.state.engine.loader.Tidy
  /-- Every library is accounted for. -/
  accounts : host.memory.Accounts

/-- Every step carries it on, and so does every run. -/
theorem Host.Sound.after {host : Host} (h : host.Sound) (use : Use) : (use.after host).Sound :=
  ⟨Use.tidy_after h.tidy use, h.accounts.step (Use.step_after h.tidy h.accounts use)⟩

theorem Host.Sound.run {host : Host} (h : host.Sound) (uses : List Use) :
    (uses.foldl Use.after host).Sound := by
  induction uses generalizing host with
  | nil => exact h
  | cons use rest ih => exact ih (h.after use)

theorem sound_run (config : Config) (world : World) (log : List LogLine) (uses : List Use) :
    (uses.foldl Use.after (Host.start config world log)).Sound := by
  have hstart : (Host.start config world log).Sound :=
    ⟨Namespace.tidy_empty config.policy, Memory.accounts_empty⟩
  exact hstart.run uses

/-- **Nothing is leaked and nothing is freed twice:** after every run of a host in a process that
had loaded nothing, whatever the libraries do, every library is balanced with its live instances;
and a next step drops nothing but the instance that it is told to drop, if there is one, once. -/
theorem balanced_run (config : Config) (world : World) (log : List LogLine) (uses : List Use) :
    let host := uses.foldl Use.after (Host.start config world log)
    host.memory.Balanced ∧
      ∀ use : Use, host.memory.Drops (use.gone host.memory) (use.after host).memory := by
  intro host
  have hsound : host.Sound := sound_run config world log uses
  refine ⟨hsound.accounts.balanced, fun use => ?_⟩
  exact (Use.step_after hsound.tidy hsound.accounts use).drops

/-- A library that makes no instance when it is asked first and makes all later ones at one
address. -/
def secondChance : World :=
  { plainWorld with
    images := fun _ =>
      some { plainLibrary "A" with construct := fun calls => if calls = [] then none else some 8 } }

/-- An instance is asked for three times, and one is dropped, though the host drops it twice. -/
def droppedTwice : List Use :=
  [.command (.insert ⟨"A", [1, 2]⟩), .command (.load "A"), .instantiate 0, .instantiate 0,
    .instantiate 0, .drop 0, .drop 0]

/-- Two instances were made at the address, one was dropped, and one lives there. A third drop, of
the one that lives, drops the address once more. -/
theorem balanced_run_droppedTwice :
    let host := droppedTwice.foldl Use.after (Host.start .standard secondChance [])
    ∃ t, host.memory.type? ⟨0⟩ = some t ∧ t.trace.made = [8, 8] ∧ t.trace.dropped = [8] ∧
      host.memory.live ⟨0⟩ = [8] ∧ t.trace.Balanced (host.memory.live ⟨0⟩) ∧
      ∃ t', ((Use.drop 1).after host).memory.type? ⟨0⟩ = some t' ∧ t'.trace.dropped = [8, 8] := by
  intro host
  have hmade : (host.memory.type? ⟨0⟩).map (fun t => (t.trace.made, t.trace.dropped)) =
      some ([8, 8], [8]) := by decide +kernel
  have hlive : host.memory.live ⟨0⟩ = [8] := by decide +kernel
  have hgone : (Use.drop 1).gone host.memory ⟨0⟩ = some 8 := by decide +kernel
  obtain ⟨t, ht, htrace⟩ := Option.map_eq_some_iff.1 hmade
  obtain ⟨hmade, hdropped⟩ := Prod.mk.inj htrace
  obtain ⟨hbalanced, hdrops⟩ := balanced_run .standard secondChance [] droppedTwice
  obtain ⟨t', ht', hnow⟩ := hdrops (.drop 1) ⟨0⟩ t ht
  rw [hgone, hdropped] at hnow
  exact ⟨t, ht, hmade, hdropped, hlive, hbalanced ⟨0⟩ t ht, t', ht', hnow⟩

end UnitLoader.Engine
