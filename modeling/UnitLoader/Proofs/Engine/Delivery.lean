import UnitLoader.Proofs.Engine.ResolutionOrder

/-!
# What is compiled is what is loaded

A source that is compiled and loaded under the name that it declares goes through the scratch
directory, the registry and the search for the name before it is opened. `follows_of_compile` says
what of it is left once the source is compiled: the bytes that the compiler linked are registered.
They are what is found first for the name (`Compiled.Follows.eq_of_find?`), so nothing gets in
between: a name that was not loaded stands for the bytes that were compiled just now
(`JustCompiled`), whatever archives and sources have for it. For a name that was loaded the policy
decides: under the policy to reject the command fails and changes nothing, and under the policy to
allow it gives the type that the name stood for, and the registry has the new bytes.
`delivery_run` says all this of every state that a run can reach.
-/

namespace UnitLoader.Engine

/-- Since a state was left, a source was compiled to bytes as the definition of a name. -/
def Compiles (name source : String) (s s' : State) (bytes : List UInt8) : Prop :=
  Delivers s.world ⟨name, source⟩ s.engine.config.timeout s'.world.calls bytes

/-- A handle stands for a new type of the bytes that a source was just compiled to. -/
def JustCompiled (name source : String) (s : State) (handle : Handle) (s' : State) : Prop :=
  ∃ t, Compiles name source s s' t.bytes ∧ s.world.memory.type? handle = none ∧
    s'.world.memory.type? handle = some t

/-- What it means that a source was compiled and loaded. -/
structure Returns (name source : String) (policy : RedefinitionPolicy) (s : State)
    (handle : Handle) (s' : State) : Prop where
  /-- A name that was not loaded stands for what was just compiled. -/
  fresh : s.engine.loader.isLoaded name = false → JustCompiled name source s handle s'
  /-- A name that was loaded stands for what it stood for, and what was compiled is registered. The
  policy allows it. -/
  again : s.engine.loader.isLoaded name = true → policy = .allow ∧
    s.engine.loader.handle? name = some handle ∧
    ∃ bytes, Compiles name source s s' bytes ∧ s'.engine.loader.registry.get? name = some bytes
  /-- Under the policy to reject, every name stands for what was just compiled. -/
  strict : policy = .reject → JustCompiled name source s handle s'

/-- What it means that a source was not compiled and loaded. -/
structure Refuses (name source : String) (policy : RedefinitionPolicy) (s : State) (e : Failure)
    (s' : State) : Prop where
  /-- A name that was loaded is not defined anew under the policy to reject, and nothing is changed.
  This is why it fails if the source was compiled. -/
  rejected : s.engine.loader.isLoaded name = true → policy = .reject →
    s'.engine.loader = s.engine.loader ∧
      ∀ bytes, Compiles name source s s' bytes → e = .error (.redefinitionHazard name)
  /-- Under the policy to allow, the source of a name that was loaded was not compiled. -/
  allowed : s.engine.loader.isLoaded name = true → policy = .allow →
    ∀ bytes, ¬Compiles name source s s' bytes

section

variable {s s₁ : State} {name source : String} {options : OptionSet}

/-- A source that could not be compiled is not loaded either. -/
theorem refuses_of_compile {e : Failure} (h : s.engine.loader.Tidy)
    (hrun : compile name source options s = .error e s₁) :
    Refuses name source s.engine.loader.policy s e s₁ := by
  obtain ⟨calls, hfails, hleft⟩ :=
    (ensures_delivers h name source options s.engine.config.timeout).of_error (at_self s) hrun
  have hcalls : s₁.world.calls = calls := by
    obtain ⟨files, -, hs₁⟩ := hleft
    rw [hs₁.world]
  have hrefused (bytes : List UInt8) (hcompiles : Compiles name source s s₁ bytes) :
      Refused s.engine.loader name e := by
    rw [Compiles, hcalls] at hcompiles
    exact hfails bytes hcompiles
  constructor
  case rejected =>
    exact fun _ _ => ⟨hleft.loader, fun bytes hcompiles => (hrefused bytes hcompiles).2.2⟩
  case allowed =>
    intro _ hallow bytes hcompiles
    rw [(hrefused bytes hcompiles).2.1] at hallow
    contradiction

/-- A source was compiled in a state, and this is the state after it. -/
structure Compiled.Follows (name source : String) (s : State) (compiled : Compiled) (s₁ : State) :
    Prop where
  /-- It was compiled to the artifact. -/
  compiles : Compiles name source s s₁ compiled.artifact.bytes
  /-- The artifact is registered under the name, and nothing else of the namespace is changed. -/
  loader : s₁.engine.loader = s.engine.loader.insert ⟨name, compiled.artifact.bytes⟩
  /-- It may be, if the name is loaded. -/
  permitted : s.engine.loader.isLoaded name = true → s.engine.loader.policy = .allow
  /-- Memory is not changed. -/
  memory : s₁.world.memory = s.world.memory

/-- That is what follows wherever a source was compiled. -/
theorem follows_of_compile {compiled : Compiled} (h : s.engine.loader.Tidy)
    (hrun : compile name source options s = .ok compiled s₁) :
    compiled.Follows name source s s₁ := by
  obtain ⟨after, calls, hsucceeds, files, -, hs₁⟩ :=
    (ensures_delivers h name source options s.engine.config.timeout).of_ok (at_self s) hrun
  have hname : compiled.artifact.name = name := hsucceeds.registers.name
  constructor
  case compiles =>
    rw [Compiles, hs₁.world]
    exact hsucceeds.delivers
  case loader => rw [hs₁.loader, hsucceeds.registers.registered, ← hname]
  case permitted => exact hsucceeds.permitted
  case memory => rw [hs₁.world]

namespace Compiled.Follows

variable {compiled : Compiled}

/-- No slot is changed. -/
theorem handle? (h : compiled.Follows name source s s₁) :
    s₁.engine.loader.handle? name = s.engine.loader.handle? name := by
  rw [h.loader]
  rfl

/-- So a name that is not loaded now was not loaded before. -/
theorem isLoaded_ne (h : compiled.Follows name source s s₁)
    (hempty : s₁.engine.loader.handle? name = none) : s.engine.loader.isLoaded name ≠ true := by
  rw [Namespace.isLoaded, ← h.handle?, hempty]
  exact Bool.false_ne_true

/-- What was compiled is registered. -/
theorem registered (h : compiled.Follows name source s s₁) :
    s₁.engine.loader.registry.get? name = some compiled.artifact.bytes := by
  rw [h.loader, Namespace.insert, NameMap.get?_insert, if_pos rfl]

/-- So it is what is found first, whatever archives and sources have. -/
theorem eq_of_find? (h : compiled.Follows name source s s₁) {origin : String}
    {bytes : List UInt8} (hfind : s₁.engine.loader.find? name = some (origin, bytes)) :
    bytes = compiled.artifact.bytes := by
  have hfirst := s₁.engine.loader.map_snd_find? name
  rw [hfind, h.registered, Option.some_or] at hfirst
  exact Option.some.inj hfirst

end Compiled.Follows

/-- What was compiled is loaded, or the policy decides. -/
theorem outcome_of_load {compiled : Compiled} (htidy : s.engine.loader.Tidy)
    (h : compiled.Follows name source s s₁) :
    match load name s₁ with
    | .ok handle s' => Returns name source s.engine.loader.policy s handle s'
    | .error e s' => Refuses name source s.engine.loader.policy s e s' := by
  have htidy₁ : s₁.engine.loader.Tidy := by
    rw [h.loader]
    exact htidy.of_slots rfl
  rcases load_cases htidy₁ name with ⟨handle, hcached, hrun⟩ | ⟨hempty, e, -, hrun⟩ |
    ⟨hempty, origin, bytes, t, log, hfind, htype, hrun⟩
  · -- The name was loaded before the source was compiled.
    rw [hrun]
    rw [h.handle?] at hcached
    have hloaded : s.engine.loader.isLoaded name = true := by
      rw [Namespace.isLoaded, hcached]
      rfl
    have hallow := h.permitted hloaded
    constructor
    case fresh =>
      exact fun hunloaded => absurd (hunloaded.symm.trans hloaded) Bool.false_ne_true
    case again => exact fun _ => ⟨hallow, hcached, _, h.compiles, h.registered⟩
    case strict => exact fun hreject => absurd (hallow.symm.trans hreject) (by decide)
  · -- It is not loaded, so nothing is claimed of the failure.
    rw [hrun]
    have hfresh := h.isLoaded_ne hempty
    exact ⟨fun hloaded => absurd hloaded hfresh, fun hloaded => absurd hloaded hfresh⟩
  · -- It is loaded now, from what is found first.
    rw [hrun]
    have hfresh := h.isLoaded_ne hempty
    -- The registry is searched first, so it was loaded from what was just compiled.
    have hbytes : t.bytes = compiled.artifact.bytes :=
      (LoadedType.bytes_of_load htype).trans (h.eq_of_find? hfind)
    have hnew : JustCompiled name source s (s₁.world.memory.add t).1
        { engine := { s₁.engine with loader := { s₁.engine.loader with
            slots := s₁.engine.loader.slots.insert name (some (s₁.world.memory.add t).1) } }
          world := { s₁.world with memory := (s₁.world.memory.add t).2 }
          log := s₁.log ++ log
          usage := s₁.usageOf name } := by
      refine ⟨t, ?_, ?_, s₁.world.memory.type?_add t⟩
      · rw [hbytes]
        exact h.compiles
      · rw [← h.memory]
        exact s₁.world.memory.type?_add_fst t
    exact ⟨fun _ => hnew, fun hloaded => absurd hloaded hfresh, fun _ => hnew⟩

end

/-- **What is compiled is what is loaded:** in every state that a run can reach, with whatever
archives and sources, a source that is compiled and loaded stands for the bytes that it was compiled
to just now, unless its name was loaded. Then the policy decides. -/
theorem delivery_run (config : Config) (world : World) (log : List LogLine) (events : List Event)
    {source name : String} (hname : resolveName source = .ok name) (options : OptionSet) :
    match compileAndLoad source options (runFrom (start config world log) events) with
    | .ok handle s' =>
      Returns name source config.policy (runFrom (start config world log) events) handle s'
    | .error e s' =>
      Refuses name source config.policy (runFrom (start config world log) events) e s' := by
  have htidy := tidy_run config world log events
  rw [← policy_run config world log events]
  generalize runFrom (start config world log) events = s at htidy
  rw [compileAndLoad_eq, hname]
  dsimp only
  cases hrun : compile name source options s with
  | error e s' => exact refuses_of_compile htidy hrun
  | ok compiled s₁ => exact outcome_of_load htidy (follows_of_compile htidy hrun)

/-- A compiler that links the same two bytes for every source. -/
def linking : Compiler where
  version := ⟨[49], .exited 0⟩
  platform := []
  compile _ := ⟨true, [], some [1, 2], .exited 0, ⟨1⟩⟩

/-- A configuration with that compiler and the policy to reject. -/
def equipped : Config :=
  { Config.standard with
    policy := .reject, compilerPath := some "./c", scratchRoot := some "a" }

/-- There are a directory for scratch directories and the compiler, and the two bytes are a
library. -/
def equippedWorld : World :=
  { plainWorld with files := ⟨[(["a"], .directory), (["c"], .program linking)]⟩ }

/-- A source has other bytes for the name. -/
def shadowed : List Event := [.command (.push (.ofEntries "s" [("A", [3])]))]

/-- The name stands for what was compiled, and not for what the source has. -/
theorem delivery_run_shadowed :
    resolveName "pub struct A;" = .ok "A" ∧ ∃ handle s',
      compileAndLoad "pub struct A;" ⟨[]⟩ (runFrom (start equipped equippedWorld []) shadowed) =
        .ok handle s' ∧
      (s'.world.memory.type? handle).map LoadedType.bytes = some [1, 2] ∧
      Returns "A" "pub struct A;" equipped.policy
        (runFrom (start equipped equippedWorld []) shadowed) handle s' := by
  have hname : resolveName "pub struct A;" = .ok "A" := by decide +kernel
  have hbytes : (match compileAndLoad "pub struct A;" ⟨[]⟩
        (runFrom (start equipped equippedWorld []) shadowed) with
      | .ok handle s' => (s'.world.memory.type? handle).map LoadedType.bytes
      | .error _ _ => none) = some [1, 2] := by decide +kernel
  have hdelivery := delivery_run equipped equippedWorld [] shadowed hname ⟨[]⟩
  cases hrun : compileAndLoad "pub struct A;" ⟨[]⟩
      (runFrom (start equipped equippedWorld []) shadowed) with
  | ok handle s' =>
    rw [hrun] at hbytes hdelivery
    exact ⟨hname, handle, s', rfl, hbytes, hdelivery⟩
  | error e s' =>
    rw [hrun] at hbytes
    contradiction

end UnitLoader.Engine
