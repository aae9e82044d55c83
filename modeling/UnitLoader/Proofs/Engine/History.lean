import UnitLoader.Proofs.Engine.Run

/-!
# What a run did to its namespace

Up to what is loaded, a namespace is changed in five ways: an artifact is stored, a name or every
name is taken out of the registry, and an archive or a source is added behind the others. A `Deed`
is one such change, and `Command.deed?` tells from what a command came to which one it made.
`unloaded_command` says that it made no other, and so the namespace at the end of a run is what the
deeds of the run make of an empty one (`unloaded_run`).
-/

namespace UnitLoader

/-- A change of what a namespace has for names. -/
inductive Deed where
  /-- An artifact was put into the registry. -/
  | stored (a : Artifact)
  /-- A name was taken out of the registry. -/
  | removed (name : String)
  /-- Every name was taken out of the registry. -/
  | cleared
  /-- An archive was added behind the others. -/
  | appended (archive : Archive)
  /-- A source was added behind the others. -/
  | pushed (source : Source)

namespace Namespace

/-- The namespace after a deed. -/
def after (n : Namespace) : Deed → Namespace
  | .stored a => n.insert a
  | .removed name => n.unregister name
  | .cleared => n.clear
  | .appended archive => { n with archives := n.archives ++ [archive] }
  | .pushed source => n.push source

/-- The namespace after deeds, one after the other. -/
def afterAll (n : Namespace) (deeds : List Deed) : Namespace := deeds.foldl after n

/-- The namespace with nothing loaded. -/
def unloaded (n : Namespace) : Namespace := { n with slots := .empty }

/-- Deeds have to do with everything but the slots. -/
theorem unloaded_afterAll (n : Namespace) (deeds : List Deed) :
    (n.afterAll deeds).unloaded = n.unloaded.afterAll deeds := by
  induction deeds generalizing n with
  | nil => rfl
  | cons d rest ih =>
    have hfirst : (n.after d).unloaded = n.unloaded.after d := by cases d <;> rfl
    exact (ih (n.after d)).trans (congrArg (afterAll · rest) hfirst)

/-- No deed changes the slots or the policy. -/
theorem kept_afterAll (n : Namespace) (deeds : List Deed) :
    (n.afterAll deeds).slots = n.slots ∧ (n.afterAll deeds).policy = n.policy := by
  induction deeds generalizing n with
  | nil => exact ⟨rfl, rfl⟩
  | cons d rest ih =>
    have hslots : (n.after d).slots = n.slots := by cases d <;> rfl
    have hpolicy : (n.after d).policy = n.policy := by cases d <;> rfl
    exact ⟨(ih (n.after d)).1.trans hslots, (ih (n.after d)).2.trans hpolicy⟩

end Namespace

namespace Engine

open UnitLoader.Engine.Action

/-! ## The deeds of a run -/

/-- What a compilation stored. -/
def storedBy? : EStateM.Result Failure State Compiled → Option Deed
  | .ok compiled _ => some (.stored compiled.artifact)
  | .error _ _ => none

/-- The deed that a command is in a state, if it is one there. -/
def Command.deed? (s : State) : Command → Option Deed
  | .register a =>
    match Engine.register a s with
    | .ok _ _ => some (.stored a)
    | .error _ _ => none
  | .insert a => some (.stored a)
  | .unregister name => some (.removed name)
  | .clear => some .cleared
  | .append location =>
    (Archive.ofFile location (s.world.files.read location)).toOption.map .appended
  | .push source => some (.pushed source)
  | .compile name source options => storedBy? (Engine.compile name source options s)
  | .compileWithin name source options limit =>
    storedBy? (Engine.compileWithin name source options limit s)
  | .compileAndLoad source options =>
    (resolveName source).toOption.bind fun name => storedBy? (Engine.compile name source options s)
  | .load _ | .exportTo _ => none

/-- The deed that an event is, if it is one. -/
def Event.deed? (s : State) : Event → Option Deed
  | .command c => c.deed? s
  | .change _ => none

/-- The deeds among events. -/
def deeds (s : State) : List Event → List Deed
  | [] => []
  | e :: rest => (e.deed? s).toList ++ deeds (e.after s) rest

/-! ## What a command does to the namespace -/

/-- What an action comes back with makes no difference to the state that it ends in. -/
theorem endOf_bind_pure {α β : Type} (a : Action α) (f : α → β) (s : State) :
    endOf ((a >>= fun value => pure (f value)) s) = endOf (a s) := by
  change endOf (EStateM.bind a _ s) = _
  unfold EStateM.bind
  cases a s <;> rfl

section

variable {s : State}

/-- A compilation does no more to the namespace than to store what it comes to. -/
theorem loader_compilation {name : String} {a : Action Compiled}
    (ha : Ensures (At s.engine.config s.engine.loader s.world) a
      (CompiledAt s.engine.config s.engine.loader s.world name)
      (fun _ s' => ∃ calls, LeftAt s.engine.config s.engine.loader { s.world with calls } s')) :
    (endOf (a s)).engine.loader = s.engine.loader.afterAll (storedBy? (a s)).toList := by
  cases hrun : a s with
  | ok compiled s' =>
    obtain ⟨after, calls, hregisters, hleft⟩ := ha.of_ok (at_self s) hrun
    exact hleft.loader.trans hregisters.registered
  | error e s' =>
    obtain ⟨calls, hleft⟩ := ha.of_error (at_self s) hrun
    exact hleft.loader

/-- A load leaves what is not loaded as it is. -/
theorem unloaded_load (h : s.engine.loader.Tidy) (name : String) :
    (endOf (load name s)).engine.loader.unloaded = s.engine.loader.unloaded := by
  rcases load_cases h name with
    ⟨handle, -, hrun⟩ | ⟨-, e, -, hrun⟩ | ⟨-, origin, bytes, t, log, -, -, hrun⟩
  all_goals
    rw [hrun]
    rfl

/-- What deeds do to the whole namespace they do to it up to what is loaded. -/
theorem unloaded_of_loader {n n' : Namespace} {deeds : List Deed} (h : n' = n.afterAll deeds) :
    n'.unloaded = n.unloaded.afterAll deeds := by
  rw [h, Namespace.unloaded_afterAll]

/-- A compilation whose result is loaded does no more than to store what it comes to. -/
theorem unloaded_compileAndLoad (h : s.engine.loader.Tidy) (source : String) (options : OptionSet) :
    (endOf (compileAndLoad source options s)).engine.loader.unloaded =
      s.engine.loader.unloaded.afterAll
        ((Command.compileAndLoad source options).deed? s).toList := by
  rw [compileAndLoad_eq, Command.deed?]
  cases resolveName source with
  | error e => rfl
  | ok name =>
    have hcompile := loader_compilation (ensures_compile h name source options)
    dsimp only [Except.toOption, Option.bind_some]
    cases hrun : compile name source options s with
    | error e s' =>
      rw [hrun] at hcompile
      exact unloaded_of_loader hcompile
    | ok compiled s' =>
      rw [hrun] at hcompile
      -- The compilation touches no slot, so the load starts from a tidy namespace.
      have htidy : s'.engine.loader.Tidy := h.of_slots (by
        rw [endOf] at hcompile
        rw [hcompile]
        exact (s.engine.loader.kept_afterAll _).1)
      exact (unloaded_load htidy name).trans (unloaded_of_loader hcompile)

/-- Up to what is loaded, a command does no more to the namespace than the deed that it is. -/
theorem unloaded_command (h : s.engine.loader.Tidy) (c : Command) :
    (endOf (c.run s)).engine.loader.unloaded =
      s.engine.loader.unloaded.afterAll (c.deed? s).toList := by
  cases c with
  -- These cannot fail, and do what their deed says.
  | insert a => rfl
  | unregister name => rfl
  | clear => rfl
  | push source => rfl
  | register a =>
    rw [Command.run, endOf_bind_pure _ fun _ => Answer.done, Command.deed?]
    refine unloaded_of_loader ?_
    cases hrun : register a s with
    | ok u s' => exact ((ensures_register h a).of_ok (at_self s) hrun).2.loader
    | error e s' => exact ((ensures_register h a).of_error (at_self s) hrun).2.loader
  | append location =>
    rw [Command.run, endOf_bind_pure _ fun _ => Answer.done, Command.deed?]
    refine unloaded_of_loader ?_
    cases hrun : appendArchive location s with
    | ok u s' =>
      obtain ⟨archive, harchive, hs'⟩ := (ensures_appendArchive location).of_ok (at_self s) hrun
      rw [harchive]
      exact hs'.loader
    | error e s' =>
      obtain ⟨e, he, hs'⟩ := (ensures_appendArchive location).of_error (at_self s) hrun
      rw [he]
      exact hs'.loader
  | exportTo location =>
    rw [Command.run, endOf_bind_pure _ Answer.exported, Command.deed?]
    refine unloaded_of_loader ?_
    cases hrun : exportArchive location s with
    | ok u s' =>
      obtain ⟨files, hs'⟩ := (ensures_exportArchive location).of_ok (at_self s) hrun
      exact hs'.loader
    | error e s' => exact ((ensures_exportArchive location).of_error (at_self s) hrun).loader
  | compile name source options =>
    -- A compilation registers its artifact if it succeeds, and otherwise does nothing.
    rw [Command.run, endOf_bind_pure _ Answer.compiled]
    exact unloaded_of_loader (loader_compilation (ensures_compile h name source options))
  | compileWithin name source options limit =>
    rw [Command.run, endOf_bind_pure _ Answer.compiled]
    exact unloaded_of_loader
      (loader_compilation (ensures_compileWithin h name source options limit))
  | load name =>
    -- A load changes slots and memory, which are not compared here.
    rw [Command.run, endOf_bind_pure _ Answer.loaded]
    exact unloaded_load h name
  | compileAndLoad source options =>
    rw [Command.run, endOf_bind_pure _ Answer.loaded]
    exact unloaded_compileAndLoad h source options

end

/-! ## What a run does to the namespace -/

/-- Up to what is loaded, an event does no more to the namespace than the deed that it is. -/
theorem unloaded_event {s : State} (h : s.engine.loader.Tidy) (e : Event) :
    (e.after s).engine.loader.unloaded =
      s.engine.loader.unloaded.afterAll (e.deed? s).toList := by
  cases e with
  | command c => exact unloaded_command h c
  | change c => rfl

/-- No event changes the policy. -/
theorem policy_after {s : State} (h : s.engine.loader.Tidy) (e : Event) :
    (e.after s).engine.loader.policy = s.engine.loader.policy :=
  calc (e.after s).engine.loader.policy
      = (s.engine.loader.unloaded.afterAll (e.deed? s).toList).policy := by
        rw [← unloaded_event h e]
        rfl
    _ = s.engine.loader.policy := (Namespace.kept_afterAll _ _).2

/-- Up to what is loaded, the namespace after events is what their deeds make of the one before. -/
theorem unloaded_runFrom {s : State} (h : s.engine.loader.Tidy) (events : List Event) :
    (runFrom s events).engine.loader.unloaded =
      s.engine.loader.unloaded.afterAll (deeds s events) := by
  induction events generalizing s with
  | nil => rfl
  | cons e rest ih =>
    calc (runFrom (e.after s) rest).engine.loader.unloaded
        = (e.after s).engine.loader.unloaded.afterAll (deeds (e.after s) rest) :=
          ih (tidy_after e h)
      _ = s.engine.loader.unloaded.afterAll (deeds s (e :: rest)) := by
          rw [unloaded_event h e, deeds, Namespace.afterAll, Namespace.afterAll,
            Namespace.afterAll, List.foldl_append]

/-- Up to what is loaded, the namespace at the end of a run is what its deeds make of an empty
one. -/
theorem unloaded_run (config : Config) (world : World) (log : List LogLine)
    (events : List Event) :
    (runFrom (start config world log) events).engine.loader.unloaded =
      (Namespace.empty config.policy).afterAll (deeds (start config world log) events) :=
  unloaded_runFrom (Namespace.tidy_empty config.policy) events

/-- The policy is that of the configuration for ever. -/
theorem policy_run (config : Config) (world : World) (log : List LogLine) (events : List Event) :
    (runFrom (start config world log) events).engine.loader.policy = config.policy :=
  calc (runFrom (start config world log) events).engine.loader.policy
      = ((Namespace.empty config.policy).afterAll
          (deeds (start config world log) events)).policy := by
        rw [← unloaded_run config world log events]
        rfl
    _ = config.policy := (Namespace.kept_afterAll _ _).2

end Engine

end UnitLoader
