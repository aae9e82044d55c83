import UnitLoader.Proofs.Engine.Run

/-!
# What a command that fails leaves behind

`outcome_of_command` says of every command, in every state that a run can reach, what is left of it.
If it fails, the namespace is the very one that it was, and no scratch directory is left: at most
directories that lead to the configured scratch root (`RootKept`). There is one exception: where a
source was compiled and then could not be loaded, what was compiled stays registered (`HalfDone`). A
compilation that succeeds registers what the compiler linked, and changes nothing else of the
namespace (`Publishes`).
-/

namespace UnitLoader.Engine

open UnitLoader.Engine.Action

/-- What a scratch directory in a root may leave of files. -/
structure RootKept (root : Option String) (f f' : Files) : Prop where
  /-- If the root was there, no path tells the difference. -/
  standing : f.RootStands root → f.LookAlike f'
  /-- Whatever was there is there. -/
  kept : ∀ path node, f.find path = .ok node → f'.find path = .ok node
  /-- All that is new in any directory are directories with names of the root's path. -/
  made : ∀ place name, name ∈ f'.children place → name ∈ f.children place ∨
    ∃ path, root = some path ∧ f'.node? (place ++ [name]) = some .directory ∧
      name ∈ Files.pathNames path.toList
  /-- The root holds nothing new, unless its path goes up. -/
  root : ∀ path, root = some path → ".." ∉ Files.pathNames path.toList →
    ∀ place name, f'.resolve path = .ok place → name ∈ f'.children place →
      name ∈ f.children place

/-- A scratch directory leaves no more than that. -/
theorem rootKept_of_leaves {root : Option String} {f f' : Files} (h : f.Leaves root f') :
    RootKept root f f' where
  standing := h.lookAlike
  kept _ _ := h.find
  made _ _ hname := (h.children hname).imp id
    fun ⟨path, hroot, hdir, hmem, _⟩ => ⟨path, hroot, hdir, hmem⟩
  root path hroot hup place name hresolve hname := by
    subst hroot
    exact h.children_root hup hresolve hname

/-- The same where nothing else differs. -/
theorem LeftAt.rootKept {c : Config} {n : Namespace} {w : World} {s : State} (h : LeftAt c n w s) :
    RootKept c.scratchRoot w.files s.world.files := by
  obtain ⟨f', hleaves, hs⟩ := h
  exact hs.world ▸ rootKept_of_leaves hleaves

/-- A source was compiled under the name that it declares, and then the name could not be loaded. -/
def HalfDone (command : Command) (s s' : State) (name : String) (compiled : Compiled) : Prop :=
  ∃ source options s₁ e, command = .compileAndLoad source options ∧
    resolveName source = .ok name ∧ compile name source options s = .ok compiled s₁ ∧
    load name s₁ = .error e s'

/-- What is left of a command that fails. -/
structure LeftByFailure (command : Command) (s s' : State) : Prop where
  /-- The namespace is what it was. -/
  whole : (¬∃ name compiled, HalfDone command s s' name compiled) →
    s'.engine.loader = s.engine.loader
  /-- The exception: what was compiled is registered and nothing else is changed. -/
  half : ∀ name compiled, HalfDone command s s' name compiled →
    compiled.artifact.name = name ∧ s'.engine.loader = s.engine.loader.insert compiled.artifact
  /-- Of scratch directories nothing is left but the root. -/
  files : RootKept s.engine.config.scratchRoot s.world.files s'.world.files

/-- What is left of a compilation of a name that succeeds. -/
structure Publishes (name : String) (compiled : Compiled) (s s' : State) : Prop where
  /-- The artifact is that of the name. -/
  named : compiled.artifact.name = name
  /-- Its bytes are those that the compiler linked in the latest call. -/
  linked : LinkedBy s.world s'.world.calls compiled.artifact.bytes
  /-- They are registered under the name. -/
  registered : s'.engine.loader.registry.get? name = some compiled.artifact.bytes
  /-- Nothing else in the registry is changed. -/
  others : ∀ other, other ≠ name →
    s'.engine.loader.registry.get? other = s.engine.loader.registry.get? other
  /-- Nothing else in the namespace is changed. -/
  rest : s'.engine.loader = { s.engine.loader with registry := s'.engine.loader.registry }
  /-- Of the scratch directory nothing is left but the root. -/
  files : RootKept s.engine.config.scratchRoot s.world.files s'.world.files

/-- The name that a command compiles a source for. -/
def Command.compiles? : Command → Option String
  | .compile name _ _ => some name
  | .compileWithin name _ _ _ => some name
  | _ => none

/-- What is left of a command that comes back with an answer, if it compiles. -/
def LeftBySuccess (command : Command) (answer : Answer) (s s' : State) : Prop :=
  ∀ name, command.compiles? = some name →
    ∃ compiled, answer = .compiled compiled ∧ Publishes name compiled s s'

/-! ## Failure -/

/-- A command that fails, and does not also load what it compiled, leaves the namespace as it is,
and files as a scratch directory leaves them. -/
theorem ensures_failure {c : Config} {n : Namespace} {w : World} (hn : n.Tidy) (command : Command)
    (hcommand : ∀ source options, command ≠ .compileAndLoad source options) :
    Ensures (At c n w) command.run (fun _ _ => True)
      (fun _ s => ∃ calls, LeftAt c n { w with calls } s) := by
  -- What a command comes back with does not matter.
  have hanswer {α : Type} {a : Action α} {Q : α → State → Prop} {E : Failure → State → Prop}
      (f : α → Answer) (ha : Ensures (At c n w) a Q E) :
      Ensures (At c n w) (do return f (← a)) (fun _ _ => True) E :=
    ha.bind fun _ => ensures_pure fun _ _ => trivial
  -- Where an action fails and leaves all as it is, so does the command.
  have hstill {α : Type} {a : Action α} {Q : α → State → Prop} (f : α → Answer)
      (ha : Ensures (At c n w) a Q (fun _ => At c n w)) :
      Ensures (At c n w) (do return f (← a)) (fun _ _ => True)
        (fun _ s => ∃ calls, LeftAt c n { w with calls } s) :=
    (hanswer f ha).mono_error fun _ s hs => ⟨w.calls, hs.left⟩
  cases command with
  | insert a => exact hstill _ (ensures_modifyLoader _)
  | unregister name => exact hstill _ (ensures_modifyLoader _)
  | clear => exact hstill _ (ensures_modifyLoader _)
  | push source => exact hstill _ (ensures_modifyLoader _)
  | register a => exact hstill _ ((ensures_register hn a).mono_error fun _ s hs => hs.2)
  | append location =>
    exact hstill _ ((ensures_appendArchive location).mono_error fun _ s ⟨_, _, hs⟩ => hs)
  | exportTo location => exact hstill _ (ensures_exportArchive location)
  | load name => exact hstill _ (ensures_load hn name)
  | compile name source options => exact hanswer _ (ensures_compile hn name source options)
  | compileWithin name source options limit =>
    exact hanswer _ (ensures_compileWithin hn name source options limit)
  | compileAndLoad source options => exact absurd rfl (hcommand source options)

section

variable {s s' s₁ : State} {name source : String} {options : OptionSet} {compiled : Compiled}
  {e : Failure}

/-- A source that is compiled and loaded and fails was not compiled, and then nothing is changed but
files; or it was compiled and could not be loaded. -/
theorem compileAndLoad_cases (hn : s.engine.loader.Tidy)
    (h : compileAndLoad source options s = .error e s') :
    (∃ calls, LeftAt s.engine.config s.engine.loader { s.world with calls } s') ∨
    ∃ name compiled s₁, resolveName source = .ok name ∧
      compile name source options s = .ok compiled s₁ ∧ load name s₁ = .error e s' := by
  rw [compileAndLoad_eq] at h
  split at h
  · obtain ⟨-, rfl⟩ := EStateM.Result.error.inj h
    exact .inl ⟨s.world.calls, (at_self s).left⟩
  · rename_i name hname
    split at h
    · rename_i fault s₁ hcompile
      obtain ⟨rfl, rfl⟩ := EStateM.Result.error.inj h
      exact .inl ((ensures_compile hn name source options).of_error (at_self s) hcompile)
    · rename_i compiled s₁ hcompile
      exact .inr ⟨name, compiled, s₁, hname, hcompile, h⟩

/-- Where what was compiled could not be loaded, it stays registered and nothing else is changed. -/
theorem leftAt_of_load_failed (hn : s.engine.loader.Tidy)
    (hcompile : compile name source options s = .ok compiled s₁)
    (hload : load name s₁ = .error e s') :
    compiled.artifact.name = name ∧ ∃ calls, LeftAt s.engine.config
      (s.engine.loader.insert compiled.artifact) { s.world with calls } s' := by
  obtain ⟨after, calls, hregisters, f', hleaves, hs₁⟩ :=
    (ensures_compile hn name source options).of_ok (at_self s) hcompile
  obtain ⟨hname, rfl, -⟩ := hregisters
  have htidy : (s.engine.loader.insert compiled.artifact).Tidy := hn.of_slots rfl
  exact ⟨hname, calls, f', hleaves, (ensures_load htidy name).of_error hs₁ hload⟩

/-- Whatever command fails, what is left of it is what it should be. -/
theorem leftByFailure {command : Command} (hn : s.engine.loader.Tidy)
    (h : command.run s = .error e s') : LeftByFailure command s s' := by
  by_cases hcommand : ∃ source options, command = .compileAndLoad source options
  · -- Loading what was compiled is the only step that can fail behind a change.
    obtain ⟨source, options, rfl⟩ := hcommand
    have hrun : compileAndLoad source options s = .error e s' := by
      rcases bind_eq_error h with hrun | ⟨handle, s₁, -, hpure⟩
      · exact hrun
      · contradiction
    have hcases := compileAndLoad_cases hn hrun
    constructor
    -- Unless it is the load that failed, nothing was changed before.
    case whole =>
      intro hwhole
      rcases hcases with ⟨calls, hleft⟩ | ⟨name, compiled, s₁, hsteps⟩
      · exact hleft.loader
      · exact absurd ⟨name, compiled, source, options, s₁, e, rfl, hsteps⟩ hwhole
    case half =>
      rintro name compiled ⟨source', options', s₁, e', -, -, hcompile, hload⟩
      obtain ⟨hname, calls, hleft⟩ := leftAt_of_load_failed hn hcompile hload
      exact ⟨hname, hleft.loader⟩
    case files =>
      rcases hcases with ⟨calls, hleft⟩ | ⟨name, compiled, s₁, -, hcompile, hload⟩
      · exact hleft.rootKept
      · obtain ⟨-, calls, hleft⟩ := leftAt_of_load_failed hn hcompile hload
        exact hleft.rootKept
  · -- Every other command fails before it changes anything.
    obtain ⟨calls, hleft⟩ := (ensures_failure hn command fun source options same =>
      hcommand ⟨source, options, same⟩).of_error (at_self s) h
    constructor
    case whole => exact fun _ => hleft.loader
    case half =>
      -- A source that is only compiled is not half done.
      rintro name compiled ⟨source, options, -, -, same, -⟩
      exact absurd ⟨source, options, same⟩ hcommand
    case files => exact hleft.rootKept

end

/-! ## Success -/

/-- A compilation that registers what was linked publishes it. -/
theorem publishes_of_compiledAt {s s' : State} {name : String} {compiled : Compiled}
    (h : CompiledAt s.engine.config s.engine.loader s.world name compiled s') :
    Publishes name compiled s s' := by
  obtain ⟨after, calls, ⟨rfl, rfl, hlinked⟩, f', hleaves, -, hloader, hworld⟩ := h
  constructor
  case named => rfl
  case linked =>
    rw [hworld]
    exact hlinked
  case registered => rw [hloader, Namespace.insert, NameMap.get?_insert, if_pos rfl]
  case others =>
    intro other hother
    rw [hloader, Namespace.insert, NameMap.get?_insert, if_neg hother]
  case rest =>
    rw [hloader]
    rfl
  case files => exact hworld ▸ rootKept_of_leaves hleaves

/-- Whatever compilation succeeds publishes what was linked. -/
theorem leftBySuccess {s s' : State} {command : Command} {answer : Answer}
    (hn : s.engine.loader.Tidy) (h : command.run s = .ok answer s') :
    LeftBySuccess command answer s s' := by
  intro name hname
  -- Whether a limit is given or not, what a compilation ensures is that its artifact is there.
  have hpublish {a : Action Compiled} {E : Failure → State → Prop}
      (ha : Ensures (At s.engine.config s.engine.loader s.world) a
        (CompiledAt s.engine.config s.engine.loader s.world name) E)
      (hrun : (do return Answer.compiled (← a)) s = .ok answer s') :
      ∃ compiled, answer = .compiled compiled ∧ Publishes name compiled s s' := by
    refine (ha.bind (R := fun answer s' => ∃ compiled, answer = .compiled compiled ∧
      Publishes name compiled s s') fun compiled => ?_).of_ok (at_self s) hrun
    exact ensures_pure fun s₁ hs₁ => ⟨compiled, rfl, publishes_of_compiledAt hs₁⟩
  cases command with
  | compile own source options =>
    obtain rfl := Option.some.inj hname
    exact hpublish (ensures_compile hn own source options) h
  | compileWithin own source options limit =>
    obtain rfl := Option.some.inj hname
    exact hpublish (ensures_compileWithin hn own source options limit) h
  | _ => contradiction

/-! ## Every command -/

/-- In every state that a run can reach: a command that fails leaves the namespace as it was, up to
what was compiled where it could not be loaded, and of scratch directories no more than the root;
and a compilation that succeeds registers what the compiler linked, and nothing else. -/
theorem outcome_of_command (config : Config) (world : World) (log : List LogLine)
    (events : List Event) (command : Command) :
    match command.run (runFrom (start config world log) events) with
    | .error _ s' => LeftByFailure command (runFrom (start config world log) events) s'
    | .ok answer s' =>
      LeftBySuccess command answer (runFrom (start config world log) events) s' := by
  have hn := tidy_run config world log events
  generalize runFrom (start config world log) events = s at hn
  split
  · rename_i hrun
    exact leftByFailure hn hrun
  · rename_i hrun
    exact leftBySuccess hn hrun

/-! ## A root that holds something new -/

/-- A compiler that tells a version and refuses every source. -/
def refusing : Compiler where
  version := ⟨[49], .exited 0⟩
  platform := []
  compile _ := ⟨true, [], none, .exited 1, ⟨1⟩⟩

/-- The scratch root is the directory `a`, but its path leads through `b` in it and up again. -/
def upward : Config :=
  { Config.standard with compilerPath := some "./c", scratchRoot := some "a/b/.." }

/-- There is an empty directory `a`, and the compiler. -/
def upwardWorld : World where
  files := ⟨[(["a"], .directory), (["c"], .program refusing)]⟩
  environment := ⟨[]⟩
  images _ := none
  causes _ _ _ := ""
  draws := .counting
  memory := .empty
  calls := []

/-- A compilation that fails leaves the directory that its path leads through in the root. -/
theorem upward_holds_new :
    ∃ e s', (Command.compile "A" "" ⟨[]⟩).run (start upward upwardWorld []) = .error e s' ∧
      s'.world.files.resolve "a/b/.." = .ok ["a"] ∧
      upwardWorld.files.listing "a" = some [] ∧ s'.world.files.listing "a" = some ["b"] :=
  ⟨_, _, rfl, rfl, rfl, rfl⟩

end UnitLoader.Engine
