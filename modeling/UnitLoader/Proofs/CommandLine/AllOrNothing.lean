import UnitLoader.Proofs.Archive.Limits
import UnitLoader.Proofs.CommandLine.Steps
import UnitLoader.Proofs.Engine.Export
import UnitLoader.Proofs.Engine.Failure

/-!
# Packing is all or nothing

`pack` compiles files one after the other. Either all of them pass (`PassesAll`), and then the
registry has for every name what the last file of the name was compiled to
(`registry_of_passesAll`), or one fails behind others that passed, and then the command ends there
(`forM_of_fails`). Compiling leaves every file as it is (`Files.Spared`), so only the export writes
one. `pack_all_or_nothing` puts this together: a command that fails writes nothing, and one that
succeeds leaves an archive in which each name stands for the bytes of the last file that declares
it.
-/

namespace UnitLoader

namespace Files

/-- All files are as they were. Directories may have been made. -/
structure Spared (f f' : Files) : Prop where
  /-- Whatever a path led to, it leads to. -/
  found : ∀ path node, f.find path = .ok node → f'.find path = .ok node
  /-- No file is new, and none holds anything else. -/
  old : ∀ place bytes, f'.node? place = some (.file bytes) → f.node? place = some (.file bytes)

theorem spared_refl (f : Files) : f.Spared f := ⟨fun _ _ h => h, fun _ _ h => h⟩

theorem Spared.trans {f g f' : Files} (h : f.Spared g) (h' : g.Spared f') : f.Spared f' :=
  ⟨fun path node hfind => h'.found path node (h.found path node hfind),
    fun place bytes hnode => h.old place bytes (h'.old place bytes hnode)⟩

/-- A scratch directory spares all files. -/
theorem Leaves.spared {root : Option String} {f f' : Files} (h : f.Leaves root f') :
    f.Spared f' := by
  refine ⟨fun _ _ => h.find, fun place bytes hnode => ?_⟩
  -- The directories that are made down to the root hold no file, so a file was there before.
  have hrooted (hnode : (f.rooted root).node? place = some (.file bytes)) :
      f.node? place = some (.file bytes) := by
    cases root with
    | none => exact hnode
    | some path =>
      rcases node?_makeDirectories f path place with hnone | hsame | ⟨hdir, -⟩
      · exact absurd (hnone.symm.trans hnode) (by simp)
      · exact hsame.symm.trans hnode
      · exact absurd (hdir.symm.trans hnode) (by simp)
  cases h with
  | untouched => exact hnode
  | unopened => exact hrooted hnode
  | closed opened free =>
    have hopened : ¬IsTop opened := not_isTop_of_node? (f := f.rooted root) (by simp [free])
    rw [node?_remove _ hopened] at hnode
    split at hnode
    · contradiction
    · exact hrooted hnode

end Files

namespace CommandLine

open UnitLoader.Engine (State)
open Step

/-! ## Files that pass -/

/-- A file that was compiled. -/
structure Passed where
  /-- The path of the file. -/
  file : String
  /-- What it holds. -/
  source : String
  /-- The name that it declares. -/
  name : String
  /-- What came of it. -/
  compiled : Engine.Compiled

/-- A file is compiled in a state, and leads to another. -/
structure Passes (options : OptionSet) (s : State) (p : Passed) (s' : State) : Prop where
  /-- It can be read and declares the name. -/
  declares : Declares s.world p.file p.source p.name
  /-- It is compiled. -/
  compiles : Engine.compile p.name p.source options s = .ok p.compiled s'

/-- Files are compiled one after the other. -/
inductive PassesAll (options : OptionSet) : State → List Passed → State → Prop where
  /-- There is none. -/
  | nil (s : State) : PassesAll options s [] s
  /-- The first is compiled, and then the others are. -/
  | cons {s s₁ s' : State} {p : Passed} {rest : List Passed} (first : Passes options s p s₁)
      (others : PassesAll options s₁ rest s') : PassesAll options s (p :: rest) s'

/-- A file is not compiled, for this reason. -/
inductive Fails (options : OptionSet) (s : State) (file : String) : Failure → State → Prop where
  /-- It cannot be read. -/
  | unread (fault : FileFault) (read : s.world.files.read file = .error fault) :
      Fails options s file (.unreadable file fault) s
  /-- It holds no text. -/
  | undecoded (bytes : List UInt8) (fault : Text.Utf8.Failure)
      (read : s.world.files.read file = .ok bytes)
      (decode : Text.Utf8.decode bytes = .error fault) :
      Fails options s file (.unreadable file (.other "stream did not contain valid UTF-8")) s
  /-- No name can be read off it. -/
  | unnamed (source : String) (e : Error) (holds : Holds s.world file source)
      (unresolved : resolveName source = .error e) : Fails options s file (.error e) s
  /-- It is refused, by the compiler or on the way there and back. -/
  | uncompiled (source name : String) (problem : Engine.Failure) (s' : State)
      (declares : Declares s.world file source name)
      (refused : Engine.compile name source options s = .error problem s') :
      Fails options s file (.ofCompilation file problem) s'

section

variable {options : OptionSet} {s s' : State} {c : Console} {file source name : String}
  {failure : Failure} {p : Passed} {passed : List Passed}

/-- A file passes or fails. -/
theorem passes_or_fails (options : OptionSet) (s : State) (file : String) :
    (∃ p s', p.file = file ∧ Passes options s p s') ∨
      ∃ failure s', Fails options s file failure s' := by
  cases hread : s.world.files.read file with
  | error fault => exact .inr ⟨_, _, .unread fault hread⟩
  | ok bytes =>
  cases hdecode : Text.Utf8.decode bytes with
  | error fault => exact .inr ⟨_, _, .undecoded bytes fault hread hdecode⟩
  | ok text =>
  have hholds : Holds s.world file (String.ofList text) := ⟨bytes, text, hread, hdecode, rfl⟩
  cases hname : resolveName (String.ofList text) with
  | error e => exact .inr ⟨_, _, .unnamed _ e hholds hname⟩
  | ok name =>
  have hdeclares : Declares s.world file (String.ofList text) name := ⟨hholds, hname⟩
  cases hcompile : Engine.compile name (String.ofList text) options s with
  | error problem s' => exact .inr ⟨_, _, .uncompiled _ name problem s' hdeclares hcompile⟩
  | ok compiled s' => exact .inl ⟨⟨file, _, name, compiled⟩, s', rfl, hdeclares, hcompile⟩

/-- A file that passes is compiled for the archive. -/
theorem compileForArchive_of_passes (h : Passes options c.state p s') :
    ∃ screen, compileForArchive options p.file c = .ok () ⟨s', screen⟩ ∧
      screen.out = c.screen.out := by
  unfold compileForArchive
  rw [bind_of_ok h.declares.readSource, bind_of_ok (h.declares.resolveName c),
    bind_of_ok (warn_eq _ c)]
  have hcompile (screen : Screen) :
      act (Failure.ofCompilation p.file) (Engine.compile p.name p.source options)
        ⟨c.state, screen⟩ = .ok p.compiled ⟨s', screen⟩ := act_of_ok h.compiles
  rw [bind_of_ok (hcompile _)]
  exact ⟨_, rfl, rfl⟩

/-- At a file that fails the command ends. -/
theorem compileForArchive_of_fails (h : Fails options c.state file failure s') :
    ∃ screen, compileForArchive options file c = .error failure ⟨s', screen⟩ := by
  unfold compileForArchive
  -- The first step that fails ends the command: reading, naming or compiling.
  cases h with
  | unread fault hread =>
    have hsource : readSource file c = .error (.unreadable file fault) c := by
      unfold readSource
      rw [bind_of_ok (get_eq c), hread]
      rfl
    exact ⟨_, bind_of_error hsource⟩
  | undecoded bytes fault hread hdecode =>
    -- What was read is no text, which is a failure to read as well.
    have hsource : readSource file c =
        .error (.unreadable file (.other "stream did not contain valid UTF-8")) c := by
      unfold readSource
      rw [bind_of_ok (get_eq c), hread]
      dsimp only
      rw [hdecode]
      rfl
    exact ⟨_, bind_of_error hsource⟩
  | unnamed source e hholds hname =>
    have hresolve : ofAction (Engine.Action.ofExcept (resolveName source)) c =
        .error (.error e) c := by
      rw [hname]
      rfl
    rw [bind_of_ok hholds.readSource, bind_of_error hresolve]
    exact ⟨_, rfl⟩
  | uncompiled source name problem s' hdeclares hcompile =>
    -- The progress line was shown before the compiler ran.
    rw [bind_of_ok hdeclares.readSource, bind_of_ok (hdeclares.resolveName c),
      bind_of_ok (warn_eq _ c)]
    have hrefused (screen : Screen) :
        act (Failure.ofCompilation file) (Engine.compile name source options) ⟨c.state, screen⟩ =
          .error (.ofCompilation file problem) ⟨s', screen⟩ := act_of_error hcompile
    exact ⟨_, bind_of_error (hrefused _)⟩

theorem forM_cons (options : OptionSet) (file : String) (rest : List String) :
    (file :: rest).forM (compileForArchive options) =
      (compileForArchive options file >>= fun _ => rest.forM (compileForArchive options)) := rfl

/-- Files that pass are compiled one after the other. -/
theorem forM_of_passesAll (h : PassesAll options s passed s') (screen : Screen) :
    ∃ screen', (passed.map Passed.file).forM (compileForArchive options) ⟨s, screen⟩ =
        .ok () ⟨s', screen'⟩ ∧ screen'.out = screen.out := by
  induction h generalizing screen with
  | nil s => exact ⟨screen, rfl, rfl⟩
  | cons first others ih =>
    obtain ⟨screen₁, hfirst, hout₁⟩ := compileForArchive_of_passes (c := ⟨_, screen⟩) first
    obtain ⟨screen', hothers, hout⟩ := ih screen₁
    rw [List.map_cons, forM_cons, bind_of_ok hfirst]
    exact ⟨screen', hothers, hout.trans hout₁⟩

/-- Behind files that passed, one that fails ends the command. -/
theorem forM_of_fails {s₁ : State} (h : PassesAll options s passed s₁)
    (hfails : Fails options s₁ file failure s') (behind : List String) (screen : Screen) :
    ∃ screen', (passed.map Passed.file ++ file :: behind).forM (compileForArchive options)
      ⟨s, screen⟩ = .error failure ⟨s', screen'⟩ := by
  induction h generalizing screen with
  | nil s =>
    obtain ⟨screen', hfile⟩ := compileForArchive_of_fails (c := ⟨s, screen⟩) hfails
    rw [List.map_nil, List.nil_append, forM_cons, bind_of_error hfile]
    exact ⟨screen', rfl⟩
  | cons first others ih =>
    obtain ⟨screen₁, hfirst, -⟩ := compileForArchive_of_passes (c := ⟨_, screen⟩) first
    rw [List.map_cons, List.cons_append, forM_cons, bind_of_ok hfirst]
    exact ih hfails screen₁

/-- All files pass, or there is a first one that fails. -/
theorem passesAll_or_fails (options : OptionSet) (files : List String) (s : State) :
    (∃ passed s', passed.map Passed.file = files ∧ PassesAll options s passed s') ∨
      ∃ passed s₁ file behind failure s', files = passed.map Passed.file ++ file :: behind ∧
        PassesAll options s passed s₁ ∧ Fails options s₁ file failure s' := by
  induction files generalizing s with
  | nil => exact .inl ⟨[], s, rfl, .nil s⟩
  | cons first rest ih =>
    rcases passes_or_fails options s first with ⟨p, s₁, rfl, hp⟩ | ⟨failure, s', hfails⟩
    · rcases ih s₁ with ⟨passed, s', rfl, hall⟩ | ⟨passed, s₂, file, behind, failure, s', rfl, hall,
        hfails⟩
      · exact .inl ⟨p :: passed, s', rfl, .cons hp hall⟩
      · exact .inr ⟨p :: passed, s₂, file, behind, failure, s', rfl, .cons hp hall, hfails⟩
    · exact .inr ⟨[], s, first, rest, failure, s', rfl, .nil s, hfails⟩

/-! ## What compiling leaves -/

/-- A file that passes is registered. Nothing is loaded, and all files are spared. -/
theorem Passes.leaves (h : Passes options s p s') (htidy : s.engine.loader.Tidy) :
    s'.engine.loader = s.engine.loader.insert ⟨p.name, p.compiled.artifact.bytes⟩ ∧
      s'.world.memory = s.world.memory ∧ s.world.files.Spared s'.world.files := by
  obtain ⟨after, calls, hregisters, files, hleaves, hs'⟩ :=
    (Engine.ensures_compile htidy p.name p.source options).of_ok (Engine.at_self s) h.compiles
  refine ⟨?_, ?_, ?_⟩
  · rw [hs'.loader, hregisters.registered, ← hregisters.name]
  · rw [hs'.world]
  · rw [hs'.world]
    exact hleaves.spared

/-- So are they by a file that fails. -/
theorem Fails.spared (h : Fails options s file failure s') (htidy : s.engine.loader.Tidy) :
    s.world.files.Spared s'.world.files := by
  cases h with
  | unread => exact Files.spared_refl _
  | undecoded => exact Files.spared_refl _
  | unnamed => exact Files.spared_refl _
  | uncompiled source name problem s' hdeclares hcompile =>
    obtain ⟨calls, files, hleaves, hs'⟩ :=
      (Engine.ensures_compile htidy name source options).of_error (Engine.at_self s) hcompile
    rw [hs'.world]
    exact hleaves.spared

/-- The last of the files that declare a name. -/
def lastOf (passed : List Passed) (name : String) : Option Passed :=
  passed.reverse.find? fun p => p.name = name

theorem lastOf_cons (p : Passed) (rest : List Passed) (name : String) :
    lastOf (p :: rest) name = (lastOf rest name).or (if p.name = name then some p else none) := by
  rw [lastOf, List.reverse_cons, List.find?_append, List.find?_singleton]
  simp only [decide_eq_true_eq]
  rfl

theorem isSome_lastOf_iff {name : String} :
    (lastOf passed name).isSome ↔ name ∈ passed.map Passed.name := by
  rw [lastOf, List.find?_isSome, List.mem_map]
  simp only [List.mem_reverse, decide_eq_true_eq]

/-- When all files passed, the registry has for every name what the last file of the name was
compiled to, or what it had before. -/
theorem registry_of_passesAll (h : PassesAll options s passed s') (htidy : s.engine.loader.Tidy) :
    s'.engine.loader.Tidy ∧ s'.world.memory = s.world.memory ∧
      s.world.files.Spared s'.world.files ∧ ∀ name, s'.engine.loader.registry.get? name =
        ((lastOf passed name).map (·.compiled.artifact.bytes)).or
          (s.engine.loader.registry.get? name) := by
  induction h with
  | nil s => exact ⟨htidy, rfl, Files.spared_refl _, fun name => rfl⟩
  | @cons s s₁ s' p rest first others ih =>
    obtain ⟨hloader, hmemory, hspared⟩ := first.leaves htidy
    have htidy₁ : s₁.engine.loader.Tidy := by
      rw [hloader]
      exact htidy.of_slots rfl
    obtain ⟨htidy', hmemory', hspared', hregistry⟩ := ih htidy₁
    refine ⟨htidy', hmemory'.trans hmemory, hspared.trans hspared', fun name => ?_⟩
    rw [hregistry, hloader, Namespace.insert, NameMap.get?_insert, lastOf_cons]
    -- A later file of the same name replaces what this one was compiled to.
    cases lastOf rest name with
    | some last => rfl
    | none =>
      by_cases hname : p.name = name
      · rw [if_pos hname, if_pos hname.symm]
        rfl
      · rw [if_neg hname, if_neg (Ne.symm hname)]
        rfl

end

/-! ## The archive -/

/-- An archive binds each name to what the last file that declares it was compiled to. -/
structure Archived (passed : List Passed) (a : Archive) : Prop where
  /-- The names are listed in order, each once. -/
  ascending : a.names.Pairwise (· < ·)
  /-- They are those that the files declare. -/
  names : ∀ name, name ∈ a.names ↔ name ∈ passed.map Passed.name
  /-- The last file of a name counts. -/
  last : ∀ name, a.get? name = (lastOf passed name).map (·.compiled.artifact.bytes)

/-- Names that are listed once are as many as the different names among those they come from. -/
theorem length_eq_length_dedup {names declared : List String} (hnodup : names.Nodup)
    (h : ∀ name, name ∈ names ↔ name ∈ declared) : names.length = declared.dedup.length := by
  refine ((List.perm_ext_iff_of_nodup hnodup declared.nodup_dedup).2 fun name => ?_).length_eq
  rw [h, List.mem_dedup]

section

variable {options : OptionSet} {s : State} {w : World} {passed : List Passed} {archive : String}

/-- When all files passed, the registry of a fresh engine has their names, each with what its last
file was compiled to. -/
theorem registry_of_opened (h : PassesAll options (Console.opened w).state passed s)
    (name : String) : s.engine.loader.registry.get? name =
      (lastOf passed name).map (·.compiled.artifact.bytes) := by
  obtain ⟨-, -, -, hregistry⟩ := registry_of_passesAll h (tidy_opened w)
  exact (hregistry name).trans Option.or_none

/-- So as many artifacts are exported as the files have names. -/
theorem length_names_of_opened (h : PassesAll options (Console.opened w).state passed s) :
    s.engine.loader.registry.names.length = (passed.map Passed.name).dedup.length := by
  refine length_eq_length_dedup s.engine.loader.registry.names_nodup fun name => ?_
  rw [NameMap.mem_names, registry_of_opened h, Option.isSome_map, isSome_lastOf_iff]

/-- An archive of that registry within the limits is opened, and has what the files were compiled
to. -/
theorem archived_of_opened (h : PassesAll options (Console.opened w).state passed s)
    (hlimits : Archive.WithinLimits (Archive.encodeFile s.engine.loader.exported)) :
    ∃ a, Archive.ofFile archive (.ok (Archive.encodeFile s.engine.loader.exported)) = .ok a ∧
      Archived passed a := by
  obtain ⟨a, hopen, hget⟩ := Archive.ofFile_of_withinLimits archive hlimits
  have hlast (name : String) :
      a.get? name = (lastOf passed name).map (·.compiled.artifact.bytes) := by
    rw [hget, Namespace.find?_exported, registry_of_opened h]
  refine ⟨a, hopen, a.artifacts.names_pairwise, fun name => ?_, hlast⟩
  have hname : name ∈ a.names ↔ (a.get? name).isSome := NameMap.mem_names
  rw [hname, hlast, Option.isSome_map, isSome_lastOf_iff]

end

/-! ## Packing -/

/-- What comes of a command whose steps succeed. -/
theorem execute_of_ok {times : Times} {w : World} {c : Command} {after : Console}
    (h : c.steps times (Console.opened w) = .ok () after) :
    execute times w c = ⟨0, after.closed, after.state.world⟩ := by
  rw [execute_eq, h]

/-- And of one whose steps fail. -/
theorem execute_of_error {times : Times} {w : World} {c : Command} {failure : Failure}
    {after : Console} (h : c.steps times (Console.opened w) = .error failure after) :
    (execute times w c).status ≠ 0 ∧ (execute times w c).world = after.state.world := by
  rw [execute_eq, h]
  exact ⟨failure.status_ne_zero, rfl⟩

section

variable (times : Times) {w : World} (archive : String) {flags : BuildFlags} {s s' : State}
  {passed : List Passed}

/-- Where a file fails behind others that passed, so does the command. -/
theorem pack_of_fails {file : String} {failure : Failure}
    (h : PassesAll flags.options (Console.opened w).state passed s)
    (hfails : Fails flags.options s file failure s') (behind : List String) :
    ∃ screen, Command.steps times (.pack archive (passed.map Passed.file ++ file :: behind) flags)
      (Console.opened w) = .error failure ⟨s', screen⟩ := by
  obtain ⟨screen, hfiles⟩ := forM_of_fails h hfails behind .empty
  exact ⟨screen, bind_of_error hfiles⟩

/-- Where the export is refused, nothing is changed behind the files that passed. -/
theorem pack_of_refused {fault : FileFault}
    (h : PassesAll flags.options (Console.opened w).state passed s)
    (hwrite : s.world.files.write archive (Archive.encodeFile s.engine.loader.exported) =
      .error fault) :
    ∃ screen, Command.steps times (.pack archive (passed.map Passed.file) flags)
        (Console.opened w) = .error (.error (.io fault)) ⟨s, screen⟩ := by
  obtain ⟨screen, hfiles, -⟩ := forM_of_passesAll h .empty
  have hexport : Engine.exportArchive archive s = .error (.error (.io fault)) s := by
    rw [Engine.exportArchive_eq, hwrite]
  have hact : act Failure.ofEngine (Engine.exportArchive archive) ⟨s, screen⟩ =
      .error (.ofEngine (.error (.io fault))) ⟨s, screen⟩ := act_of_error hexport
  exact ⟨screen, (bind_of_ok hfiles).trans (bind_of_error hact)⟩

/-- Otherwise the archive is written, and the number of the names is printed. -/
theorem pack_of_written {files : Files}
    (h : PassesAll flags.options (Console.opened w).state passed s)
    (hwrite : s.world.files.write archive (Archive.encodeFile s.engine.loader.exported) =
      .ok files) :
    ∃ screen, Command.steps times (.pack archive (passed.map Passed.file) flags)
        (Console.opened w) = .ok () ⟨{ s with world := { s.world with files } }, screen⟩ ∧
      screen.out = [.own (progressLine "Packed"
        (toString (passed.map Passed.name).dedup.length ++ " artifact(s) into " ++ archive ++
          " in " ++ times.seconds ++ "s"))] := by
  obtain ⟨screen, hfiles, hout⟩ := forM_of_passesAll h .empty
  have hexport : Engine.exportArchive archive s =
      .ok s.engine.loader.artifacts.length { s with world := { s.world with files } } := by
    rw [Engine.exportArchive_eq, hwrite]
  have hact : ofAction (Engine.exportArchive archive) ⟨s, screen⟩ = .ok _ ⟨_, screen⟩ :=
    act_of_ok hexport
  obtain ⟨hcount, -⟩ := Engine.read_of_exportArchive hexport
  rw [← length_names_of_opened h, ← hcount]
  refine ⟨_, (bind_of_ok hfiles).trans (bind_of_ok hact), ?_⟩
  change screen.out ++ _ = _
  rw [hout]
  rfl

end

/-- **Packing is all or nothing.** If a file fails behind others that passed, the command fails. A
command that fails writes and removes no file. If it succeeds, all files passed, the number that is
printed is that of the different names, and the archive, if it is within the limits, is opened and
binds each name to what the last file that declares it was compiled to. -/
theorem pack_all_or_nothing (times : Times) (w : World) (archive : String) (files : List String)
    (flags : BuildFlags) :
    let outcome := execute times w (.pack archive files flags)
    (∀ passed s file behind failure s', files = passed.map Passed.file ++ file :: behind →
      PassesAll flags.options (Console.opened w).state passed s →
      Fails flags.options s file failure s' → outcome.status ≠ 0) ∧
    (outcome.status ≠ 0 → w.files.Spared outcome.world.files) ∧
    (outcome.status = 0 → ∃ passed s, passed.map Passed.file = files ∧
      PassesAll flags.options (Console.opened w).state passed s ∧
      outcome.screen.out = [.own (progressLine "Packed"
        (toString (passed.map Passed.name).dedup.length ++ " artifact(s) into " ++ archive ++
          " in " ++ times.seconds ++ "s"))] ∧
      ∃ content, outcome.world.files.read archive = .ok content ∧
        (Archive.WithinLimits content →
          ∃ a, Archive.ofFile archive (outcome.world.files.read archive) = .ok a ∧
            Archived passed a)) := by
  intro outcome
  refine ⟨?_, ?_⟩
  · -- A file that fails ends the command with its status, whatever stands behind it.
    rintro passed s file behind failure s' rfl hpassed hfails
    obtain ⟨screen, hrun⟩ := pack_of_fails times archive hpassed hfails behind
    exact (execute_of_error hrun).1
  -- Either all files passed, or some file fails behind those that did.
  rcases passesAll_or_fails flags.options files (Console.opened w).state with
    ⟨passed, s, rfl, hpassed⟩ | ⟨passed, s, file, behind, failure, s', rfl, hpassed, hfails⟩
  case inr =>
    obtain ⟨screen, hrun⟩ := pack_of_fails times archive hpassed hfails behind
    obtain ⟨htidy, -, hspared, -⟩ := registry_of_passesAll hpassed (tidy_opened w)
    obtain ⟨hstatus, hworld⟩ := execute_of_error hrun
    refine ⟨fun _ => ?_, fun hzero => absurd hzero hstatus⟩
    rw [hworld]
    exact hspared.trans (hfails.spared htidy)
  obtain ⟨-, hmemory, hspared, -⟩ := registry_of_passesAll hpassed (tidy_opened w)
  -- All files passed, so only writing the archive may fail.
  cases hwrite : s.world.files.write archive (Archive.encodeFile s.engine.loader.exported) with
  | error fault =>
    -- It is refused, and then nothing was written.
    obtain ⟨screen, hrun⟩ := pack_of_refused times archive hpassed hwrite
    obtain ⟨hstatus, hworld⟩ := execute_of_error hrun
    refine ⟨fun _ => ?_, fun hzero => absurd hzero hstatus⟩
    rw [hworld]
    exact hspared
  | ok written =>
    obtain ⟨screen, hrun, hout⟩ := pack_of_written times archive hpassed hwrite
    have houtcome : outcome = ⟨0, screen, { s.world with files := written }⟩ :=
      (execute_of_ok hrun).trans (by rw [closed_of_empty hmemory])
    have hread : written.read archive = .ok (Archive.encodeFile s.engine.loader.exported) :=
      Files.read_of_write hwrite
    rw [houtcome]
    refine ⟨fun hne => absurd rfl hne, fun _ => ⟨passed, s, rfl, hpassed, hout, _, hread,
      fun hlimits => ?_⟩⟩
    dsimp only
    rw [hread]
    exact archived_of_opened hpassed hlimits

/-- A compiler that links one byte, another one for a public type than for a private one. -/
def sorting : Compiler where
  version := ⟨[49], .exited 0⟩
  platform := []
  compile i := ⟨true, [], some [if i.input.head? = some 'p' then 1 else 2], .exited 0, ⟨1⟩⟩

/-- Two files declare the same name. -/
def repeatedWorld : World where
  files := ⟨[(["f"], .file (Text.Utf8.encode "pub struct A;".toList)),
    (["g"], .file (Text.Utf8.encode "struct A;".toList)), (["a"], .directory),
    (["c"], .program sorting)]⟩
  environment := ⟨[("HOTLOAD_RUSTC", "./c"), ("HOTLOAD_SCRATCH_DIR", "a")]⟩
  images _ := none
  causes _ _ _ := ""
  draws := .counting
  memory := .empty
  calls := []

/-- What comes of packing both. -/
def repeatedOutcome : Outcome :=
  execute ⟨"0", "0"⟩ repeatedWorld (.pack "x" ["f", "g"] ⟨none, false, false, []⟩)

/-- One name is counted, and it has the byte of the second file. -/
theorem pack_all_or_nothing_repeated :
    repeatedOutcome.status = 0 ∧ ∃ passed a, passed.map Passed.file = ["f", "g"] ∧
      (passed.map Passed.name).dedup.length = 1 ∧ Archived passed a ∧ a.names = ["A"] ∧
      a.get? "A" = some [2] := by
  have hstatus : repeatedOutcome.status = 0 := by decide +kernel
  have hread : repeatedOutcome.world.files.read "x" = .ok (Archive.encodeFile [⟨"A", [2]⟩]) := by
    decide +kernel
  have hfound : (Archive.ofFile "x" (.ok (Archive.encodeFile [⟨"A", [2]⟩]))).toOption.map
      (fun a => (a.names, a.get? "A")) = some (["A"], some [2]) := by decide +kernel
  have hlimits : Archive.WithinLimits (Archive.encodeFile [⟨"A", [2]⟩]) :=
    ⟨by decide +kernel, by decide +kernel⟩
  have hpack := (pack_all_or_nothing ⟨"0", "0"⟩ repeatedWorld "x" ["f", "g"]
    ⟨none, false, false, []⟩).2.2
  rw [← repeatedOutcome] at hpack
  generalize repeatedOutcome = outcome at hstatus hread hpack ⊢
  obtain ⟨passed, s, hfiles, -, -, content, hcontent, harchive⟩ := hpack hstatus
  rw [hread] at hcontent harchive
  obtain rfl := Except.ok.inj hcontent
  obtain ⟨a, hopen, harchived⟩ := harchive hlimits
  rw [hopen] at hfound
  obtain ⟨hnames, hget⟩ := Prod.mk.inj (Option.some.inj hfound)
  refine ⟨hstatus, passed, a, hfiles, ?_, harchived, hnames, hget⟩
  rw [← length_eq_length_dedup a.artifacts.names_nodup harchived.names]
  exact congrArg List.length hnames

end CommandLine

end UnitLoader
