import UnitLoader.Proofs.Engine.Detection

/-!
# The same compilation in two processes

Files and variables are there for every process (`World.Beside`), but each draws the names of its
own scratch directories, so the compiler is told to link at another path. A unit that one process
compiles is compiled to the same bytes by another one (`CompilesBeside.compileWithin`) if the
compiler makes the same of a text in every scratch directory (`Compiler.Steady`), the other process
finds a name that is free, and no name that either may draw is on a way to the compiler (`Aside`).

The second process comes as far as the first one did. It finds the compiler, since it looks at the
same files and variables (`Tells.beside`); it makes a scratch directory where the first one did
(`make_beside`); and the compiler does there what it did before (`compileIn_beside`).
-/

namespace UnitLoader

/-- Two runs of a compiler come to the same, whatever is written to their logs. -/
structure Compilation.Same (run run' : Compilation) : Prop where
  /-- The same is linked. -/
  artifact : run'.artifact = run.artifact
  /-- They end the same way. -/
  ending : run'.ending = run.ending
  /-- They end within the same limits. -/
  takes : run'.takes = run.takes

/-- A compiler makes the same of a text in every scratch directory. -/
def Compiler.Steady (c : Compiler) : Prop :=
  ∀ (scratch scratch' : Engine.Scratch) (u : SourceUnit) (text : List Char) (options : OptionSet),
    (c.compile (Engine.invocationFor scratch u text options)).Same
      (c.compile (Engine.invocationFor scratch' u text options))

/-- Two processes have the same files and variables. -/
structure World.Beside (w w' : World) : Prop where
  /-- The files. -/
  files : w'.files = w.files
  /-- The environment variables. -/
  environment : w'.environment = w.environment

namespace Engine

open UnitLoader.Engine.Action
open Text (Duration)

/-! ## Finding the compiler -/

/-- A compiler is found and tells its version. -/
structure Tells (c : Config) (w : World) (t : Toolchain) : Prop where
  /-- Its path is found. -/
  find : findCompiler c w = .ok t.path
  /-- The program that is run there tells the version. -/
  version : ∃ compiler, compilerAt w t.path = .ok compiler ∧
    versionOf t.path compiler.version = .ok t.version

/-- It is found beside as well. -/
theorem Tells.beside {c : Config} {w w' : World} {t : Toolchain} (h : Tells c w t)
    (hbeside : w.Beside w') : Tells c w' t := by
  have hfind : findCompiler c w' = findCompiler c w := by
    unfold findCompiler World.searchPath
    rw [hbeside.files, hbeside.environment]
  have hat : compilerAt w' t.path = compilerAt w t.path := by
    unfold compilerAt World.searchPath
    rw [hbeside.files, hbeside.environment]
  exact ⟨hfind ▸ h.find, hat ▸ h.version⟩

/-- A search comes to a compiler exactly if one is found that tells its version. -/
theorem searchToolchain_eq_ok {s s₁ : State} {t : Toolchain} :
    searchToolchain s = .ok (.ok t) s₁ ↔ Tells s.engine.config s.world t ∧
      s₁ = { s with world := { s.world with calls := .version t.path :: s.world.calls } } := by
  rw [searchToolchain, get_bind]
  constructor
  · intro hrun
    cases hfind : findCompiler s.engine.config s.world with
    | error reason =>
      rw [hfind] at hrun
      obtain ⟨hfound, -⟩ := EStateM.Result.ok.inj hrun
      contradiction
    | ok path =>
      rw [hfind] at hrun
      dsimp only at hrun
      cases hat : compilerAt s.world path with
      | error fault =>
        rw [hat] at hrun
        obtain ⟨hfound, -⟩ := EStateM.Result.ok.inj hrun
        contradiction
      | ok compiler =>
        -- A program is run, so the search comes to what its answer is read as.
        rw [hat] at hrun
        obtain ⟨hfound, rfl⟩ := EStateM.Result.ok.inj hrun
        cases hversion : versionOf path compiler.version with
        | error reason =>
          rw [hversion] at hfound
          contradiction
        | ok version =>
          rw [hversion] at hfound
          obtain rfl := Except.ok.inj hfound
          exact ⟨⟨hfind, compiler, hat, hversion⟩, rfl⟩
  · rintro ⟨⟨hfind, compiler, hat, hversion⟩, rfl⟩
    rw [hfind]
    dsimp only
    rw [hat]
    dsimp only
    rw [hversion]
    rfl

/-- So an engine that has not searched has a compiler exactly then. -/
theorem requireToolchain_eq_ok {s s₁ : State} {t : Toolchain} (h : s.engine.toolchain = none) :
    requireToolchain s = .ok t s₁ ↔ Tells s.engine.config s.world t ∧
      s₁ = { s with
        engine := { s.engine with toolchain := some (.ok t) }
        world := { s.world with calls := .version t.path :: s.world.calls } } := by
  constructor
  · intro hrun
    obtain ⟨found, asked, -, hsearch⟩ := searchToolchain_eq s
    cases found with
    | error reason =>
      obtain ⟨log, hfails⟩ := requireToolchain_of_untold h hsearch
      rw [hfails] at hrun
      contradiction
    | ok t =>
      rw [requireToolchain_of_told h hsearch] at hrun
      obtain ⟨rfl, rfl⟩ := EStateM.Result.ok.inj hrun
      obtain ⟨htells, hs⟩ := searchToolchain_eq_ok.1 hsearch
      rw [hs]
      exact ⟨htells, rfl⟩
  · rintro ⟨htells, rfl⟩
    exact requireToolchain_of_told h (searchToolchain_eq_ok.2 ⟨htells, rfl⟩)

/-! ## Names that are drawn -/

/-- A name that is found is not taken, and it was drawn. -/
theorem free?_eq_some {d : Draws} {stem name : String} {taken : List String}
    {left drawn drawn' : Nat} (h : d.free? stem taken left drawn = some (name, drawn')) :
    name ∉ taken ∧ ∃ n, name = stem ++ d.letters n := by
  induction left generalizing drawn with
  | zero => contradiction
  | succ left ih =>
    rw [Draws.free?] at h
    split at h
    · exact ih h
    · rename_i hfree
      obtain ⟨rfl, -⟩ := Prod.mk.inj (Option.some.inj h)
      exact ⟨hfree, drawn, rfl⟩

namespace Scratch

theorem length_drawn (d : Draws) (n : Nat) : (namePrefix ++ d.letters n).toList.length = 14 := by
  rw [String.toList_append, List.length_append, d.six n]
  rfl

/-- A directory can hold a name that is drawn. -/
theorem isEntryName_drawn (d : Draws) (n : Nat) :
    Files.IsEntryName (namePrefix ++ d.letters n) := by
  have hprefix : Files.IsEntryName namePrefix :=
    ⟨⟨'h', "otload-".toList, by decide, rfl⟩, by decide, by decide⟩
  refine hprefix.append (fun hslash => ?_) fun hnul => ?_
  · exact absurd (d.plain n _ hslash) (by decide)
  · exact absurd (d.plain n _ hnul) (by decide)

/-- It is not too long. -/
theorem byteLength_drawn_le (d : Draws) (n : Nat) :
    Text.byteLength (namePrefix ++ d.letters n).toList ≤ Files.longestName := by
  -- No character takes more than four bytes.
  have hbytes (text : List Char) : Text.byteLength text ≤ 4 * text.length := by
    induction text with
    | nil => exact Nat.le_refl 0
    | cons c rest ih =>
      have hsize := Char.utf8Size_le_four c
      have hcons : Text.byteLength (c :: rest) = c.utf8Size + Text.byteLength rest := rfl
      rw [hcons, List.length_cons]
      omega
  have hall := hbytes (namePrefix ++ d.letters n).toList
  rw [length_drawn] at hall
  exact hall.trans (by decide)

/-! ## Making a scratch directory -/

/-- The directory that holds scratch directories. -/
def directory (root : Option String) : String := root.getD systemDirectory

/-- The names that are taken in a directory. -/
def taken (f : Files) (path : String) : List String :=
  (f.listing (if path = "" then "." else path)).getD []

/-- The directories of the scratch root can be made. -/
def Reachable (root : Option String) (f : Files) : Prop :=
  ∀ path, root = some path → (f.makeDirectories path).1 = .ok ()

theorem makeIn_eq_ok {path : String} {scratch : Scratch} {s s₁ : State} :
    makeIn path s = .ok scratch s₁ ↔ ∃ name drawn files,
      s.world.draws.free? namePrefix (taken s.world.files path) Draws.tries s.usage.drawn =
        some (name, drawn) ∧
      s.world.files.makeDirectory (Files.join path name) = .ok files ∧
      scratch = ⟨Files.join path name⟩ ∧
      s₁ = { s with world := { s.world with files }, usage := { s.usage with drawn } } := by
  have hname : makeIn path s = (newName (taken s.world.files path) >>= fun name => do
      setFiles (← ofFiles (s.world.files.makeDirectory (Files.join path name)))
      return ⟨Files.join path name⟩) s := rfl
  rw [hname]
  cases hfree : s.world.draws.free? namePrefix (taken s.world.files path) Draws.tries
      s.usage.drawn with
  | none =>
    -- No draw was free.
    have hnew : ∃ e s', newName (taken s.world.files path) s = .error e s' := by
      rw [newName, get_bind, hfree]
      exact ⟨_, _, rfl⟩
    obtain ⟨e, s', hnew⟩ := hnew
    rw [bind_of_error hnew]
    simp
  | some found =>
    obtain ⟨name, drawn⟩ := found
    have hnew : newName (taken s.world.files path) s =
        .ok name { s with usage := { s.usage with drawn } } := by
      rw [newName, get_bind, hfree]
      rfl
    rw [bind_of_ok hnew]
    simp only [Option.some.injEq, Prod.mk.injEq]
    constructor
    · -- A name was free, so it depends on the directory alone.
      intro hrun
      cases hmake : s.world.files.makeDirectory (Files.join path name) with
      | error fault =>
        rw [hmake] at hrun
        contradiction
      | ok files =>
        rw [hmake] at hrun
        obtain ⟨rfl, rfl⟩ := EStateM.Result.ok.inj hrun
        exact ⟨name, drawn, files, ⟨rfl, rfl⟩, hmake, rfl, rfl⟩
    · rintro ⟨_, _, files, ⟨rfl, rfl⟩, hmake, rfl, rfl⟩
      rw [hmake]
      rfl

theorem make_eq_ok {scratch : Scratch} {s s₁ : State} :
    make s = .ok scratch s₁ ↔
      Reachable s.engine.config.scratchRoot s.world.files ∧
        makeIn (directory s.engine.config.scratchRoot) { s with
          world := { s.world with
            files := s.world.files.rooted s.engine.config.scratchRoot } } = .ok scratch s₁ := by
  rw [make, get_bind]
  unfold Reachable
  cases s.engine.config.scratchRoot with
  -- In the directory of the system nothing has to be made first.
  | none => exact ⟨fun h => ⟨fun path hpath => (nomatch hpath), h⟩, fun h => h.2⟩
  | some root =>
    have hbelow : makeBelow (some root) s =
        (ofFiles (s.world.files.makeDirectories root).1 >>= fun _ => makeIn root)
          { s with world := { s.world with files := (s.world.files.makeDirectories root).2 } } :=
      rfl
    rw [hbelow]
    cases hway : (s.world.files.makeDirectories root).1 with
    | ok u =>
      refine ⟨fun h => ⟨fun path hpath => ?_, h⟩, fun h => h.2⟩
      obtain rfl := Option.some.inj hpath
      exact hway
    | error fault =>
      -- The way to the root cannot be made, so neither can the directory.
      refine ⟨fun h => ?_, fun h => ?_⟩
      · contradiction
      · have hreached := h.1 root rfl
        rw [hway] at hreached
        contradiction

/-- A scratch directory that is made in files is an entry of the directory for them, under a name
that was drawn. -/
structure MadeAt (d : Draws) (f : Files) (root : Option String) (p : Place) (name : String)
    (scratch : Scratch) : Prop where
  /-- The name was drawn. -/
  drawn : ∃ n, name = namePrefix ++ d.letters n
  /-- The names in the directory for scratch directories are those that are taken. -/
  taken_eq : taken f (directory root) = f.children p
  /-- The path of a name in it leads to its entry of this name. -/
  resolve : ∀ other, Files.IsEntryName other →
    Text.byteLength other.toList ≤ Files.longestName →
    f.resolve (Files.join (directory root) other) = .ok (p ++ [other])
  /-- Nothing stood where the scratch directory is made. -/
  opened : scratch.Opened f (p ++ [name])

theorem madeAt_of_make {scratch : Scratch} {s s₁ : State} (h : make s = .ok scratch s₁) :
    ∃ p name, MadeAt s.world.draws (s.world.files.rooted s.engine.config.scratchRoot)
        s.engine.config.scratchRoot p name scratch ∧ At s.engine.config s.engine.loader
      { s.world with files :=
          (s.world.files.rooted s.engine.config.scratchRoot).putDirectory (p ++ [name]) } s₁ := by
  obtain ⟨-, hmake⟩ := make_eq_ok.1 h
  obtain ⟨name, drawn, files, hfree, hfiles, rfl, rfl⟩ := makeIn_eq_ok.1 hmake
  obtain ⟨-, n, rfl⟩ := free?_eq_some hfree
  obtain ⟨place, hresolve, hnone, rfl⟩ := makeDirectory_eq_ok hfiles
  obtain ⟨p, rfl, -, hlisting, hothers⟩ :=
    Files.directory_of_join hresolve (isEntryName_drawn s.world.draws n)
  refine ⟨p, _, ⟨⟨n, rfl⟩, ?_, hothers, hresolve, hnone⟩, rfl, rfl, rfl⟩
  rw [taken, hlisting, Option.getD_some]

/-- Where one process makes a scratch directory, another one can if it finds a name. -/
theorem make_beside {scratch : Scratch} {s s' s₁ : State} (h : make s = .ok scratch s₁)
    (hconfig : s'.engine.config = s.engine.config) (hfiles : s'.world.files = s.world.files)
    (hname : (s'.world.draws.free? namePrefix
      (taken (s.world.files.rooted s.engine.config.scratchRoot)
        (directory s.engine.config.scratchRoot)) Draws.tries s'.usage.drawn).isSome = true) :
    ∃ scratch' s₁', make s' = .ok scratch' s₁' := by
  obtain ⟨p, _, hmade, -⟩ := madeAt_of_make h
  obtain ⟨hreachable, -⟩ := make_eq_ok.1 h
  obtain ⟨⟨name, drawn⟩, hfree⟩ := Option.isSome_iff_exists.1 hname
  obtain ⟨hnew, n, rfl⟩ := free?_eq_some hfree
  have hentry := isEntryName_drawn s'.world.draws n
  -- The name is none of those in the directory, so nothing stands at its place.
  have htop : ¬Files.IsTop (p ++ [namePrefix ++ s'.world.draws.letters n]) := by
    rintro (hnil | hroot)
    · exact List.append_ne_nil_of_right_ne_nil _ (List.cons_ne_nil _ []) hnil
    · obtain ⟨-, hsame⟩ := List.append_inj' (hroot.trans (List.nil_append _).symm) rfl
      exact hentry.noSlash ((List.cons.inj hsame).1 ▸ List.mem_cons_self)
  rw [hmade.taken_eq, Files.mem_children_of_node? htop, not_not] at hnew
  have hmakes : (s.world.files.rooted s.engine.config.scratchRoot).makeDirectory
      (Files.join (directory s.engine.config.scratchRoot)
        (namePrefix ++ s'.world.draws.letters n)) =
      .ok ((s.world.files.rooted s.engine.config.scratchRoot).putDirectory
        (p ++ [namePrefix ++ s'.world.draws.letters n])) := by
    rw [Files.makeDirectory, hmade.resolve _ hentry (byteLength_drawn_le _ n)]
    dsimp only
    rw [hnew]
  rw [← hconfig, ← hfiles] at hreachable hmakes hfree
  exact ⟨_, _, make_eq_ok.2 ⟨hreachable, makeIn_eq_ok.2 ⟨_, drawn, _, hfree, hmakes, rfl, rfl⟩⟩⟩

/-- The new directory does not change which program is the compiler, if its name is not on the way
to one. -/
theorem MadeAt.compilerIn_eq {d : Draws} {f : Files} {root : Option String} {scratch : Scratch}
    {p : Place} {name path : String} (h : MadeAt d f root p name scratch) (w : World)
    (u : SourceUnit) (hname : ∀ candidate ∈ path :: Files.candidates w.searchPath path,
      name ∉ Files.pathNames candidate.toList) :
    compilerIn w f (p ++ [name]) u path = compilerAt { w with files := f } path := by
  have htop := h.opened.not_isTop
  have hagree := ((Files.within_putDirectory htop f).put htop (logName u)
    (.file [])).agreeOutside htop
  exact Files.command_of_not_mem htop hagree hname

/-! ## Working in it -/

theorem during_eq_ok {α : Type} {body : Scratch → Action α} {value : α} {s s₁ : State} :
    during body s = .ok value s₁ ↔ ∃ scratch s₂ s₃, make s = .ok scratch s₂ ∧
      body scratch s₂ = .ok value s₃ ∧ scratch.discard s₃ = .ok () s₁ := by
  unfold during
  cases hmake : make s with
  | error e s₂ =>
    -- Without a directory nothing is done in it.
    rw [bind_of_error hmake]
    simp
  | ok scratch s₂ =>
    rw [bind_of_ok hmake]
    cases hbody : body scratch s₂ with
    | error e s₃ =>
      -- The directory is discarded behind a failure, too, which stays the result.
      have hattempt : attempt (body scratch) s₂ = .ok (.error e) s₃ := by rw [attempt, hbody]
      obtain ⟨s₄, hdiscard⟩ : ∃ s₄, scratch.discard s₃ = .ok () s₄ := ⟨_, rfl⟩
      rw [bind_of_ok hattempt, bind_of_ok hdiscard]
      change (EStateM.Result.error e s₄ : EStateM.Result Failure State α) = _ ↔ _
      simp [hbody]
    | ok found s₃ =>
      have hattempt : attempt (body scratch) s₂ = .ok (.ok found) s₃ := by rw [attempt, hbody]
      obtain ⟨s₄, hdiscard⟩ : ∃ s₄, scratch.discard s₃ = .ok () s₄ := ⟨_, rfl⟩
      rw [bind_of_ok hattempt, bind_of_ok hdiscard]
      change EStateM.Result.ok found s₄ = _ ↔ _
      constructor
      · intro h
        obtain ⟨rfl, rfl⟩ := EStateM.Result.ok.inj h
        exact ⟨scratch, s₂, s₃, rfl, hbody, hdiscard⟩
      · rintro ⟨_, _, s₅, hsame, hbody', hdiscard'⟩
        obtain ⟨rfl, rfl⟩ := EStateM.Result.ok.inj hsame
        rw [hbody] at hbody'
        obtain ⟨rfl, rfl⟩ := EStateM.Result.ok.inj hbody'
        rw [hdiscard] at hdiscard'
        obtain ⟨-, rfl⟩ := EStateM.Result.ok.inj hdiscard'
        rfl

end Scratch

/-! ## The compiler in both directories -/

section

variable {c : Config} {n : Namespace} {w w' : World} {f : Files} {place place' : Place}
  {scratch scratch' : Scratch} {u : SourceUnit} {d : Dispatch} {t : Toolchain}
  {options : OptionSet} {limit : Option Duration}

/-- In two scratch directories where the same steady compiler is found, the same is compiled. -/
theorem compileIn_beside {s₁ s₁' s₂ : State} {compiled : Compiled} (hn : n.Tidy)
    (hopened : scratch.Opened f place) (hopened' : scratch'.Opened f place')
    (hs₁ : At c n { w with files := f.putDirectory place } s₁)
    (hs₁' : At c n { w' with files := f.putDirectory place' } s₁')
    (hsame : compilerIn w' f place' u t.path = compilerIn w f place u t.path)
    (hsteady : ∀ compiler, compilerIn w f place u t.path = .ok compiler → compiler.Steady)
    (h : compileIn t u d options limit scratch s₁ = .ok compiled s₂) :
    ∃ compiled' s₂', compileIn t u d options limit scratch' s₁' = .ok compiled' s₂' ∧
      compiled'.artifact = compiled.artifact := by
  obtain ⟨run, calls, hruns, hlinks, hname, hpermitted, -⟩ :=
    (ensures_compileIn_cases hn hopened t d options limit).of_ok hs₁ h
  obtain ⟨compiler, hcompiler, hrun⟩ := hruns.compiles
  -- Whatever run there is in the second directory, it comes to the same as that in the first one.
  have hruns_same {calls' : List CompilerCall} {run' : Compilation}
      (hruns' : RunIn w' scratch' f place' u t.path (d.attach u.source.toList).text options calls'
        run') : run.Same run' := by
    obtain ⟨compiler', hcompiler', hrun'⟩ := hruns'.compiles
    rw [hsame, hcompiler] at hcompiler'
    obtain rfl := Except.ok.inj hcompiler'
    rw [hrun, hrun']
    exact hsteady compiler hcompiler scratch scratch' u _ options
  have hends {run' : Compilation} (hruns' : run.Same run') :
      endingWithin limit run' = endingWithin limit run := by
    unfold endingWithin
    rw [hruns'.takes, hruns'.ending]
  have hcases := ensures_compileIn_cases (c := c) (w := w') (u := u) hn hopened' t d options limit
  cases hrun' : compileIn t u d options limit scratch' s₁' with
  | ok compiled' s₂' =>
    -- Both artifacts hold what the compiler linked.
    obtain ⟨run', calls', hruns', hlinks', hname', -, -⟩ := hcases.of_ok hs₁' hrun'
    refine ⟨compiled', s₂', rfl, ?_⟩
    have hbytes : some compiled'.artifact.bytes = some compiled.artifact.bytes := by
      rw [← hlinks'.1, ← hlinks.1, (hruns_same hruns').artifact]
    rw [Artifact.mk.injEq]
    exact ⟨hname'.trans hname.symm, Option.some.inj hbytes⟩
  | error e s₂' =>
    rcases hcases.of_error hs₁' hrun' with ⟨-, hunready, -⟩ | ⟨run', calls', hruns', hfails, -⟩
    · -- The second directory is as ready as the first one was.
      rcases hunready with hlong | ⟨fault, hfault⟩
      · exact absurd hruns.short hlong
      · rw [hsame, hcompiler] at hfault
        contradiction
    · -- A run that comes to the same does not fail either.
      have hsame' := hruns_same hruns'
      have hwell := hlinks.2
      rw [← hends hsame'] at hwell
      cases hfails with
      | late hlate =>
        -- It would have been late in the first directory as well,
        rw [hlate] at hwell
        contradiction
      | ill hending hill =>
        -- or have linked nothing there,
        rw [hending] at hwell
        have hlinked : run'.artifact.isSome = true := by rw [hsame'.artifact, hlinks.1]; rfl
        exact absurd (Bool.and_eq_true_iff.2 ⟨hwell, hlinked⟩) (ne_true_of_eq_false hill)
      | refused hending hwell hrefused =>
        -- or its artifact would have been refused.
        have hpolicy := hpermitted hrefused.1
        rw [hrefused.2.1] at hpolicy
        contradiction

end

/-! ## The whole compilation -/

/-- The names that a process may draw are not on the way to the program of a path. -/
def Aside (w : World) (path : String) : Prop :=
  ∀ candidate ∈ path :: Files.candidates w.searchPath path, ∀ n,
    Scratch.namePrefix ++ w.draws.letters n ∉ Files.pathNames candidate.toList

/-- With the compiler that was found, a process compiles to the same what another one compiles
beside it. -/
theorem compileWith_beside {s s' s₁ : State} {name source : String} {options : OptionSet}
    {limit : Option Duration} {t : Toolchain} {compiled : Compiled}
    (hrun : compileWith name source options limit t s = .ok compiled s₁)
    (hn : s.engine.loader.Tidy) (hconfig : s'.engine.config = s.engine.config)
    (hloader : s'.engine.loader = s.engine.loader) (hbeside : s.world.Beside s'.world)
    (hsteady : ∀ compiler, compilerAt { s.world with
      files := s.world.files.rooted s.engine.config.scratchRoot } t.path = .ok compiler →
        compiler.Steady)
    (hname : (s'.world.draws.free? Scratch.namePrefix
      (Scratch.taken (s.world.files.rooted s.engine.config.scratchRoot)
        (Scratch.directory s.engine.config.scratchRoot)) Draws.tries s'.usage.drawn).isSome = true)
    (haside : Aside s.world t.path) (haside' : Aside s'.world t.path) :
    ∃ compiled' s₁', compileWith name source options limit t s' = .ok compiled' s₁' ∧
      compiled'.artifact = compiled.artifact := by
  -- What the first process went through, and that the second one has a directory as well.
  obtain ⟨d, s₂, hdispatch, hduring⟩ := bind_eq_ok hrun
  obtain ⟨hd, rfl⟩ := dispatchOf_eq_ok.1 hdispatch
  obtain ⟨scratch, s₃, s₄, hmake, hbody, -⟩ := Scratch.during_eq_ok.1 hduring
  obtain ⟨scratch', s₃', hmake'⟩ := Scratch.make_beside hmake hconfig hbeside.files hname
  obtain ⟨p, drawn, hmade, hs₃⟩ := Scratch.madeAt_of_make hmake
  obtain ⟨p', drawn', hmade', hs₃'⟩ := Scratch.madeAt_of_make hmake'
  rw [hconfig, hbeside.files] at hmade'
  rw [hconfig, hloader, hbeside.files] at hs₃'
  generalize hf : s.world.files.rooted s.engine.config.scratchRoot = f at hmade hs₃ hmade' hs₃'
  -- Neither directory lies on a way to the compiler, so both processes run the same one.
  have hcompiler : compilerIn s.world f (p ++ [drawn]) ⟨name, source⟩ t.path =
      compilerAt { s.world with files := f } t.path := by
    obtain ⟨n, rfl⟩ := hmade.drawn
    exact hmade.compilerIn_eq _ _ fun candidate hcandidate => haside candidate hcandidate n
  have hcompiler' : compilerIn s'.world f (p' ++ [drawn']) ⟨name, source⟩ t.path =
      compilerAt { s.world with files := f } t.path := by
    obtain ⟨n, rfl⟩ := hmade'.drawn
    refine (hmade'.compilerIn_eq _ _ fun candidate hcandidate =>
      haside' candidate hcandidate n).trans ?_
    unfold compilerAt World.searchPath
    rw [hbeside.environment]
  have hsteady' (compiler : Compiler)
      (hfound : compilerIn s.world f (p ++ [drawn]) ⟨name, source⟩ t.path = .ok compiler) :
      compiler.Steady := by
    rw [hcompiler, ← hf] at hfound
    exact hsteady compiler hfound
  -- So it comes to the same there.
  obtain ⟨compiled', s₄', hbody', hartifact⟩ := compileIn_beside hn hmade.opened hmade'.opened
    hs₃ hs₃' (hcompiler'.trans hcompiler.symm) hsteady' hbody
  obtain ⟨s₁', hdiscard⟩ : ∃ s₁', scratch'.discard s₄' = .ok () s₁' := ⟨_, rfl⟩
  refine ⟨compiled', s₁', ?_, hartifact⟩
  unfold compileWith
  rw [bind_of_ok (dispatchOf_eq_ok.2 ⟨hd, rfl⟩)]
  exact Scratch.during_eq_ok.2 ⟨scratch', s₃', s₄', hmake', hbody', hdiscard⟩

/-- What it takes for a process that has just started to compile what another one compiled. -/
structure CompilesBeside (c : Config) (w w' : World) : Prop where
  /-- They have the same files and variables. -/
  beside : w.Beside w'
  /-- The compiler is steady. -/
  steady : ∀ path compiler, findCompiler c w = .ok path →
    compilerAt { w with files := w.files.rooted c.scratchRoot } path = .ok compiler →
      compiler.Steady
  /-- The one process finds a name that is free. -/
  findsName : (w'.draws.free? Scratch.namePrefix
    (Scratch.taken (w'.files.rooted c.scratchRoot) (Scratch.directory c.scratchRoot))
    Draws.tries 0).isSome = true
  /-- Its names are not on the way to the compiler. -/
  aside : ∀ path, findCompiler c w' = .ok path → Aside w' path
  /-- Nor are those of the other one. -/
  aside_other : ∀ path, findCompiler c w = .ok path → Aside w path

/-- Then it compiles to the same. -/
theorem CompilesBeside.compileWithin {c : Config} {w w' : World} (h : CompilesBeside c w w')
    {log : List LogLine} {name source : String} {options : OptionSet} {limit : Option Duration}
    {compiled : Compiled} {s₁ : State}
    (hrun : compileWithin name source options limit (start c w log) = .ok compiled s₁)
    (log' : List LogLine) :
    ∃ compiled' s₁', Engine.compileWithin name source options limit (start c w' log') =
      .ok compiled' s₁' ∧ compiled'.artifact = compiled.artifact := by
  obtain ⟨t, s₂, hrequire, hcompile⟩ := bind_eq_ok hrun
  obtain ⟨htells, rfl⟩ := (requireToolchain_eq_ok rfl).1 hrequire
  have htells' := htells.beside h.beside
  unfold Engine.compileWithin
  rw [bind_of_ok ((requireToolchain_eq_ok (s := start c w' log') rfl).2 ⟨htells', rfl⟩)]
  have hfinds := h.findsName
  rw [h.beside.files] at hfinds
  exact compileWith_beside hcompile (Namespace.tidy_empty c.policy) rfl rfl
    ⟨h.beside.files, h.beside.environment⟩
    (fun compiler hcompiler => h.steady t.path compiler htells.find hcompiler) hfinds
    (h.aside_other t.path htells.find) (h.aside t.path htells'.find)

end Engine

end UnitLoader
