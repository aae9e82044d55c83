import UnitLoader.Engine.Compile
import UnitLoader.Proofs.Engine.Scratch
import UnitLoader.Proofs.Namespace

/-!
# What a compilation changes

A compilation has many points where it can fail: the compiler is not found, there is no dispatch
module or no scratch directory, a file cannot be written, the compiler ends badly or not in time,
nothing was linked, or the artifact is refused. `ensures_delivers` says that at each of them the
namespace is still what it was, and that a compilation that succeeds has changed nothing of it but
the registered bytes of the name, which are those that the compiler linked. Once the compiler has
linked something and ended well in time (`Delivers`), only the namespace can still refuse it, since
the scratch directory holds everything that is read from then on (`Holds`).
-/

namespace UnitLoader.Engine

open UnitLoader.Engine.Action
open Text (Duration)

variable {c : Config} {n : Namespace} {w : World} {E : Failure → State → Prop}

/-! ## Calls of compilers -/

/-- Since a world was left, a compiler was at most asked for its version. -/
def Asked (w : World) (calls : List CompilerCall) : Prop :=
  calls = w.calls ∨ ∃ path, calls = .version path :: w.calls

/-- Since a world was left, a compiler of it was given a text, and this run came of it. -/
def Called (w : World) (text : List Char) (calls : List CompilerCall) (run : Compilation) : Prop :=
  ∃ path invocation, calls = .compile path invocation run :: w.calls ∧ invocation.input = text ∧
    ∃ files compiler, compilerAt { w with files } path = .ok compiler ∧
      run = compiler.compile invocation

/-- The program that is run as the compiler of a path while nothing stands in the scratch directory
at a place but the log of a unit. -/
def compilerIn (w : World) (f : Files) (place : Place) (u : SourceUnit) (path : String) :
    Except FileFault Compiler :=
  compilerAt { w with
    files := (f.putDirectory place).put (place ++ [Scratch.logName u]) (.file []) } path

/-- The compiler of a path cannot be given a unit in the scratch directory at a place: the log
cannot be opened, or there is no such compiler. -/
def Unready (w : World) (f : Files) (place : Place) (u : SourceUnit) (path : String) : Prop :=
  ¬Text.byteLength (Scratch.logName u).toList ≤ Files.longestName ∨
    ∃ fault, compilerIn w f place u path = .error fault

/-- In the scratch directory at a place the compiler of a path was given the text of a unit, and
this run came of it. -/
structure RunIn (w : World) (scratch : Scratch) (f : Files) (place : Place) (u : SourceUnit)
    (path : String) (text : List Char) (options : OptionSet) (calls : List CompilerCall)
    (run : Compilation) : Prop where
  /-- The log could be opened. -/
  short : Text.byteLength (Scratch.logName u).toList ≤ Files.longestName
  /-- There is the compiler, and the run is what it does. -/
  compiles : ∃ compiler, compilerIn w f place u path = .ok compiler ∧
    run = compiler.compile (invocationFor scratch u text options)
  /-- That was the latest call. -/
  call : calls = .compile path (invocationFor scratch u text options) run :: w.calls

/-- Since a world was left, a compiler of it was given the source of a unit with a dispatch module
in it, and this run came of it. -/
def Ran (w : World) (u : SourceUnit) (calls : List CompilerCall) (run : Compilation) : Prop :=
  ∃ earlier d, Asked w earlier ∧ Dispatch.generate u = .ok d ∧
    Called { w with calls := earlier } (d.attach u.source.toList).text calls run

/-- A run links bytes and ends well within a time limit. -/
def Links (limit : Option Duration) (run : Compilation) (bytes : List UInt8) : Prop :=
  run.artifact = some bytes ∧ (endingWithin limit run).any Ending.isSuccess = true

/-- Since a world was left, a unit was compiled to bytes, within a time limit. -/
def Delivers (w : World) (u : SourceUnit) (limit : Option Duration) (calls : List CompilerCall)
    (bytes : List UInt8) : Prop := ∃ run, Ran w u calls run ∧ Links limit run bytes

/-- Bytes are what the compiler of a world linked in the latest call. -/
def LinkedBy (w : World) (calls : List CompilerCall) (bytes : List UInt8) : Prop :=
  ∃ path invocation run earlier, calls = .compile path invocation run :: earlier ∧
    run.artifact = some bytes ∧
    ∃ files compiler, compilerAt { w with files } path = .ok compiler ∧
      run = compiler.compile invocation

section

variable {u : SourceUnit} {limit : Option Duration} {calls : List CompilerCall}
  {bytes : List UInt8} {run run' : Compilation}

/-- A run in a scratch directory is one of a compiler of the world. -/
theorem RunIn.called {scratch : Scratch} {f : Files} {place : Place} {path : String}
    {text : List Char} {options : OptionSet}
    (h : RunIn w scratch f place u path text options calls run) : Called w text calls run := by
  obtain ⟨compiler, hcompiler, hrun⟩ := h.compiles
  exact ⟨path, _, h.call, rfl, _, compiler, hcompiler, hrun⟩

/-- The latest call tells which run it was. -/
theorem Ran.unique (h : Ran w u calls run) (h' : Ran w u calls run') : run' = run := by
  obtain ⟨earlier, d, -, -, path, invocation, hcalls, -⟩ := h
  obtain ⟨earlier', d', -, -, path', invocation', hcalls', -⟩ := h'
  rw [hcalls'] at hcalls
  exact (CompilerCall.compile.inj (List.cons.inj hcalls).1).2.2

/-- As long as no text was given to a compiler, there was no run. -/
theorem not_ran_of_asked (h : Asked w calls) : ¬Ran w u calls run := by
  rintro ⟨earlier, -, hearlier, -, path, invocation, hcalls, -⟩
  rcases h with rfl | ⟨version, rfl⟩
  · -- More calls were made than there are.
    have hlength := congrArg List.length hcalls
    rcases hearlier with rfl | ⟨version, rfl⟩
    all_goals
      simp only [List.length_cons] at hlength
      omega
  · cases (List.cons.inj hcalls).1

/-- So nothing was compiled. -/
theorem not_delivers_of_asked (h : Asked w calls) : ¬Delivers w u limit calls bytes :=
  fun ⟨_, hran, _⟩ => not_ran_of_asked h hran

/-- What a unit was compiled to was linked in the latest call. -/
theorem Delivers.linkedBy (h : Delivers w u limit calls bytes) : LinkedBy w calls bytes := by
  obtain ⟨run, ⟨earlier, -, -, -, path, invocation, hcalls, -, hcompiler⟩, hbytes, -⟩ := h
  exact ⟨path, invocation, run, earlier, hcalls, hbytes, hcompiler⟩

end

/-! ## Before the scratch directory -/

/-- The search for the compiler changes nothing but the calls of compilers. -/
theorem ensures_searchToolchain :
    Ensures (At c n w) searchToolchain
      (fun _ s => ∃ calls, Asked w calls ∧ At c n { w with calls } s) E := by
  refine ensures_get fun s hs => ?_
  split
  · exact ensures_pure fun s hs => ⟨w.calls, .inl rfl, hs⟩
  split
  · exact ensures_pure fun s hs => ⟨w.calls, .inl rfl, hs⟩
  · exact (ensures_called _).bind fun _ => ensures_pure fun s hs => ⟨_, .inr ⟨_, rfl⟩, hs⟩

/-- Neither does asking for the compiler, whether there is one or not. -/
theorem ensures_requireToolchain :
    Ensures (At c n w) requireToolchain
      (fun _ s => ∃ calls, Asked w calls ∧ At c n { w with calls } s)
      (fun e s => ¬e.IsReport ∧ ∃ calls, Asked w calls ∧ At c n { w with calls } s) := by
  have hreport (reason : String) :
      ¬Failure.IsReport (.error (.toolchainUnavailable reason)) := by
    rintro ⟨name, found, h⟩
    cases h
  refine ensures_get fun s hs => ?_
  split
  · exact ensures_pure fun s hs => ⟨w.calls, .inl rfl, hs⟩
  · exact ensures_throw fun s hs => ⟨hreport _, w.calls, .inl rfl, hs⟩
  · refine ensures_searchToolchain.bind fun found => ensures_exists fun calls =>
      ensures_and fun hasked => ?_
    refine (ensures_keepToolchain found).bind fun _ => ?_
    split
    · exact ensures_pure fun s hs => ⟨calls, hasked, hs⟩
    · exact (ensures_tell _).bind fun _ => ensures_throw fun s hs =>
        ⟨hreport _, calls, hasked, hs⟩

theorem dispatchOf_eq_ok {u : SourceUnit} {d : Dispatch} {s s₁ : State} :
    dispatchOf u s = .ok d s₁ ↔ Dispatch.generate u = .ok d ∧ s = s₁ := by
  unfold dispatchOf
  cases Dispatch.generate u with
  | ok found =>
    change EStateM.Result.ok found s = _ ↔ _
    rw [EStateM.Result.ok.injEq, Except.ok.injEq]
  | error fault => exact ⟨fun h => (nomatch h), fun h => (nomatch h.1)⟩

theorem ensures_dispatchOf (u : SourceUnit) :
    Ensures (At c n w) (dispatchOf u)
      (fun d s => Dispatch.generate u = .ok d ∧ At c n w s)
      (fun e s => ¬e.IsReport ∧ At c n w s) := by
  unfold dispatchOf
  split
  · rename_i d hd
    exact ensures_pure fun s hs => ⟨hd, hs⟩
  · refine ensures_throw fun s hs => ⟨?_, hs⟩
    rintro ⟨name, found, h⟩
    cases h

/-! ## The compiler -/

/-- The compiler is told to link where the artifact is looked for. -/
theorem outputPath?_invocationFor (scratch : Scratch) (u : SourceUnit) (text : List Char)
    (options : OptionSet) :
    (invocationFor scratch u text options).outputPath? = some (scratch.artifactPath u) := by
  -- The name of a crate is not taken for the option.
  have hcrate : u.crateName ≠ "-o" := by
    intro same
    obtain ⟨first, rest, -, hchars⟩ := (Scratch.isEntryName_crateName u).starts
    have hhead : u.crateName.toList.head? = some 'h' := by
      rw [SourceUnit.crateName, SourceUnit.crateNameOf, String.toList_append]
      rfl
    rw [same] at hhead
    contradiction
  simp [Invocation.outputPath?, invocationFor, compilerArguments, hcrate]

/-- The directory at a place holds what a run of a compiler leaves there for a unit. -/
structure Holds (f : Files) (place : Place) (u : SourceUnit) (run : Compilation) (g : Files) :
    Prop where
  /-- Nothing differs outside of it. -/
  within : f.Within place g
  /-- The library stands in it, if one was linked. -/
  library : g.node? (place ++ [u.libraryName]) = run.artifact.map .file
  /-- So does the log. -/
  log : g.node? (place ++ [Scratch.logName u]) = some (.file run.log)
  /-- Its name is not too long. -/
  short : Text.byteLength (Scratch.logName u).toList ≤ Files.longestName

section

variable {scratch : Scratch} {f g : Files} {place : Place} {u : SourceUnit} {run : Compilation}

/-- The log can be read. -/
theorem Holds.read_log (h : Holds f place u run g) (hopened : scratch.Opened f place) :
    g.read (scratch.logPath u) = .ok run.log := by
  rw [Files.read, Scratch.logPath, Files.find_join (hopened.resolve_within h.within)
    h.within.directory (Scratch.isEntryName_logName u) h.short, h.log]

/-- The library is found exactly if one was linked. -/
theorem Holds.find_library (h : Holds f place u run g) (hopened : scratch.Opened f place) :
    g.find (scratch.artifactPath u) =
      match run.artifact with
      | none => .error .notFound
      | some bytes => .ok (.file bytes) := by
  have hshort := (Scratch.byteLength_libraryName_le u).trans h.short
  rw [Scratch.artifactPath, Files.find_join (hopened.resolve_within h.within)
    h.within.directory (Scratch.isEntryName_libraryName u) hshort, h.library]
  cases run.artifact <;> rfl

theorem Holds.isSome_find_library (h : Holds f place u run g) (hopened : scratch.Opened f place) :
    (g.find (scratch.artifactPath u)).toOption.isSome = run.artifact.isSome := by
  rw [h.find_library hopened]
  cases run.artifact <;> rfl

/-- It is read as it was linked. -/
theorem Holds.read_library (h : Holds f place u run g) (hopened : scratch.Opened f place) :
    g.read (scratch.artifactPath u) =
      match run.artifact with
      | none => .error .notFound
      | some bytes => .ok bytes := by
  rw [Files.read, h.find_library hopened]
  cases run.artifact <;> rfl

/-- A compilation runs in the scratch directory. It fails only before it gives the text to the
compiler. -/
theorem ensures_runCompiler (h : scratch.Opened f place) (t : Toolchain) (u : SourceUnit)
    (text : List Char) (options : OptionSet) :
    Ensures (At c n { w with files := f.putDirectory place })
      (runCompiler t scratch u text options)
      (fun run s => ∃ g calls, Holds f place u run g ∧
        RunIn w scratch f place u t.path text options calls run ∧
        At c n { w with files := g, calls } s)
      (fun e s => ¬e.IsReport ∧ Unready w f place u t.path ∧ WorkingAt c n w f place s) := by
  have htop := h.not_isTop
  have hlog := Scratch.isEntryName_logName u
  have hlibrary := Scratch.isEntryName_libraryName u
  have hg := Files.within_putDirectory htop f
  -- The log is opened.
  refine Ensures.bind ((Scratch.ensures_writeEntry h hg hlog
    (by simp [h.node?_putDirectory]) []).mono_error fun _ s ⟨hlong, hreport, hs⟩ =>
      ⟨hreport, .inl hlong, _, hg, hs⟩) fun _ => ensures_and fun hshort => ?_
  have hg := hg.put htop (Scratch.logName u) (.file [])
  -- The compiler is looked for where it was found before.
  refine ensures_get fun s hs => ?_
  rw [hs.world]
  refine (ensures_ofFiles fun fault s hfault hs =>
    ⟨not_isReport_io fault, .inr ⟨fault, hfault⟩, _, hg, hs⟩).bind
    fun compiler => ensures_and fun hfound => ?_
  dsimp only
  have houtput := outputPath?_invocationFor scratch u text options
  generalize hinvocation : invocationFor scratch u text options = invocation at houtput
  generalize hrun : compiler.compile invocation = run
  -- It runs, and the log is kept.
  refine (ensures_called _).bind fun _ => ?_
  dsimp only
  have hruns : RunIn w scratch f place u t.path text options
      (.compile t.path invocation run :: w.calls) run :=
    ⟨hshort, ⟨compiler, hfound, by rw [hinvocation, hrun]⟩, by rw [hinvocation]⟩
  generalize CompilerCall.compile t.path invocation run :: w.calls = calls at hruns
  refine Ensures.bind ((Scratch.ensures_writeEntry (c := c) (n := n) (w := { w with calls }) h hg
    hlog ?_ run.log).mono_error fun _ s ⟨hlong, _⟩ => absurd hshort hlong)
    fun _ => ensures_and fun _ => ?_
  · rw [h.node?_put, if_pos rfl]
    exact fun same => by cases same
  have hg := hg.put htop (Scratch.logName u) (.file run.log)
  -- So far there is no library.
  have hne := Scratch.libraryName_ne_logName u u
  have hmissing : (((f.putDirectory place).put (place ++ [Scratch.logName u]) (.file [])).put
      (place ++ [Scratch.logName u]) (.file run.log)).node? (place ++ [u.libraryName]) = none := by
    rw [h.node?_put, if_neg hne, h.node?_put, if_neg hne, h.node?_putDirectory]
  rw [houtput]
  cases hartifact : run.artifact with
  | none =>
    refine ensures_pure fun s hs => ⟨_, _, ⟨hg, ?_, ?_, hshort⟩, hruns, hs⟩
    · rw [hmissing, hartifact]
      rfl
    · rw [h.node?_put, if_pos rfl]
  | some bytes =>
    -- The library is put beside the log, which stays as it is.
    refine Ensures.bind ((Scratch.ensures_writeEntry (c := c) (n := n) (w := { w with calls }) h hg
      hlibrary
      (by simp [hmissing]) bytes).mono_error fun _ s ⟨hlong, _⟩ =>
        absurd ((Scratch.byteLength_libraryName_le u).trans hshort) hlong)
        fun _ => ensures_and fun _ => ensures_pure fun s hs => ?_
    refine ⟨_, _, ⟨hg.put htop u.libraryName (.file bytes), ?_, ?_, hshort⟩, hruns, hs⟩
    · rw [h.node?_put, if_pos rfl, hartifact]
      rfl
    · rw [h.node?_put, if_neg hne.symm, h.node?_put, if_pos rfl]

/-! ## Registering what was linked -/

/-- A definition of a name is refused since the name is loaded. -/
def Refused (n : Namespace) (name : String) (e : Failure) : Prop :=
  n.isLoaded name = true ∧ n.policy = .reject ∧ e = .error (.redefinitionHazard name)

/-- An artifact is registered, or it is refused and nothing is changed. -/
theorem ensures_register (hn : n.Tidy) (a : Artifact) :
    Ensures (At c n w) (register a)
      (fun _ s => (n.isLoaded a.name = true → n.policy = .allow) ∧ At c (n.insert a) w s)
      (fun e s => Refused n a.name e ∧ At c n w s) := by
  rcases Namespace.register_cases hn a with ⟨hloaded, hpolicy, heq⟩ | ⟨hpolicy, told, heq⟩
  · refine Ensures.bind (Q := fun _ _ => False) ((ensures_ofLoader_error
      (g := fun n => n.register a) heq).mono_error
        fun e s ⟨he, hs⟩ => ⟨⟨hloaded, hpolicy, he⟩, hs⟩) fun log s hs => ?_
    contradiction
  · refine (ensures_ofLoader_ok (g := fun n => n.register a) heq).bind fun log =>
      ensures_and fun _ => ?_
    exact (ensures_tell log).mono_ok fun _ s hs => ⟨hpolicy, hs⟩

/-- What was linked for a unit is registered, or it is refused and nothing is changed. -/
theorem ensures_capture (hn : n.Tidy) (h : scratch.Opened f place) (hg : Holds f place u run g) :
    Ensures (At c n { w with files := g }) (scratch.capture u)
      (fun a s => run.artifact = some a.bytes ∧ a.name = u.name ∧
        (n.isLoaded u.name = true → n.policy = .allow) ∧ At c (n.insert a) { w with files := g } s)
      (fun e s => (∀ bytes, run.artifact = some bytes → Refused n u.name e) ∧
        At c n { w with files := g } s) := by
  refine ensures_get fun s hs => ?_
  rw [hs.world]
  dsimp only
  rw [hg.read_library h]
  -- Nothing that was linked is an error of its own; what was linked goes to the registry.
  cases hartifact : run.artifact with
  | none =>
    refine Ensures.bind (Q := fun _ _ => False) (ensures_throw fun s hs => ⟨?_, hs⟩)
      fun _ s hs => ?_
    · exact fun bytes hbytes => absurd hbytes (by simp)
    · contradiction
  | some bytes =>
    refine Ensures.bind (ensures_pure fun s hs => ⟨rfl, hs⟩) fun linked =>
      ensures_and (p := linked = bytes) fun hlinked => ?_
    subst hlinked
    refine Ensures.bind ((ensures_register hn _).mono_error fun e s ⟨hrefused, hs⟩ =>
      ⟨fun _ _ => hrefused, hs⟩) fun _ => ensures_pure fun s ⟨hpermitted, hs⟩ =>
        ⟨rfl, rfl, hpermitted, hs⟩

/-! ## Compilations -/

/-- The diagnostics in what a run wrote about a unit with a dispatch module in its source. -/
def logged (u : SourceUnit) (d : Dispatch) (run : Compilation) : List Diagnostic :=
  (Attribution.ofSource u.virtualPath u.source.toList (d.attach u.source.toList).region).diagnostics
    (Text.Utf8.decodeLossy run.log)

/-- How a compilation fails once the compiler was given the text. -/
inductive FailsBy (n : Namespace) (u : SourceUnit) (d : Dispatch) (limit : Option Duration)
    (run : Compilation) : Failure → Prop
  /-- The time is up. -/
  | late (hlate : endingWithin limit run = none) :
      FailsBy n u d limit run (.error (.timeout u.name (limit.getD ⟨0⟩)))
  /-- The run ended badly, or it linked nothing. -/
  | ill {ending : Ending} (hending : endingWithin limit run = some ending)
      (hill : (ending.isSuccess && run.artifact.isSome) = false) :
      FailsBy n u d limit run (.error (.compile u.name
        (failureDiagnostics (logged u d run) (Text.Utf8.decodeLossy run.log) ending)))
  /-- The namespace refused what was linked. -/
  | refused {ending : Ending} {e : Failure} (hending : endingWithin limit run = some ending)
      (hwell : (ending.isSuccess && run.artifact.isSome) = true) (hrefused : Refused n u.name e) :
      FailsBy n u d limit run e

/-- Compiling in a scratch directory fails before the compiler is given the text, or one run of it
decides what comes of it. -/
theorem ensures_compileIn_cases (hn : n.Tidy) (h : scratch.Opened f place) (t : Toolchain)
    (d : Dispatch) (options : OptionSet) (limit : Option Duration) :
    Ensures (At c n { w with files := f.putDirectory place })
      (compileIn t u d options limit scratch)
      (fun compiled s => ∃ run calls,
        RunIn w scratch f place u t.path (d.attach u.source.toList).text options calls run ∧
        Links limit run compiled.artifact.bytes ∧ compiled.artifact.name = u.name ∧
        (n.isLoaded u.name = true → n.policy = .allow) ∧
        WorkingAt c (n.insert compiled.artifact) { w with calls } f place s)
      (fun e s => (¬e.IsReport ∧ Unready w f place u t.path ∧ WorkingAt c n w f place s) ∨
        ∃ run calls,
          RunIn w scratch f place u t.path (d.attach u.source.toList).text options calls run ∧
          FailsBy n u d limit run e ∧ WorkingAt c n { w with calls } f place s) := by
  refine Ensures.bind ((ensures_runCompiler h t u _ options).mono_error fun e s hs => .inl hs)
    fun run => ensures_exists fun g => ensures_exists fun calls => ensures_and fun hg =>
      ensures_and fun hruns => ?_
  split
  · -- The compiler took too long.
    rename_i hlate
    exact (ensures_tell _).bind fun _ => ensures_throw fun s hs =>
      .inr ⟨run, calls, hruns, .late hlate, g, hg.within, hs⟩
  · -- It ended in time. What it wrote into the log is read back from the file.
    rename_i ending hending
    refine ensures_get fun s hs => ?_
    rw [hs.world]
    dsimp only
    rw [hg.read_log h]
    refine Ensures.bind (Q := fun log s => log = run.log ∧ At c n { w with files := g, calls } s)
      (ensures_pure fun s hs => ⟨rfl, hs⟩) fun log => ensures_and fun hlog =>
        ensures_get fun s hs => ?_
    subst hlog
    rw [hs.world]
    dsimp only
    rw [hg.isSome_find_library h]
    split
    · -- What was linked is there, so it is read and registered, or it is refused.
      rename_i hwell
      obtain ⟨hsuccess, hlinked⟩ := Bool.and_eq_true_iff.1 hwell
      obtain ⟨bytes, hbytes⟩ := Option.isSome_iff_exists.1 hlinked
      refine Ensures.bind ((ensures_capture (w := { w with calls }) hn h hg).mono_error
        fun e s ⟨hrefused, hs⟩ => .inr ⟨run, calls, hruns,
          .refused hending hwell (hrefused bytes hbytes), g, hg.within, hs⟩)
        fun a => ensures_and fun hartifact => ensures_and fun hname =>
          ensures_and fun hpermitted => ensures_pure fun s hs => ?_
      exact ⟨run, calls, hruns, ⟨hartifact, by rw [hending]; exact hsuccess⟩, hname, hpermitted,
        g, hg.within, hs⟩
    · -- It failed, or it linked nothing.
      rename_i hill
      exact ensures_throw fun s hs => .inr ⟨run, calls, hruns,
        .ill hending (Bool.eq_false_of_not_eq_true hill), g, hg.within, hs⟩

/-- What it means for the namespace that a unit of a name was compiled. -/
structure Registers (n : Namespace) (w : World) (name : String) (compiled : Compiled)
    (after : Namespace) (calls : List CompilerCall) : Prop where
  /-- The artifact is that of the name. -/
  name : compiled.artifact.name = name
  /-- It is registered and nothing else is changed. -/
  registered : after = n.insert compiled.artifact
  /-- Its bytes are those that the compiler linked. -/
  linked : LinkedBy w calls compiled.artifact.bytes

/-- No slot is changed. -/
theorem Registers.slots {name : String} {compiled : Compiled} {after : Namespace}
    {calls : List CompilerCall} (h : Registers n w name compiled after calls) :
    after.slots = n.slots := by
  rw [h.registered]
  rfl

/-- What is known of a unit that was compiled. -/
structure Succeeds (n : Namespace) (w : World) (u : SourceUnit) (limit : Option Duration)
    (compiled : Compiled) (after : Namespace) (calls : List CompilerCall) : Prop where
  /-- Its artifact is registered. -/
  registers : Registers n w u.name compiled after calls
  /-- That is what the unit was compiled to. -/
  delivers : Delivers w u limit calls compiled.artifact.bytes
  /-- It may be, if the name is loaded. -/
  permitted : n.isLoaded u.name = true → n.policy = .allow

/-- What is known of a unit that failed to compile: if it was compiled to anything, that was
refused. -/
def Fails (n : Namespace) (w : World) (u : SourceUnit) (limit : Option Duration) (e : Failure)
    (calls : List CompilerCall) : Prop :=
  ∀ bytes, Delivers w u limit calls bytes → Refused n u.name e

theorem fails_of_asked {u : SourceUnit} {limit : Option Duration} {calls : List CompilerCall}
    (h : Asked w calls) (e : Failure) : Fails n w u limit e calls :=
  fun _ hdelivers => absurd hdelivers (not_delivers_of_asked h)

/-- Where a run was of no use, the unit was compiled to nothing, or to what was refused. -/
theorem FailsBy.fails {d : Dispatch} {limit : Option Duration} {calls : List CompilerCall}
    {e : Failure} (h : FailsBy n u d limit run e) (hran : Ran w u calls run) :
    Fails n w u limit e calls := by
  rintro bytes ⟨run', hran', hbytes, hwell⟩
  obtain rfl := hran.unique hran'
  cases h with
  | late hlate =>
    rw [hlate] at hwell
    contradiction
  | ill hending hill =>
    rw [hending] at hwell
    rw [hbytes] at hill
    exact absurd (Bool.and_eq_true_iff.2 ⟨hwell, rfl⟩) (ne_true_of_eq_false hill)
  | refused hending hwell hrefused => exact hrefused

/-- Compiling in a scratch directory either registers what the unit was compiled to, or changes
nothing of the namespace. -/
theorem ensures_compileIn (hn : n.Tidy) (h : scratch.Opened f place) (t : Toolchain)
    {d : Dispatch} (options : OptionSet) (limit : Option Duration) {earlier : List CompilerCall}
    (hasked : Asked w earlier) (hd : Dispatch.generate u = .ok d) :
    Ensures (At c n { w with files := f.putDirectory place, calls := earlier })
      (compileIn t u d options limit scratch)
      (fun compiled s => ∃ after calls, Succeeds n w u limit compiled after calls ∧
        WorkingAt c after { w with calls } f place s)
      (fun e s => ∃ calls, Fails n w u limit e calls ∧
        WorkingAt c n { w with calls } f place s) := by
  refine (ensures_compileIn_cases (w := { w with calls := earlier }) hn h t d options limit).mono
    (fun compiled s ⟨run, calls, hruns, hlinks, hname, hpermitted, hs⟩ => ?_) fun e s hs => ?_
  · have hdelivers : Delivers w u limit calls compiled.artifact.bytes :=
      ⟨run, ⟨earlier, d, hasked, hd, hruns.called⟩, hlinks⟩
    exact ⟨_, calls, ⟨⟨hname, rfl, hdelivers.linkedBy⟩, hdelivers, hpermitted⟩, hs⟩
  · rcases hs with ⟨-, -, hs⟩ | ⟨run, calls, hruns, hfails, hs⟩
    · exact ⟨earlier, fails_of_asked hasked e, hs⟩
    · exact ⟨calls, hfails.fails ⟨earlier, d, hasked, hd, hruns.called⟩, hs⟩

end

/-- A unit of a name was compiled: what the compiler linked is registered, and nothing else differs
but what a scratch directory leaves and the calls of compilers. -/
def CompiledAt (c : Config) (n : Namespace) (w : World) (name : String) (compiled : Compiled)
    (s : State) : Prop :=
  ∃ after calls, Registers n w name compiled after calls ∧ LeftAt c after { w with calls } s

/-- A compilation that fails leaves the namespace as it is, and files as a scratch directory leaves
them; and it fails only for the namespace once the compiler did its work. One that succeeds does no
more than to register what the unit was compiled to. -/
theorem ensures_delivers (hn : n.Tidy) (name source : String) (options : OptionSet)
    (limit : Option Duration) :
    Ensures (At c n w) (compileWithin name source options limit)
      (fun compiled s => ∃ after calls, Succeeds n w ⟨name, source⟩ limit compiled after calls ∧
        LeftAt c after { w with calls } s)
      (fun e s => ∃ calls, Fails n w ⟨name, source⟩ limit e calls ∧
        LeftAt c n { w with calls } s) := by
  refine Ensures.bind (ensures_requireToolchain.mono_error fun e s ⟨_, calls, hasked, hs⟩ =>
    ⟨calls, fails_of_asked hasked e, hs.left⟩) fun t => ensures_exists fun calls =>
      ensures_and fun hasked => ?_
  refine Ensures.bind ((ensures_dispatchOf _).mono_error fun e s ⟨_, hs⟩ =>
    ⟨calls, fails_of_asked hasked e, hs.left⟩) fun d => ensures_and fun hd => ?_
  exact Scratch.ensures_during (w := { w with calls }) (fun e _ => fails_of_asked hasked e)
    fun scratch f place hopened => ensures_compileIn hn hopened t options limit hasked hd

/-- In short: it registers what the compiler linked, or leaves the namespace as it is. -/
theorem ensures_compileWithin (hn : n.Tidy) (name source : String) (options : OptionSet)
    (limit : Option Duration) :
    Ensures (At c n w) (compileWithin name source options limit) (CompiledAt c n w name)
      (fun _ s => ∃ calls, LeftAt c n { w with calls } s) :=
  (ensures_delivers hn name source options limit).mono
    (fun _ _ ⟨after, calls, hsucceeds, hs⟩ => ⟨after, calls, hsucceeds.registers, hs⟩)
    fun _ _ ⟨calls, _, hs⟩ => ⟨calls, hs⟩

end UnitLoader.Engine
