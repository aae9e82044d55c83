import UnitLoader.Proofs.Engine.Delivery

/-!
# The compiler is searched for once

An engine searches for its compiler when the first request needs it, and keeps what the search
comes to. A request that needs the compiler asks for it before all else and then goes on with what
it got (`Request.run_of_asks`), and no other request touches what was found or calls a compiler
(`Request.keeps_run`). So in a run, however files and the environment change, no compiler is called
before the first such request, at most one is asked for its version, by that request, and everything
behind it goes by the same answer (`detection_run`): either all calls are of the compiler that was
found, or every request that needs one is refused at once, for the same reason and with nothing
changed.
-/

namespace UnitLoader.Engine

open UnitLoader.Engine.Action
open Text (Duration)

/-! ## What depends on the compiler -/

/-- Something that is known of what an engine found out about the compiler and of the calls that
were made. -/
abbrev Knowledge := Option (Except String Toolchain) → List CompilerCall → Prop

/-- It is known in a state. -/
def Knowledge.Holds (K : Knowledge) (s : State) : Prop := K s.engine.toolchain s.world.calls

/-- The action leaves it as it is known, whether it fails or not. -/
def Keeps {α : Type} (K : Knowledge) (a : Action α) : Prop :=
  Ensures K.Holds a (fun _ => K.Holds) (fun _ => K.Holds)

section

variable {α β : Type} {K : Knowledge} {a : Action α}

theorem keeps_pure (value : α) : Keeps K (pure value : Action α) := ensures_pure fun _ hs => hs

theorem Keeps.bind {f : α → Action β} (ha : Keeps K a) (hf : ∀ value, Keeps K (f value)) :
    Keeps K (a >>= f) := Ensures.bind ha hf

theorem Keeps.discard (ha : Keeps K a) : Keeps K (Functor.discard a) :=
  (Ensures.discard ha).mono_ok fun _ _ ⟨_, hs⟩ => hs

theorem Keeps.map (ha : Keeps K a) (f : α → β) : Keeps K (do return f (← a)) :=
  ha.bind fun _ => keeps_pure _

theorem keeps_get {f : State → Action β} (hf : ∀ s, Keeps K (f s)) : Keeps K (get >>= f) :=
  ensures_get fun s _ => hf s

theorem keeps_fail (e : Error) : Keeps K (fail e : Action α) := ensures_throw fun _ hs => hs

theorem keeps_ofExcept (r : Except Error α) : Keeps K (ofExcept r) := by
  cases r with
  | ok value => exact keeps_pure value
  | error e => exact keeps_fail e

theorem keeps_ofFiles (r : Except FileFault α) : Keeps K (ofFiles r) := by
  cases r with
  | ok value => exact keeps_pure value
  | error fault => exact keeps_fail (.io fault)

theorem keeps_tell (lines : List LogLine) : Keeps K (tell lines) := ensures_modify fun _ hs => hs

theorem keeps_modifyLoader (f : Namespace → Namespace) : Keeps K (modifyLoader f) :=
  ensures_modify fun _ hs => hs

theorem keeps_modifyUsage (f : Usage → Usage) : Keeps K (modifyUsage f) :=
  ensures_modify fun _ hs => hs

theorem keeps_setFiles (files : Files) : Keeps K (setFiles files) := ensures_modify fun _ hs => hs

theorem keeps_ofLoader (step : Namespace → Except Error α × Namespace) : Keeps K (ofLoader step) :=
  keeps_get fun _ => (keeps_modifyLoader _).bind fun _ => keeps_ofExcept _

theorem keeps_changeFiles (step : Files → Except FileFault Unit × Files) :
    Keeps K (changeFiles step) :=
  keeps_get fun _ => (keeps_setFiles _).bind fun _ => keeps_ofFiles _

/-! ### Namespaces and files -/

theorem keeps_register (artifact : Artifact) : Keeps K (register artifact) :=
  (keeps_ofLoader _).bind fun _ => keeps_tell _

theorem keeps_load (name : String) : Keeps K (load name) :=
  keeps_get fun _ => (keeps_modifyUsage _).bind fun _ => (keeps_ofLoader _).bind fun _ =>
    Keeps.bind (ensures_modify fun _ hs => hs) fun _ => (keeps_tell _).bind fun _ => keeps_pure _

theorem keeps_appendArchive (location : String) : Keeps K (appendArchive location) :=
  Keeps.bind (keeps_get fun _ => keeps_ofExcept _) fun _ => keeps_get fun _ =>
    (keeps_modifyLoader _).bind fun _ => keeps_tell _

theorem keeps_exportArchive (location : String) : Keeps K (exportArchive location) :=
  keeps_get fun _ => Keeps.bind
    (keeps_get fun _ => (keeps_ofFiles _).bind fun _ => keeps_setFiles _) fun _ => keeps_pure _

theorem keeps_writeFile (path : String) (bytes : List UInt8) :
    Keeps K (Scratch.writeFile path bytes) :=
  keeps_get fun _ => (keeps_ofFiles _).bind fun _ => keeps_setFiles _

theorem keeps_newName (taken : List String) : Keeps K (Scratch.newName taken) := by
  refine keeps_get fun s => ?_
  split
  · exact (keeps_modifyUsage _).bind fun _ => keeps_fail _
  · exact (keeps_modifyUsage _).bind fun _ => keeps_pure _

theorem keeps_makeIn (directory : String) : Keeps K (Scratch.makeIn directory) :=
  keeps_get fun _ => (keeps_newName _).bind fun _ => (keeps_ofFiles _).bind fun _ =>
    (keeps_setFiles _).bind fun _ => keeps_pure _

theorem keeps_make : Keeps K Scratch.make := by
  refine keeps_get fun s => ?_
  cases s.engine.config.scratchRoot with
  | none => exact keeps_makeIn _
  | some root => exact (keeps_changeFiles _).bind fun _ => keeps_makeIn root

theorem keeps_discard (scratch : Scratch) : Keeps K scratch.discard :=
  ensures_modify fun s hs => by
    dsimp only
    split <;> exact hs

/-- What an action leaves known in a scratch directory, it does with the directory around it. -/
theorem keeps_during {body : Scratch → Action α} (h : ∀ scratch, Keeps K (body scratch)) :
    Keeps K (Scratch.during body) := by
  refine keeps_make.bind fun scratch => ?_
  refine Keeps.bind ((Ensures.attempt (h scratch)).mono_ok fun outcome s hs => ?_) fun outcome =>
    (keeps_discard scratch).bind fun _ => ?_
  · cases outcome <;> exact hs
  · cases outcome with
    | ok value => exact keeps_pure value
    | error failure => exact ensures_throw fun _ hs => hs

theorem keeps_capture (scratch : Scratch) (u : SourceUnit) : Keeps K (scratch.capture u) :=
  keeps_get fun _ => (keeps_ofFiles _).bind fun _ =>
    (keeps_register _).bind fun _ => keeps_pure _

/-! ### Compilations -/

/-- A call of this compiler for something else than its version. -/
def CompilerCall.IsOf (t : Toolchain) : CompilerCall → Prop
  | .version _ => False
  | .platform path => path = t.path
  | .compile path _ _ => path = t.path

/-- It stays known whatever else a compiler is called for. -/
def Knowledge.Survives (K : Knowledge) (t : Toolchain) : Prop :=
  ∀ found calls call, CompilerCall.IsOf t call → K found calls → K found (call :: calls)

theorem keeps_called {t : Toolchain} (hK : K.Survives t) {call : CompilerCall}
    (h : CompilerCall.IsOf t call) : Keeps K (called call) :=
  ensures_modify fun _ hs => hK _ _ call h hs

theorem keeps_runCompiler {t : Toolchain} (hK : K.Survives t) (scratch : Scratch) (u : SourceUnit)
    (text : List Char) (options : OptionSet) : Keeps K (runCompiler t scratch u text options) := by
  refine (keeps_writeFile _ _).bind fun _ => keeps_get fun _ => (keeps_ofFiles _).bind fun _ => ?_
  refine Keeps.bind (keeps_called hK (show CompilerCall.IsOf t (.compile t.path _ _) from rfl))
    fun _ => (keeps_writeFile _ _).bind fun _ => ?_
  split
  · exact (keeps_writeFile _ _).bind fun _ => keeps_pure _
  · exact keeps_pure _

theorem keeps_compileIn {t : Toolchain} (hK : K.Survives t) (u : SourceUnit) (d : Dispatch)
    (options : OptionSet) (limit : Option Duration) (scratch : Scratch) :
    Keeps K (compileIn t u d options limit scratch) := by
  refine (keeps_runCompiler hK _ _ _ _).bind fun run => ?_
  split
  · exact (keeps_tell _).bind fun _ => keeps_fail _
  · refine keeps_get fun _ => (keeps_ofFiles _).bind fun _ => keeps_get fun _ => ?_
    split
    · exact (keeps_capture _ _).bind fun _ => keeps_pure _
    · exact keeps_fail _

theorem keeps_compileWith {t : Toolchain} (hK : K.Survives t) (name source : String)
    (options : OptionSet) (limit : Option Duration) :
    Keeps K (compileWith name source options limit t) := by
  refine Keeps.bind ?_ fun d => keeps_during fun scratch => keeps_compileIn hK _ d _ _ scratch
  unfold dispatchOf
  split
  · exact keeps_pure _
  · exact ensures_throw fun _ hs => hs

end

/-! ## Requests -/

namespace Request

/-- A request that does not need the compiler leaves alone all that has to do with it. -/
theorem keeps_run {K : Knowledge} {q : Request} (h : q.asks = false) : Keeps K q.run := by
  cases q with
  | toolchain => contradiction
  | platform => contradiction
  | command c =>
    refine Keeps.map ?_ _
    cases c with
    | register artifact => exact (keeps_register artifact).map _
    | insert artifact => exact (keeps_modifyLoader _).map _
    | unregister name => exact (keeps_modifyLoader _).map _
    | clear => exact (keeps_modifyLoader _).map _
    | append location => exact (keeps_appendArchive location).map _
    | push source => exact (keeps_modifyLoader _).map _
    | load name => exact (keeps_load name).map _
    | exportTo location => exact (keeps_exportArchive location).map _
    -- These two need the compiler.
    | compile name source options => contradiction
    | compileWithin name source options limit => contradiction
    | compileAndLoad source options =>
      -- No name can be read off the source, so it ends there.
      refine Keeps.map ?_ _
      cases hname : resolveName source with
      | error e =>
        rw [compileAndLoad, hname]
        exact fun s hs => hs
      | ok name =>
        rw [asks, hname] at h
        contradiction

end Request


/-! ## The search -/

/-- What a search can come to, with the calls that it takes. -/
inductive Finding : Except String Toolchain → List CompilerCall → Prop where
  /-- A compiler told its version. -/
  | told (t : Toolchain) : Finding (.ok t) [.version t.path]
  /-- A compiler was asked for its version and did not tell it. -/
  | untold (path reason : String) : Finding (.error reason) [.version path]
  /-- There was no compiler to ask. -/
  | missing (reason : String) : Finding (.error reason) []

/-- A search always comes to something, and changes nothing but the calls. -/
theorem searchToolchain_eq (s : State) :
    ∃ found asked, Finding found asked ∧ searchToolchain s =
      .ok found { s with world := { s.world with calls := asked ++ s.world.calls } } := by
  rw [searchToolchain, get_bind]
  cases findCompiler s.engine.config s.world with
  | error reason => exact ⟨_, _, .missing reason, rfl⟩
  | ok path =>
    dsimp only
    cases compilerAt s.world path with
    | error fault => exact ⟨_, _, .missing _, rfl⟩
    | ok compiler =>
      dsimp only
      cases versionOf path compiler.version with
      | ok version => exact ⟨_, _, .told ⟨path, version⟩, rfl⟩
      | error reason => exact ⟨_, _, .untold path reason, rfl⟩

/-- The compiler that was found is the one that is used. -/
theorem requireToolchain_of_found {s : State} {t : Toolchain}
    (h : s.engine.toolchain = some (.ok t)) : requireToolchain s = .ok t s := by
  rw [requireToolchain, get_bind, h]
  rfl

/-- If none was found, none is looked for any more. -/
theorem requireToolchain_of_reason {s : State} {reason : String}
    (h : s.engine.toolchain = some (.error reason)) :
    requireToolchain s = .error (.error (.toolchainUnavailable reason)) s := by
  rw [requireToolchain, get_bind, h]
  rfl

/-- The first time the compiler is searched for, and what was found is kept. -/
theorem requireToolchain_of_told {s s₁ : State} {t : Toolchain} (h : s.engine.toolchain = none)
    (hsearch : searchToolchain s = .ok (.ok t) s₁) :
    requireToolchain s =
      .ok t { s₁ with engine := { s₁.engine with toolchain := some (.ok t) } } := by
  rw [requireToolchain, get_bind, h]
  dsimp only
  rw [bind_of_ok hsearch]
  rfl

/-- So is the reason why nothing was found. -/
theorem requireToolchain_of_untold {s s₁ : State} {reason : String} (h : s.engine.toolchain = none)
    (hsearch : searchToolchain s = .ok (.error reason) s₁) :
    ∃ log, requireToolchain s = .error (.error (.toolchainUnavailable reason))
      ⟨{ s₁.engine with toolchain := some (.error reason) }, s₁.world, log, s₁.usage⟩ := by
  rw [requireToolchain, get_bind, h]
  dsimp only
  rw [bind_of_ok hsearch]
  exact ⟨_, rfl⟩

/-! ## Requests that need the compiler -/

namespace Request

/-- A compilation asks for the compiler first. -/
theorem compile_eq (name source : String) (options : OptionSet) (s : State) :
    Engine.compile name source options s =
      (requireToolchain >>= fun t => do
        let limit := (← get).engine.config.timeout
        compileWith name source options limit t) s := by
  change (requireToolchain >>= compileWith name source options s.engine.config.timeout) s = _
  refine bind_congr_of fun t s' hrun => ?_
  obtain ⟨_, _, hat⟩ := ensures_requireToolchain.of_ok (at_self s) hrun
  rw [get_bind, hat.config]

/-- So does every request that needs it. -/
theorem run_of_asks {q : Request} (h : q.asks = true) (s : State) :
    q.run s = (requireToolchain >>= fun t => q.runWith t) s := by
  cases q with
  | toolchain => rfl
  | platform => rfl
  | command c =>
    cases c with
    | register | insert | unregister | clear | append | push | load | exportTo => contradiction
    | compile name source options =>
      -- Compiling within the limit of the configuration asks for the compiler first.
      change ((Engine.compile name source options >>= _) >>= _) s = _
      rw [bind_assoc, bind_eq_of (compile_eq name source options s), bind_assoc]
      simp only [bind_assoc, pure_bind, runWith]
    | compileWithin name source options limit =>
      change (((requireToolchain >>= compileWith name source options limit) >>= _) >>= _) s = _
      simp only [bind_assoc, pure_bind, runWith]
    | compileAndLoad source options =>
      -- If the source has no name, nothing asks for the compiler.
      cases hname : resolveName source with
      | error e =>
        rw [asks, hname] at h
        contradiction
      | ok name =>
        change ((ofExcept (resolveName source) >>= fun name =>
          Functor.discard (Engine.compile name source options) >>= fun _ => load name) >>= _ >>= _)
            s = _
        rw [hname]
        change ((Functor.discard (Engine.compile name source options) >>= fun _ => load name) >>=
          _ >>= _) s = _
        rw [discard_eq, bind_assoc, bind_assoc, bind_assoc,
          bind_eq_of (compile_eq name source options s)]
        simp only [bind_assoc, pure_bind, runWith, hname, discard_eq]
        rfl

/-- With the compiler in hand, a request calls that one, and not for its version. -/
theorem keeps_runWith {K : Knowledge} {t : Toolchain} (hK : K.Survives t) {q : Request}
    (h : q.asks = true) : Keeps K (runWith t q) := by
  cases q with
  | toolchain => exact keeps_pure _
  | platform =>
    -- The compiler is called for its platform.
    refine Keeps.map (keeps_get fun s => ?_) _
    split
    · exact keeps_fail _
    · refine Keeps.bind (keeps_called hK (show CompilerCall.IsOf t (.platform t.path) from rfl))
        fun _ => ?_
      split
      · exact keeps_pure _
      · exact keeps_fail _
  | command c =>
    cases c with
    | register | insert | unregister | clear | append | push | load | exportTo => contradiction
    | compile name source options =>
      exact keeps_get fun s => (keeps_compileWith hK name source options _).map _
    | compileWithin name source options limit =>
      exact (keeps_compileWith hK name source options limit).map _
    | compileAndLoad source options =>
      -- Nothing behind the compilation calls the compiler.
      exact (keeps_ofExcept _).bind fun name => keeps_get fun s =>
        (keeps_compileWith hK name source options _).discard.bind fun _ => (keeps_load name).map _

end Request

/-! ## Turns -/

/-- What happens in a run. -/
inductive Turn where
  /-- The engine is asked for something. -/
  | request (q : Request)
  /-- Its surroundings change. It calls no compiler meanwhile. -/
  | change (f : World → World) (quiet : ∀ w, (f w).calls = w.calls)

namespace Turn

/-- The compiler is needed. -/
def asks : Turn → Bool
  | .request q => q.asks
  | .change _ _ => false

/-- The state after a turn. -/
def after (s : State) : Turn → State
  | .request q => endOf (q.run s)
  | .change f _ => { s with world := f s.world }

end Turn

/-- The state after turns. -/
def turnsFrom (s : State) (turns : List Turn) : State := turns.foldl Turn.after s

/-- No compiler was searched for since these calls were made, and none was called. -/
def Unasked (before : List CompilerCall) : Knowledge := fun kept calls =>
  kept = none ∧ calls = before

/-- This is what was found, with these calls, and since then no compiler was called but the one that
was found, and not for its version. -/
def Settled (found : Except String Toolchain) (upTo : List CompilerCall) : Knowledge :=
  fun kept calls => kept = some found ∧ ∃ later, calls = later ++ upTo ∧
    ∀ call ∈ later, ∃ t, found = .ok t ∧ CompilerCall.IsOf t call

theorem survives_settled (t : Toolchain) (upTo : List CompilerCall) :
    (Settled (.ok t) upTo).Survives t := by
  rintro kept calls call hcall ⟨hkept, later, rfl, hlater⟩
  refine ⟨hkept, call :: later, rfl, fun c hc => ?_⟩
  rcases List.mem_cons.mp hc with rfl | hc
  · exact ⟨t, rfl, hcall⟩
  · exact hlater c hc

theorem settled_self (found : Except String Toolchain) (upTo : List CompilerCall) :
    Settled found upTo (some found) upTo := ⟨rfl, [], rfl, fun _ h => absurd h List.not_mem_nil⟩

/-- What is kept stands at the end, whether the action failed or not. -/
theorem Keeps.holds_endOf {α : Type} {K : Knowledge} {a : Action α} {s : State} (h : Keeps K a)
    (hs : K.Holds s) : K.Holds (endOf (a s)) := by
  have hend := h s hs
  cases hrun : a s with
  | ok value s' => rwa [hrun] at hend
  | error e s' => rwa [hrun] at hend

/-- A turn that does not need the compiler leaves alone what has to do with it. -/
theorem holds_after {K : Knowledge} {s : State} {turn : Turn} (h : turn.asks = false)
    (hs : K.Holds s) : K.Holds (turn.after s) := by
  cases turn with
  | request q => exact (Request.keeps_run h).holds_endOf hs
  | change f quiet =>
    change K s.engine.toolchain (f s.world).calls
    rw [quiet]
    exact hs

/-- So do any number of them. -/
theorem holds_turnsFrom {K : Knowledge} {s : State} {turns : List Turn}
    (h : ∀ turn ∈ turns, turn.asks = false) (hs : K.Holds s) : K.Holds (turnsFrom s turns) := by
  induction turns generalizing s with
  | nil => exact hs
  | cons turn rest ih =>
    have hfirst := holds_after (h turn List.mem_cons_self) hs
    exact ih (fun later hlater => h later (List.mem_cons_of_mem turn hlater)) hfirst

/-- How a request that needs the compiler goes when this is what was found: with the compiler, or it
is refused and nothing is changed. -/
def GoesBy (found : Except String Toolchain) (q : Request) (s : State) : Prop :=
  match found with
  | .ok t => q.run s = Request.runWith t q s
  | .error reason =>
    (Error.toolchainUnavailable reason).isFatal = true ∧
      q.run s = .error (.error (.toolchainUnavailable reason)) s

/-- The state once a search is made: what it came to is kept, and the calls that it took. -/
def State.knowing (s : State) (found : Except String Toolchain) (asked : List CompilerCall) :
    State :=
  { s with
    engine := { s.engine with toolchain := some found }
    world := { s.world with calls := asked ++ s.world.calls } }

/-- How the request goes for which the search is made. If nothing is found, it is refused, and
nothing else is changed, but that the log tells of it. -/
def BeginsWith (found : Except String Toolchain) (asked : List CompilerCall) (q : Request)
    (s : State) : Prop :=
  match found with
  | .ok t => q.run s = Request.runWith t q (s.knowing found asked)
  | .error reason => ∃ log, q.run s =
      .error (.error (.toolchainUnavailable reason)) { s.knowing found asked with log }

section

variable {found : Except String Toolchain} {upTo : List CompilerCall} {q : Request} {s : State}

theorem goesBy_of_settled (hq : q.asks = true) (hs : (Settled found upTo).Holds s) :
    GoesBy found q s := by
  obtain ⟨hkept, -⟩ := hs
  unfold GoesBy
  cases found with
  | ok t =>
    dsimp only
    rw [Request.run_of_asks hq, bind_of_ok (requireToolchain_of_found hkept)]
  | error reason =>
    dsimp only
    rw [Request.run_of_asks hq, bind_of_error (requireToolchain_of_reason hkept)]
    exact ⟨rfl, rfl⟩

/-- Once it is settled what was found, it is settled after every turn. -/
theorem settled_after (hs : (Settled found upTo).Holds s) (turn : Turn) :
    (Settled found upTo).Holds (turn.after s) := by
  cases hasks : turn.asks with
  | false => exact holds_after hasks hs
  | true =>
    cases turn with
    | change f quiet => contradiction
    | request q =>
      have hgoes := goesBy_of_settled hasks hs
      change (Settled found upTo).Holds (endOf (q.run s))
      unfold GoesBy at hgoes
      cases found with
      | ok t =>
        dsimp only at hgoes
        rw [hgoes]
        exact (Request.keeps_runWith (survives_settled t upTo) hasks).holds_endOf hs
      | error reason =>
        rw [hgoes.2]
        exact hs

theorem settled_turnsFrom (hs : (Settled found upTo).Holds s) (turns : List Turn) :
    (Settled found upTo).Holds (turnsFrom s turns) := by
  induction turns generalizing s with
  | nil => exact hs
  | cons turn rest ih => exact ih (settled_after hs turn)

/-- The first request that needs the compiler settles what is found. -/
theorem settled_of_first {asked : List CompilerCall} (hq : q.asks = true)
    (hnone : s.engine.toolchain = none) (hsearch : searchToolchain s =
      .ok found { s with world := { s.world with calls := asked ++ s.world.calls } }) :
    BeginsWith found asked q s ∧
      (Settled found (asked ++ s.world.calls)).Holds (endOf (q.run s)) := by
  unfold BeginsWith
  cases found with
  | ok t =>
    -- The request goes on with the compiler in hand, and keeps what is known of it.
    have hrun : q.run s = Request.runWith t q (s.knowing (.ok t) asked) := by
      rw [Request.run_of_asks hq, bind_of_ok (requireToolchain_of_told hnone hsearch)]
      rfl
    refine ⟨hrun, ?_⟩
    rw [hrun]
    exact (Request.keeps_runWith (survives_settled t _) hq).holds_endOf (settled_self _ _)
  | error reason =>
    obtain ⟨log, hrequire⟩ := requireToolchain_of_untold hnone hsearch
    have hrun : q.run s = .error (.error (.toolchainUnavailable reason))
        { s.knowing (.error reason) asked with log } := by
      rw [Request.run_of_asks hq, bind_of_error hrequire]
      rfl
    refine ⟨⟨log, hrun⟩, ?_⟩
    rw [hrun]
    exact settled_self _ _

end

/-- Until the compiler is needed none is called. The first request that needs it searches for it,
and asks at most one compiler for its version. What the search comes to decides how that request
goes and every later one that needs the compiler, whatever became of the surroundings; and no call
is made after the search but of the compiler that was found, and not for its version. -/
theorem detection_run (config : Config) (world : World) (log : List LogLine) {front : List Turn}
    (hfront : ∀ turn ∈ front, turn.asks = false) :
    let s := turnsFrom (start config world log) front
    (Unasked world.calls).Holds s ∧
      ∀ first : Request, first.asks = true → ∃ found asked,
        Finding found asked ∧
        searchToolchain s =
          .ok found { s with world := { s.world with calls := asked ++ s.world.calls } } ∧
        BeginsWith found asked first s ∧
        ∀ behind, let s' := turnsFrom (endOf (first.run s)) behind
          (Settled found (asked ++ world.calls)).Holds s' ∧
            ∀ q : Request, q.asks = true → GoesBy found q s' := by
  intro s
  have hunasked : (Unasked world.calls).Holds s := holds_turnsFrom hfront ⟨rfl, rfl⟩
  refine ⟨hunasked, fun first hfirst => ?_⟩
  obtain ⟨hnone, hcalls⟩ := hunasked
  obtain ⟨found, asked, hfinding, hsearch⟩ := searchToolchain_eq s
  obtain ⟨hbegins, hsettled⟩ := settled_of_first hfirst hnone hsearch
  rw [hcalls] at hsettled
  refine ⟨found, asked, hfinding, hsearch, hbegins, fun behind => ?_⟩
  have hlater := settled_turnsFrom hsettled behind
  exact ⟨hlater, fun q hq => goesBy_of_settled hq hlater⟩

/-- A compiler is put in place, and the environment names it. -/
def installed (w : World) : World :=
  { w with files := ⟨[(["c"], .program linking)]⟩, environment := ⟨[(compilerVariable, "./c")]⟩ }

/-- It comes too late: the compiler was needed before. -/
theorem detection_run_installed :
    let s := turnsFrom (start .standard plainWorld []) [.request (.command .clear)]
    let s' := turnsFrom (endOf (Request.toolchain.run s)) [.change installed fun _ => rfl]
    let late : Request := .command (.compileAndLoad "pub struct A;" ⟨[]⟩)
    late.asks = true ∧ findCompiler s'.engine.config s'.world = .ok "./c" ∧
      late.run s' =
        .error (.error (.toolchainUnavailable "rustc not found in PATH")) s' := by
  intro s s' late
  have hlate : late.asks = true := by decide +kernel
  have hfind : findCompiler s'.engine.config s'.world = .ok "./c" := by decide +kernel
  have hfront : ∀ turn ∈ [Turn.request (.command .clear)], turn.asks = false := by
    intro turn hturn
    rw [List.mem_singleton.mp hturn]
    rfl
  obtain ⟨-, hfirst⟩ := detection_run .standard plainWorld [] hfront
  obtain ⟨found, asked, -, hsearch, -, hbehind⟩ := hfirst .toolchain rfl
  have hmissing : searchToolchain s = .ok (.error "rustc not found in PATH") s := by rfl
  obtain ⟨rfl, -⟩ := EStateM.Result.ok.inj (hmissing.symm.trans hsearch)
  obtain ⟨-, hgoes⟩ := hbehind [.change installed fun _ => rfl]
  exact ⟨hlate, hfind, (hgoes late hlate).2⟩

end UnitLoader.Engine
