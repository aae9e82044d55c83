import UnitLoader.Proofs.CommandLine.Calling
import UnitLoader.Proofs.CommandLine.Steps

/-!
# Steps that write nothing to the standard output

A command writes to the standard output only when nothing can fail any more. Everything in front of
that is `Quiet`: whether it succeeds or fails, all that the program writes are notes, lines on its
progress and the diagnostics of the compiler, and they go to the error output. Steps one after the
other are quiet if each of them is. Behind quiet steps may stand one that writes to the standard
output only where it succeeds; then the whole is `FailsQuietly`. Every command does
(`failsQuietly_steps`).

The code of a library writes what it likes, so what is on the standard output then are passages of
libraries. There are none if the command opens no library, or none that writes there. All of this
is proved under an assumption `q`, of which nothing is used but that it keeps the libraries that
are opened silent; then those in memory are silent at all times (`Kept`).
-/

namespace UnitLoader

/-- A library writes nothing to the standard output. -/
structure Library.Silent (l : Library) : Prop where
  /-- Not while it is opened. -/
  opening : l.opening.out = []
  /-- Not during a call. -/
  writes : ∀ t c, (l.writes t c).out = []
  /-- Not while it is closed. -/
  closing : ∀ t, (l.closing t).out = []

/-- No library of a process writes to the standard output. -/
def World.Silent (w : World) : Prop := ∀ bytes l, w.images bytes = some l → l.Silent

theorem Library.Silent.loading {l : Library} (h : l.Silent) (name : String) :
    (l.loading name).out = [] := by
  unfold Library.loading
  split
  · exact h.opening
  · rw [Written.out_append, h.opening, h.closing]
    rfl

theorem Library.Silent.writesAll {l : Library} (h : l.Silent) (t : Trace) (calls : List Call) :
    (l.writesAll t calls).out = [] := by
  induction calls generalizing t with
  | nil => rfl
  | cons c rest ih =>
    rw [Library.writesAll, Written.out_append, h.writes, ih]
    rfl

namespace CommandLine

open UnitLoader.Engine (Action State At at_self)
open UnitLoader.Engine.Action (Ensures)
open Step

/-! ## Notes -/

/-- What a command tells of its work. -/
inductive Note where
  /-- What it is at. -/
  | progress (verb rest : String)
  /-- What the compiler had to say. -/
  | diagnostics (found : List Diagnostic)

/-- How a note is shown. -/
def Note.text : Note → String
  | .progress verb rest => progressLine verb rest
  | .diagnostics found => shownDiagnostics found

/-- How notes are shown. -/
def notesText (notes : List Note) : String := String.join (notes.map Note.text)

namespace Screen

variable (s : Screen)

/-- What libraries write is not the program's own. -/
theorem own_ofLoaded (passages : List Passage) (bytes : List UInt8) :
    String.join ((passages ++ Passage.ofLoaded bytes).map Passage.ownText) =
      String.join (passages.map Passage.ownText) := by
  unfold Passage.ofLoaded
  split
  · rw [List.append_nil]
  · simp [Passage.ownText, String.join_append, String.join_cons, String.join_nil]

@[simp] theorem own_load (written : Written) : (s.load written).own = s.own := by
  unfold load own
  rw [own_ofLoaded, own_ofLoaded]

end Screen

/-! ## What the engine keeps -/

/-- Bytes stand for the libraries that they stood for in the beginning, and under the assumption
those in memory are silent. -/
structure Kept (q : Prop) (w : World) (s : State) : Prop where
  /-- Bytes stand for what they stood for. -/
  images : s.world.images = w.images
  /-- The namespace is tidy. -/
  tidy : s.engine.loader.Tidy
  /-- Libraries that are loaded are silent. -/
  silent : q → ∀ t ∈ s.world.memory.types, t.library.Silent

/-- An action of the engine keeps this. -/
def Keeps {α : Type} (q : Prop) (w : World) (a : Action α) : Prop :=
  Ensures (Kept q w) a (fun _ => Kept q w) fun _ => Kept q w

section

variable {q : Prop} {α : Type} {w : World} {a : Action α}

/-- Two states differ in nothing that is loaded. -/
structure SameLoaded (s s' : State) : Prop where
  /-- The slots. -/
  slots : s'.engine.loader.slots = s.engine.loader.slots
  /-- What bytes stand for. -/
  images : s'.world.images = s.world.images
  /-- Memory. -/
  memory : s'.world.memory = s.world.memory

/-- An action keeps it if it changes nothing that is loaded. -/
theorem keeps_of_sameLoaded (h : ∀ s : State, s.engine.loader.Tidy →
      Ensures (At s.engine.config s.engine.loader s.world) a (fun _ => SameLoaded s)
        fun _ => SameLoaded s) : Keeps q w a := by
  intro s hs
  have hkept {s' : State} (hsame : SameLoaded s s') : Kept q w s' :=
    ⟨hsame.images.trans hs.images, hs.tidy.of_slots hsame.slots, hsame.memory ▸ hs.silent⟩
  have hends := h s hs.tidy s (at_self s)
  cases hrun : a s with
  | ok value s' =>
    rw [hrun] at hends
    exact hkept hends
  | error e s' =>
    rw [hrun] at hends
    exact hkept hends

/-- At a place with the same slots, the same memory and the same libraries, nothing differs. -/
theorem sameLoaded_of_at {s s' : State} {n : Namespace} {w' : World}
    (hs' : At s.engine.config n w' s') (hslots : n.slots = s.engine.loader.slots)
    (himages : w'.images = s.world.images) (hmemory : w'.memory = s.world.memory) :
    SameLoaded s s' :=
  ⟨hs'.loader ▸ hslots, hs'.world ▸ himages, hs'.world ▸ hmemory⟩

theorem keeps_ofExcept (r : Except Error α) : Keeps q w (Action.ofExcept r) := by
  intro s hs
  cases r <;> exact hs

theorem keeps_appendArchive (location : String) : Keeps q w (Engine.appendArchive location) :=
  keeps_of_sameLoaded fun _ _ => (Engine.ensures_appendArchive location).mono
    (fun _ _ ⟨_, _, hs'⟩ => sameLoaded_of_at hs' rfl rfl rfl)
    fun _ _ ⟨_, _, hs'⟩ => sameLoaded_of_at hs' rfl rfl rfl

theorem keeps_exportArchive (location : String) : Keeps q w (Engine.exportArchive location) :=
  keeps_of_sameLoaded fun _ _ => (Engine.ensures_exportArchive location).mono
    (fun _ _ ⟨_, hs'⟩ => sameLoaded_of_at hs' rfl rfl rfl)
    fun _ _ hs' => sameLoaded_of_at hs' rfl rfl rfl

/-- A load adds a type at most, and its library is one that bytes stand for. -/
theorem keeps_load (hq : q → w.Silent) (name : String) : Keeps q w (Engine.load name) := by
  intro s hs
  rcases Engine.load_cases hs.tidy name with ⟨handle, -, hrun⟩ | ⟨-, e, -, hrun⟩ |
    ⟨-, origin, bytes, t, log, -, htype, hrun⟩
  · rw [hrun]
    exact hs
  · rw [hrun]
    exact ⟨hs.images, hs.tidy, hs.silent⟩
  · rw [hrun]
    obtain ⟨l, manifest, himage, -, rfl⟩ := LoadedType.load_eq_ok_iff.1 htype
    refine ⟨hs.images, hs.tidy.fill name _, fun h other hother => ?_⟩
    rcases List.mem_append.1 hother with hold | hnew
    · exact hs.silent h other hold
    · obtain rfl := List.mem_singleton.1 hnew
      exact hq h bytes l (hs.images ▸ himage)

/-- A call changes the calls that a type had, and no library. -/
theorem keeps_called {s : State} (hs : Kept q w s) {h : Handle} {operation : String}
    {arguments : List String} {called : Done (Except Error String)}
    (hcall : callOperation s.world.memory h operation arguments = some called) :
    Kept q w { s with world := { s.world with memory := called.memory } } ∧
      (q → called.written.out = []) := by
  cases htype : s.world.memory.type? h with
  | none =>
    -- A handle that stands for no type is not called.
    unfold callOperation Memory.callStatic Memory.instantiate at hcall
    rw [htype] at hcall
    contradiction
  | some t =>
    obtain ⟨m', hcall', htypes, -⟩ := callOperation_eq htype operation arguments
    rw [hcall'] at hcall
    obtain rfl := Option.some.inj hcall
    obtain ⟨calls, hmakes⟩ := t.makes_callNamed operation arguments
    have hsilent (hq : q) : t.library.Silent := hs.silent hq t (List.mem_of_getElem? htype)
    refine ⟨⟨hs.images, hs.tidy, fun hq other hother => ?_⟩, fun hq => ?_⟩
    · change other ∈ m'.types at hother
      rw [htypes, hmakes.type] at hother
      rcases List.mem_or_eq_of_mem_set hother with hold | rfl
      · exact hs.silent hq other hold
      · exact hsilent hq
    · dsimp only
      rw [hmakes.written]
      exact (hsilent hq).writesAll _ _

end

/-! ## Quiet steps -/

section

variable {q : Prop} {w : World} {α β : Type} {a : Step α} {f : α → Step β}

/-- The console when a step has ended. -/
def consoleAfter : EStateM.Result Failure Console α → Console
  | .ok _ c => c
  | .error _ c => c

/-- The program has written nothing to the standard output, and notes to the error output. Under
the assumption nobody has written anything to the standard output. -/
structure Unprinted (q : Prop) (w : World) (notes : List Note) (c : Console) : Prop where
  /-- The libraries in memory are as silent as the assumption keeps them. -/
  kept : Kept q w c.state
  /-- What is on the standard output was written by libraries. -/
  loaded : ∀ p ∈ c.screen.out, ∃ bytes, p = .loaded bytes
  /-- Under the assumption there is nothing. -/
  silent : q → c.screen.out = []
  /-- The program has written notes. -/
  noted : c.screen.own.err = notesText notes

/-- However the step ends, the program has written more notes and nothing else. -/
def Quiet (q : Prop) (w : World) (a : Step α) : Prop :=
  ∀ notes c, Unprinted q w notes c → ∃ more, Unprinted q w (notes ++ more) (consoleAfter (a c))

/-- What a library writes is a passage of its own. -/
theorem mem_ofLoaded {p : Passage} {bytes : List UInt8} (h : p ∈ Passage.ofLoaded bytes) :
    p = .loaded bytes := by
  unfold Passage.ofLoaded at h
  split at h
  · exact absurd h List.not_mem_nil
  · exact List.mem_singleton.1 h

theorem Unprinted.load {notes : List Note} {c : Console} (h : Unprinted q w notes c)
    {written : Written} (hsilent : q → written.out = []) :
    Unprinted q w notes { c with screen := c.screen.load written } := by
  refine ⟨h.kept, fun p hp => ?_, fun hq => ?_, ?_⟩
  · rcases List.mem_append.1 hp with hold | hnew
    · exact h.loaded p hold
    · exact ⟨written.out, mem_ofLoaded hnew⟩
  · change c.screen.out ++ Passage.ofLoaded written.out = []
    rw [h.silent hq, hsilent hq]
    rfl
  · dsimp only
    rw [Screen.own_load, h.noted]

/-- The notes of two steps are those of the first and then those of the second. -/
theorem Quiet.bind (ha : Quiet q w a) (hf : ∀ value, Quiet q w (f value)) :
    Quiet q w (a >>= f) := by
  intro notes c hc
  obtain ⟨first, hfirst⟩ := ha notes c hc
  cases hrun : a c with
  | error failure c₁ =>
    rw [hrun] at hfirst
    rw [bind_of_error hrun]
    exact ⟨first, hfirst⟩
  | ok value c₁ =>
    rw [hrun] at hfirst
    obtain ⟨second, hsecond⟩ := hf value _ c₁ hfirst
    rw [bind_of_ok hrun]
    exact ⟨first ++ second, (List.append_assoc notes first second) ▸ hsecond⟩

end

end CommandLine

end UnitLoader
