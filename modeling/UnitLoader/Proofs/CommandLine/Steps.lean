import UnitLoader.CommandLine.Execution
import UnitLoader.Proofs.Engine.Run

/-!
# Steps of a command

A command is put together from steps, each of which succeeds or fails and leaves the console
changed. `Step.bind_of_ok`, `Step.bind_of_error` and `Step.act_eq_ok` tell what the parts of a step
come to. A command is executed by taking its steps from a fresh console, and when they have ended
the libraries that it loaded are closed (`execute_eq`).
-/

namespace UnitLoader.CommandLine

open UnitLoader.Engine (Action start)

/-! ## Steps -/

namespace Step

variable {α β : Type} {a : Step α} {f : α → Step β} {c c' : Console} {value : α}
  {problem : Failure}

/-- A step behind one that succeeds goes on where that one stopped. -/
theorem bind_of_ok (h : a c = .ok value c') : (a >>= f) c = f value c' := by
  change EStateM.bind a f c = _
  rw [EStateM.bind, h]

/-- A step behind one that fails is not taken. -/
theorem bind_of_error (h : a c = .error problem c') : (a >>= f) c = .error problem c' := by
  change EStateM.bind a f c = _
  rw [EStateM.bind, h]

/-- A step that succeeds had a first part that did. -/
theorem bind_eq_ok {result : β} (h : (a >>= f) c = .ok result c') :
    ∃ value c₁, a c = .ok value c₁ ∧ f value c₁ = .ok result c' := by
  change EStateM.bind a f c = _ at h
  unfold EStateM.bind at h
  split at h
  · rename_i value c₁ hrun
    exact ⟨value, c₁, hrun, h⟩
  · contradiction

theorem get_eq (c : Console) : (get : Step Console) c = .ok c c := rfl

theorem warn_eq (text : String) (c : Console) :
    warn text c = .ok () { c with screen := c.screen.warn text } := rfl

section

variable {failure : Engine.Failure → Failure} {action : Action α} {s : Engine.State}

theorem act_of_ok (h : action c.state = .ok value s) :
    act failure action c = .ok value { c with state := s } := by
  rw [act, h]

theorem act_of_error {e : Engine.Failure} (h : action c.state = .error e s) :
    act failure action c = .error (failure e) { c with state := s } := by
  rw [act, h]

end

end Step

open Step

/-! ## How commands end -/

theorem tidy_opened (w : World) : (Console.opened w).state.engine.loader.Tidy :=
  Namespace.tidy_empty _

/-- If nothing is loaded, nothing is closed. -/
theorem closed_of_empty {c : Console} (h : c.state.world.memory = .empty) :
    c.closed = c.screen := by
  unfold Console.closed
  rw [h]
  rfl

/-- What comes of a command is what comes of its steps. -/
theorem execute_eq (times : Times) (w : World) (c : Command) :
    execute times w c =
      match c.steps times (.opened w) with
      | .ok _ after => ⟨0, after.closed, after.state.world⟩
      | .error failure after =>
        ⟨failure.status,
          (after.closed.warn (shownDiagnostics failure.diagnostics)).warn failure.report,
          after.state.world⟩ := rfl

/-- A failure shows in the status. -/
theorem Failure.status_ne_zero (failure : Failure) : failure.status ≠ 0 := by
  cases failure <;> simp [Failure.status]

/-- A file holds this text. -/
def Holds (w : World) (file source : String) : Prop :=
  ∃ bytes text, w.files.read file = .ok bytes ∧ Text.Utf8.decode bytes = .ok text ∧
    String.ofList text = source

/-- A file can be read and declares a name. -/
structure Declares (w : World) (file source name : String) : Prop where
  /-- The source is what the file holds. -/
  holds : Holds w file source
  /-- The name is read off the source. -/
  resolves : resolveName source = .ok name

section

variable {w : World} {c : Console} {file source name : String}

theorem Holds.readSource (h : Holds c.state.world file source) :
    readSource file c = .ok source c := by
  obtain ⟨bytes, text, hread, hdecode, hsource⟩ := h
  unfold CommandLine.readSource
  subst hsource
  rw [bind_of_ok (get_eq c), hread]
  dsimp only
  rw [hdecode]
  rfl

theorem Declares.readSource (h : Declares c.state.world file source name) :
    CommandLine.readSource file c = .ok source c := Holds.readSource h.holds

theorem Declares.resolveName (h : Declares w file source name) (c : Console) :
    ofAction (Action.ofExcept (UnitLoader.resolveName source)) c = .ok name c := by
  rw [h.resolves]
  rfl

end

end UnitLoader.CommandLine
