import UnitLoader.Engine.Basic

/-!
# What actions ensure

`Ensures P a Q E` says of an action that, from every state with `P`, it ends in a state with `Q` of
its value if it succeeds and in one with `E` of the failure if it fails. There is one rule for each
way in which actions are built, so that a fact about a long action is put together from the facts
about its steps.

`At c n w` is the usual `P`: the engine has the configuration `c` and the namespace `n`, and `w`
surrounds it. Nothing is said of the log, of what the engine found out about the compiler, or of
what was used of the process.
-/

namespace UnitLoader.Engine

namespace Action

variable {α β : Type} {P : State → Prop} {E E' : Failure → State → Prop}
  {Q Q' : α → State → Prop} {R : β → State → Prop} {a : Action α} {f : α → Action β}

/-- From every state with `P` the action ends with `Q` if it succeeds, and with `E` if it fails. -/
def Ensures (P : State → Prop) (a : Action α) (Q : α → State → Prop)
    (E : Failure → State → Prop) : Prop :=
  ∀ s, P s → match a s with
    | .ok value s' => Q value s'
    | .error e s' => E e s'

/-! ## Use -/

theorem Ensures.of_ok {s s' : State} {value : α} (h : Ensures P a Q E) (hs : P s)
    (hrun : a s = .ok value s') : Q value s' := by
  have hend := h s hs
  rwa [hrun] at hend

theorem Ensures.of_error {s s' : State} {e : Failure} (h : Ensures P a Q E) (hs : P s)
    (hrun : a s = .error e s') : E e s' := by
  have hend := h s hs
  rwa [hrun] at hend

/-- Less may be concluded. -/
theorem Ensures.mono (h : Ensures P a Q E) (hQ : ∀ value s, Q value s → Q' value s)
    (hE : ∀ e s, E e s → E' e s) : Ensures P a Q' E' := by
  intro s hs
  have hend := h s hs
  split at hend
  · exact hQ _ _ hend
  · exact hE _ _ hend

/-- Less may be concluded of success alone. -/
theorem Ensures.mono_ok (h : Ensures P a Q E) (hQ : ∀ value s, Q value s → Q' value s) :
    Ensures P a Q' E := h.mono hQ fun _ _ hs => hs

/-- Less may be concluded of failure alone. -/
theorem Ensures.mono_error (h : Ensures P a Q E) (hE : ∀ e s, E e s → E' e s) :
    Ensures P a Q E' := h.mono (fun _ _ hs => hs) hE

/-! ## The rules -/

theorem ensures_pure {value : α} (h : ∀ s, P s → Q value s) :
    Ensures P (pure value : Action α) Q E := h

theorem Ensures.bind (ha : Ensures P a Q E) (hf : ∀ value, Ensures (Q value) (f value) R E) :
    Ensures P (a >>= f) R E := by
  intro s hs
  have hfirst := ha s hs
  change match EStateM.bind a f s with
    | .ok value s' => R value s'
    | .error e s' => E e s'
  unfold EStateM.bind
  split at hfirst
  · rename_i value s' hrun
    rw [hrun]
    exact hf value s' hfirst
  · rename_i e s' hrun
    rw [hrun]
    exact hfirst

theorem bind_of_ok {s s' : State} {value : α} (h : a s = .ok value s') :
    (a >>= f) s = f value s' := by
  change EStateM.bind a f s = f value s'
  rw [EStateM.bind, h]

theorem bind_of_error {s s' : State} {e : Failure} (h : a s = .error e s') :
    (a >>= f) s = .error e s' := by
  change EStateM.bind a f s = .error e s'
  rw [EStateM.bind, h]

/-- An action that succeeds had a first part that did. -/
theorem bind_eq_ok {s s' : State} {result : β} (h : (a >>= f) s = .ok result s') :
    ∃ value s₁, a s = .ok value s₁ ∧ f value s₁ = .ok result s' := by
  change EStateM.bind a f s = .ok result s' at h
  unfold EStateM.bind at h
  split at h
  · rename_i value s₁ hrun
    exact ⟨value, s₁, hrun, h⟩
  · contradiction

theorem get_bind (g : State → Action β) (s : State) : (get >>= g) s = g s s := rfl

/-- After a first part only what comes from it matters. -/
theorem bind_congr_of {g : α → Action β} {s : State}
    (h : ∀ value s', a s = .ok value s' → f value s' = g value s') : (a >>= f) s = (a >>= g) s := by
  cases hrun : a s with
  | ok value s' => rw [bind_of_ok hrun, bind_of_ok hrun, h value s' hrun]
  | error e s' => rw [bind_of_error hrun, bind_of_error hrun]

/-- Only what comes of the first part matters. -/
theorem bind_eq_of {b : Action α} {s : State} (h : a s = b s) : (a >>= f) s = (b >>= f) s := by
  change EStateM.bind a f s = EStateM.bind b f s
  rw [EStateM.bind, EStateM.bind, h]

/-- An action fails if its first part does, or the second after the first. -/
theorem bind_eq_error {s s' : State} {e : Failure} (h : (a >>= f) s = .error e s') :
    a s = .error e s' ∨ ∃ value s₁, a s = .ok value s₁ ∧ f value s₁ = .error e s' := by
  change EStateM.bind a f s = .error e s' at h
  unfold EStateM.bind at h
  split at h
  · rename_i value s₁ hrun
    exact .inr ⟨value, s₁, hrun, h⟩
  · rename_i e₁ s₁ hrun
    obtain ⟨rfl, rfl⟩ := EStateM.Result.error.inj h
    exact .inl hrun

theorem ensures_throw {e : Failure} (h : ∀ s, P s → E e s) :
    Ensures P (throw e : Action α) Q E := h

/-- What is read off the state is that of the state. -/
theorem ensures_get {g : State → Action β} (h : ∀ s, P s → Ensures P (g s) R E) :
    Ensures P (get >>= g) R E := fun s hs => h s hs s hs

theorem ensures_modify {g : State → State} {Q : Unit → State → Prop} (h : ∀ s, P s → Q () (g s)) :
    Ensures P (modify g : Action Unit) Q E := h

/-- What is known of the state may name something that there is. -/
theorem ensures_exists {ι : Sort _} {P : ι → State → Prop} (h : ∀ i, Ensures (P i) a Q E) :
    Ensures (fun s => ∃ i, P i s) a Q E := fun s ⟨i, hs⟩ => h i s hs

/-- What is known of the state may hold of more than the state. -/
theorem ensures_and {p : Prop} (h : p → Ensures P a Q E) :
    Ensures (fun s => p ∧ P s) a Q E := fun s ⟨hp, hs⟩ => h hp s hs

/-- An attempt succeeds with what comes of the action. -/
theorem Ensures.attempt (h : Ensures P a Q E) :
    Ensures P (attempt a)
      (fun outcome s => match outcome with
        | .ok value => Q value s
        | .error e => E e s) E' := by
  intro s hs
  cases hrun : a s with
  | ok value s' =>
    have hattempt : Action.attempt a s = .ok (.ok value) s' := by rw [Action.attempt, hrun]
    rw [hattempt]
    exact h.of_ok hs hrun
  | error e s' =>
    have hattempt : Action.attempt a s = .ok (.error e) s' := by rw [Action.attempt, hrun]
    rw [hattempt]
    exact h.of_error hs hrun

/-- Leaving aside what comes of an action changes nothing else. -/
theorem discard_eq_ok {s s' : State} {u : Unit} (h : Functor.discard a s = .ok u s') :
    ∃ value, a s = .ok value s' := by
  change EStateM.map _ a s = .ok u s' at h
  unfold EStateM.map at h
  split at h
  · rename_i value s₁ hrun
    obtain ⟨-, rfl⟩ := EStateM.Result.ok.inj h
    exact ⟨value, hrun⟩
  · contradiction

theorem discard_eq_error {s s' : State} {e : Failure} (h : Functor.discard a s = .error e s') :
    a s = .error e s' := by
  change EStateM.map _ a s = .error e s' at h
  unfold EStateM.map at h
  split at h
  · contradiction
  · rename_i e₁ s₁ hrun
    obtain ⟨rfl, rfl⟩ := EStateM.Result.error.inj h
    exact hrun

theorem discard_eq (a : Action α) : Functor.discard a = (a >>= fun _ => pure ()) := rfl

theorem Ensures.discard (h : Ensures P a Q E) :
    Ensures P (Functor.discard a) (fun _ s => ∃ value, Q value s) E := by
  intro s hs
  split
  · rename_i hrun
    obtain ⟨value, hvalue⟩ := discard_eq_ok hrun
    exact ⟨value, h.of_ok hs hvalue⟩
  · rename_i hrun
    exact h.of_error hs (discard_eq_error hrun)

/-- An outcome ends an action as it says, and leaves the state. -/
theorem ensures_ofExcept {r : Except Error α}
    (h : ∀ e s, r = .error e → P s → E (.error e) s) :
    Ensures P (ofExcept r) (fun value s => r = .ok value ∧ P s) E := by
  cases r with
  | ok value => exact ensures_pure fun s hs => ⟨rfl, hs⟩
  | error e => exact ensures_throw fun s hs => h e s rfl hs

/-- So does an outcome of the file system. -/
theorem ensures_ofFiles {r : Except FileFault α}
    (h : ∀ fault s, r = .error fault → P s → E (.error (.io fault)) s) :
    Ensures P (ofFiles r) (fun value s => r = .ok value ∧ P s) E := by
  cases r with
  | ok value => exact ensures_pure fun s hs => ⟨rfl, hs⟩
  | error fault => exact ensures_throw fun s hs => h fault s rfl hs

end Action

open UnitLoader.Engine.Action

/-! ## Compile errors -/

/-- The compiler refused a unit, and this was found. -/
def Failure.IsReport (e : Failure) : Prop := ∃ name found, e = .error (.compile name found)

/-- What the file system refuses is something else. -/
theorem not_isReport_io (fault : FileFault) : ¬Failure.IsReport (.error (.io fault)) := by
  rintro ⟨name, found, h⟩
  cases h

/-! ## Where an engine is -/

/-- An engine has a configuration and a namespace, and a world surrounds it. -/
structure At (c : Config) (n : Namespace) (w : World) (s : State) : Prop where
  /-- The configuration. -/
  config : s.engine.config = c
  /-- The namespace. -/
  loader : s.engine.loader = n
  /-- The surroundings. -/
  world : s.world = w

theorem at_self (s : State) : At s.engine.config s.engine.loader s.world s := ⟨rfl, rfl, rfl⟩

section

variable {α : Type} {c : Config} {n : Namespace} {w : World} {E : Failure → State → Prop}

/-- Telling something leads nowhere else. -/
theorem ensures_tell (lines : List LogLine) :
    Ensures (At c n w) (tell lines) (fun _ => At c n w) E :=
  ensures_modify fun _ hs => ⟨hs.config, hs.loader, hs.world⟩

/-- Neither does keeping what was found out about the compiler. -/
theorem ensures_keepToolchain (found : Except String Toolchain) :
    Ensures (At c n w) (modifyEngine fun e => { e with toolchain := some found })
      (fun _ => At c n w) E :=
  ensures_modify fun _ hs => ⟨hs.config, hs.loader, hs.world⟩

/-- Nor does using something of the process up. -/
theorem ensures_modifyUsage (f : Usage → Usage) :
    Ensures (At c n w) (modifyUsage f) (fun _ => At c n w) E :=
  ensures_modify fun _ hs => ⟨hs.config, hs.loader, hs.world⟩

theorem ensures_modifyWorld (f : World → World) :
    Ensures (At c n w) (modifyWorld f) (fun _ => At c n (f w)) E :=
  ensures_modify fun _ hs => ⟨hs.config, hs.loader, congrArg f hs.world⟩

theorem ensures_modifyLoader (f : Namespace → Namespace) :
    Ensures (At c n w) (modifyLoader f) (fun _ => At c (f n) w) E :=
  ensures_modify fun _ hs => ⟨hs.config, congrArg f hs.loader, hs.world⟩

theorem ensures_setFiles (files : Files) :
    Ensures (At c n w) (setFiles files) (fun _ => At c n { w with files }) E :=
  ensures_modifyWorld _

theorem ensures_called (call : CompilerCall) :
    Ensures (At c n w) (called call) (fun _ => At c n { w with calls := call :: w.calls }) E :=
  ensures_modifyWorld _

/-- A step of the namespace that succeeds leaves the namespace that it gives. -/
theorem ensures_ofLoader_ok {g : Namespace → Except Error α × Namespace} {value : α}
    {n' : Namespace} (h : g n = (.ok value, n')) :
    Ensures (At c n w) (ofLoader g) (fun value' s => value' = value ∧ At c n' w s) E := by
  refine ensures_get fun s hs => ?_
  rw [hs.loader, h]
  exact (ensures_modifyLoader _).bind fun _ => ensures_pure fun s hs => ⟨rfl, hs⟩

/-- So does one that fails, for its cause. -/
theorem ensures_ofLoader_error {g : Namespace → Except Error α × Namespace} {e : Error}
    {n' : Namespace} {Q : α → State → Prop} (h : g n = (.error e, n')) :
    Ensures (At c n w) (ofLoader g) Q (fun failure s => failure = .error e ∧ At c n' w s) := by
  refine ensures_get fun s hs => ?_
  rw [hs.loader, h]
  exact (ensures_modifyLoader _).bind fun _ => ensures_throw fun s hs => ⟨rfl, hs⟩

/-- A change of the files leaves the files that it gives, whether it is refused or not. -/
theorem ensures_changeFiles (step : Files → Except FileFault Unit × Files) :
    Ensures (At c n w) (changeFiles step) (fun _ => At c n { w with files := (step w.files).2 })
      (fun e s => ¬e.IsReport ∧ At c n { w with files := (step w.files).2 } s) := by
  refine ensures_get fun s hs => ?_
  rw [hs.world]
  refine (ensures_setFiles _).bind fun _ => ?_
  exact (ensures_ofFiles fun fault s _ hs => ⟨not_isReport_io fault, hs⟩).mono_ok
    fun value s hs => hs.2

end

end UnitLoader.Engine
