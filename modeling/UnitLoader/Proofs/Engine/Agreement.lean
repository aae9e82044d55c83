import UnitLoader.Proofs.Engine.ResolutionOrder

/-!
# The registry agrees with what is loaded

Under the policy to reject, the registry has for a loaded name either nothing or the very bytes that
the name was materialized from, wherever those came from (`agreement_run`). A name that is loaded is
not stored again (`isLoaded_of_stored`), so the registry can only lose what it has for it; and a
name that is not loaded yet is loaded from what the registry has, if it has anything
(`filledFrom_after`). The artifacts have to be registered for this and not put into the registry
whatever is loaded.
-/

namespace UnitLoader.Engine

/-! ## What names are materialized from -/

/-- The bytes that a name is materialized from by an event: those of the type that now fills its
slot, if the slot was empty. -/
def Event.materialized? (s : State) (e : Event) (name : String) : Option (List UInt8) :=
  match s.engine.loader.handle? name with
  | some _ => none
  | none => ((e.after s).engine.loader.handle? name).bind fun handle =>
      ((e.after s).world.memory.type? handle).map LoadedType.bytes

/-- The bytes that a name is materialized from among events. -/
def materialized? (name : String) (s : State) : List Event → Option (List UInt8)
  | [] => none
  | e :: rest => (e.materialized? s name).or (materialized? name (e.after s) rest)

/-- A namespace agrees with what is known of names. -/
structure Agrees (known : String → Option (List UInt8)) (n : Namespace) : Prop where
  /-- Of every name that is loaded it is known what it was materialized from, and the registry has
  nothing else for it. -/
  loaded : ∀ name, n.isLoaded name = true → ∃ bytes, known name = some bytes ∧
    (n.registry.get? name = none ∨ n.registry.get? name = some bytes)
  /-- Of others nothing is known. -/
  others : ∀ name, n.isLoaded name = false → known name = none

section

variable {s : State} {name : String}

/-! ## What an event does to the registry -/

/-- A name that is loaded is not stored again. -/
theorem isLoaded_of_stored (h : s.engine.loader.Tidy) (hpolicy : s.engine.loader.policy = .reject)
    {c : Command} {a : Artifact} (hc : c ≠ .insert a) (hstored : c.deed? s = some (.stored a)) :
    s.engine.loader.isLoaded a.name = false := by
  -- What may be stored under a name may not be if the name is loaded.
  have hfresh (hallow : s.engine.loader.isLoaded a.name = true →
      s.engine.loader.policy = .allow) : s.engine.loader.isLoaded a.name = false := by
    refine Bool.eq_false_iff.2 fun hloaded => ?_
    rw [hallow hloaded] at hpolicy
    contradiction
  have hcompiled {other source : String} {options : OptionSet} {limit : Option Text.Duration}
      (hdeed : storedBy? (compileWithin other source options limit s) = some (.stored a)) :
      s.engine.loader.isLoaded a.name = false := by
    cases hrun : compileWithin other source options limit s with
    | error e s' =>
      rw [hrun] at hdeed
      contradiction
    | ok compiled s' =>
      rw [hrun] at hdeed
      obtain rfl := Deed.stored.inj (Option.some.inj hdeed)
      obtain ⟨after, calls, hsucceeds, -⟩ :=
        (ensures_delivers h other source options limit).of_ok (at_self s) hrun
      refine hfresh fun hloaded => hsucceeds.permitted ?_
      rwa [hsucceeds.registers.name] at hloaded
  cases c with
  | insert b =>
    -- Inserting is the one command that does not ask what is loaded.
    obtain rfl := Deed.stored.inj (Option.some.inj hstored)
    exact absurd rfl hc
  | register b =>
    rw [Command.deed?] at hstored
    split at hstored
    · rename_i u s' hrun
      obtain rfl := Deed.stored.inj (Option.some.inj hstored)
      exact hfresh ((ensures_register h b).of_ok (at_self s) hrun).1
    · contradiction
  | compile other source options => exact hcompiled hstored
  | compileWithin other source options limit => exact hcompiled hstored
  | compileAndLoad source options =>
    obtain ⟨other, -, hdeed⟩ := Option.bind_eq_some_iff.1 hstored
    exact hcompiled hdeed
  | append location =>
    -- The other commands store nothing.
    obtain ⟨archive, -, heq⟩ := Option.map_eq_some_iff.1 hstored
    contradiction
  | _ => exact absurd hstored (by simp [Command.deed?])

/-- For a name that is loaded the registry only loses what it has. -/
theorem registry_after (h : s.engine.loader.Tidy) (hpolicy : s.engine.loader.policy = .reject)
    {e : Event} (he : ∀ a, e ≠ .command (.insert a))
    (hloaded : s.engine.loader.isLoaded name = true) :
    (e.after s).engine.loader.registry.get? name = none ∨
      (e.after s).engine.loader.registry.get? name = s.engine.loader.registry.get? name := by
  cases e with
  | change c => exact .inr rfl
  | command c =>
    have hregistry : (endOf (c.run s)).engine.loader.registry =
        (s.engine.loader.unloaded.afterAll (c.deed? s).toList).registry := by
      rw [← unloaded_command h c]
      rfl
    rw [Event.after, hregistry]
    cases hdeed : c.deed? s with
    | none => exact .inr rfl
    | some d =>
      cases d with
      | stored a =>
        -- What is stored is stored for another name.
        have hfresh := isLoaded_of_stored h hpolicy (fun hc => he a (congrArg _ hc)) hdeed
        have hne : name ≠ a.name := by
          rintro rfl
          rw [hloaded] at hfresh
          contradiction
        exact .inr ((NameMap.get?_insert ..).trans (if_neg hne))
      | removed other =>
        -- Removing a name, or all of them, leaves nothing that could disagree.
        have hget := NameMap.get?_erase s.engine.loader.registry other name
        by_cases hsame : name = other
        · exact .inl (hget.trans (if_pos hsame))
        · exact .inr (hget.trans (if_neg hsame))
      | cleared => exact .inl rfl
      | appended archive => exact .inr rfl
      | pushed source => exact .inr rfl

/-! ## What an event materializes -/

/-- The slot of a name was filled with a type of the bytes that are found first for the name. -/
def FilledFrom (s : State) (name : String) (handle : Handle) : Prop :=
  ∃ origin t, s.engine.loader.find? name = some (origin, t.bytes) ∧
    s.world.memory.type? handle = some t

/-- A load that fills a slot fills it from what is found. -/
theorem filledFrom_load (h : s.engine.loader.Tidy) {other : String} {handle : Handle}
    (hempty : s.engine.loader.handle? name = none)
    (hfull : (endOf (load other s)).engine.loader.handle? name = some handle) :
    FilledFrom (endOf (load other s)) name handle := by
  rcases load_cases h other with
    ⟨cached, -, hrun⟩ | ⟨-, e, -, hrun⟩ | ⟨-, origin, bytes, t, log, hfind, htype, hrun⟩
  · rw [hrun, endOf, hempty] at hfull
    contradiction
  · rw [hrun, endOf, hempty] at hfull
    contradiction
  · -- The only slot that is filled is that of the name that is loaded.
    rw [hrun] at hfull ⊢
    dsimp only [endOf] at hfull ⊢
    rw [Namespace.handle?_of_filled rfl] at hfull
    split at hfull
    · rename_i hsame
      obtain rfl := Option.some.inj hfull
      refine ⟨origin, t, ?_, s.world.memory.type?_add t⟩
      rw [hsame, LoadedType.bytes_of_load htype]
      exact hfind
    · rw [hempty] at hfull
      contradiction

/-- A command that loads nothing touches no slot. -/
theorem slots_of_target? (h : s.engine.loader.Tidy) {c : Command} (hc : c.target? = none) :
    ((Event.command c).after s).engine.loader.slots = s.engine.loader.slots := by
  rcases (Event.command c).after_cases h with ⟨-, hslots, -⟩ | ⟨other, handle, harrival, -⟩
  · exact hslots
  · rw [Event.arrival?, hc] at harrival
    split at harrival <;> contradiction

/-- So does every event that fills a slot. -/
theorem filledFrom_after (h : s.engine.loader.Tidy) {e : Event} {handle : Handle}
    (hempty : s.engine.loader.handle? name = none)
    (hfull : (e.after s).engine.loader.handle? name = some handle) :
    FilledFrom (e.after s) name handle := by
  -- Where no slot is touched, none is filled.
  have hempty' {s' : State} (hslots : s'.engine.loader.slots = s.engine.loader.slots) :
      s'.engine.loader.handle? name = none :=
    (Namespace.handle?_of_slots hslots name).trans hempty
  have hkept (s' : State) (hslots : s'.engine.loader.slots = s.engine.loader.slots) :
      s'.engine.loader.handle? name ≠ some handle := by
    rw [hempty' hslots]
    simp
  cases e with
  | change c => exact absurd hfull (hkept _ rfl)
  | command c =>
    cases c with
    | load other =>
      rw [Event.after, Command.run, endOf_bind_pure _ Answer.loaded] at hfull ⊢
      exact filledFrom_load h hempty hfull
    | compileAndLoad source options =>
      -- Compiling fills no slot, so it is filled by the load behind it.
      rw [Event.after, Command.run, endOf_bind_pure _ Answer.loaded, compileAndLoad_eq] at hfull ⊢
      cases hname : resolveName source with
      | error e =>
        rw [hname] at hfull
        exact absurd hfull (hkept s rfl)
      | ok other =>
        rw [hname] at hfull
        have hslots : (endOf (compile other source options s)).engine.loader.slots =
            s.engine.loader.slots := by
          rw [loader_compilation (ensures_compile h other source options)]
          exact (Namespace.kept_afterAll _ _).1
        dsimp only at hfull ⊢
        cases hrun : compile other source options s with
        | error e s' =>
          rw [hrun] at hfull hslots
          exact absurd hfull (hkept s' hslots)
        | ok compiled s' =>
          rw [hrun] at hfull hslots
          exact filledFrom_load (h.of_slots hslots) (hempty' hslots) hfull
    | _ => exact absurd hfull (hkept _ (slots_of_target? h rfl))

/-! ## What is carried on -/

/-- A name that is loaded stays loaded. -/
theorem isLoaded_after (h : s.engine.loader.Tidy) (e : Event)
    (hloaded : s.engine.loader.isLoaded name = true) :
    (e.after s).engine.loader.isLoaded name = true := by
  rcases e.after_cases h with ⟨-, hslots, -⟩ | ⟨other, handle, -, hagain | hanew⟩
  · rwa [Namespace.isLoaded_of_slots hslots]
  · rwa [Namespace.isLoaded_of_slots hagain.slots]
  · rw [Namespace.isLoaded, Namespace.handle?_of_filled hanew.slots]
    split
    · rfl
    · exact hloaded

/-- Every event but a direct insertion carries the agreement on. -/
theorem agrees_after {known : String → Option (List UInt8)} (h : s.engine.loader.Tidy)
    (hpolicy : s.engine.loader.policy = .reject) (hagrees : Agrees known s.engine.loader)
    {e : Event} (he : ∀ a, e ≠ .command (.insert a)) :
    Agrees (fun name => (known name).or (e.materialized? s name)) (e.after s).engine.loader where
  loaded name hloaded := by
    cases hbefore : s.engine.loader.isLoaded name with
    | true =>
      -- It was loaded before, from bytes that are known, and no event registers others for it.
      obtain ⟨bytes, hknown, hregistry⟩ := hagrees.loaded name hbefore
      refine ⟨bytes, by rw [hknown, Option.some_or], ?_⟩
      rcases registry_after h hpolicy he hbefore with hnone | hsame
      · exact .inl hnone
      · rwa [hsame]
    | false =>
      -- The name is loaded by this event, from what the registry has if it has anything.
      have hempty : s.engine.loader.handle? name = none := Namespace.isLoaded_eq_false_iff.1 hbefore
      obtain ⟨handle, hfull⟩ := Option.isSome_iff_exists.1 hloaded
      obtain ⟨origin, t, hfind, htype⟩ := filledFrom_after h hempty hfull
      refine ⟨t.bytes, ?_, ?_⟩
      · rw [hagrees.others name hbefore, Option.none_or, Event.materialized?, hempty, hfull]
        dsimp only [Option.bind_some]
        rw [htype, Option.map_some]
      · have hfound := (e.after s).engine.loader.map_snd_find? name
        rw [hfind] at hfound
        -- What is registered comes first in the search, so it is what was loaded.
        cases hregistry : (e.after s).engine.loader.registry.get? name with
        | none => exact .inl rfl
        | some stored =>
          rw [hregistry, Option.some_or] at hfound
          exact .inr hfound.symm
  others name hunloaded := by
    -- No event unloads a name, so it was not loaded before and is not materialized now.
    have hbefore : s.engine.loader.isLoaded name = false := by
      refine Bool.eq_false_iff.2 fun hloaded => ?_
      rw [isLoaded_after h e hloaded] at hunloaded
      contradiction
    have hempty : s.engine.loader.handle? name = none := Namespace.isLoaded_eq_false_iff.1 hbefore
    have hempty' : (e.after s).engine.loader.handle? name = none :=
      Namespace.isLoaded_eq_false_iff.1 hunloaded
    rw [hagrees.others name hbefore, Option.none_or, Event.materialized?, hempty, hempty']
    rfl

/-- So do events one after the other. -/
theorem agrees_runFrom {known : String → Option (List UInt8)} (h : s.engine.loader.Tidy)
    (hpolicy : s.engine.loader.policy = .reject) (hagrees : Agrees known s.engine.loader)
    {events : List Event} (hevents : ∀ a, .command (.insert a) ∉ events) :
    Agrees (fun name => (known name).or (materialized? name s events))
      (runFrom s events).engine.loader := by
  induction events generalizing known s with
  | nil =>
    simp only [materialized?, Option.or_none]
    exact hagrees
  | cons e rest ih =>
    have he (a : Artifact) : e ≠ .command (.insert a) := by
      rintro rfl
      exact hevents a List.mem_cons_self
    have hrest := ih (tidy_after e h) ((policy_after h e).trans hpolicy)
      (agrees_after h hpolicy hagrees he) fun a hmem => hevents a (List.mem_cons_of_mem e hmem)
    simp only [Option.or_assoc] at hrest
    exact hrest

end

/-- **The registry agrees with what is loaded:** in every run under the policy to reject in which
nothing is put into the registry whatever is loaded, the registry has for every loaded name either
nothing or the bytes that the name was materialized from; and every artifact of a name that is not
loaded is registered. -/
theorem agreement_run (config : Config) (world : World) (log : List LogLine) (events : List Event)
    (hpolicy : config.policy = .reject) (hevents : ∀ a, .command (.insert a) ∉ events) :
    let s := runFrom (start config world log) events
    Agrees (materialized? · (start config world log) events) s.engine.loader ∧
      ∀ a, s.engine.loader.isLoaded a.name = false → ∃ s', register a s = .ok () s' ∧
        s'.engine.loader.registry.get? a.name = some a.bytes := by
  intro s
  have hstart : Agrees (fun _ => none) (start config world log).engine.loader :=
    ⟨fun name hloaded => absurd hloaded Bool.false_ne_true, fun _ _ => rfl⟩
  refine ⟨?_, fun a hunloaded => ?_⟩
  · have hagrees := agrees_runFrom (Namespace.tidy_empty config.policy) hpolicy hstart hevents
    simpa only [Option.none_or] using hagrees
  · have hregister := ensures_register (tidy_run config world log events) a s (at_self s)
    split at hregister
    · rename_i u s' hrun
      refine ⟨s', hrun, ?_⟩
      rw [hregister.2.loader, Namespace.insert, NameMap.get?_insert, if_pos rfl]
    · exact absurd hregister.1.1 (by rw [hunloaded]; exact Bool.false_ne_true)

/-- A configuration with the policy to reject. -/
def rejecting : Config := { Config.standard with policy := .reject }

/-- A name is loaded from a source, and then other bytes are to be registered for it. -/
def redefined : List Event :=
  [.command (.push (.ofEntries "s" [("A", [1, 2])])), .command (.load "A"),
    .command (.register ⟨"A", [3]⟩)]

/-- The name is loaded, and nothing is registered for it. -/
theorem agreement_run_redefined :
    let s := start rejecting plainWorld []
    (runFrom s redefined).engine.loader.isLoaded "A" = true ∧
      Agrees (materialized? · s redefined) (runFrom s redefined).engine.loader ∧
      ∀ a, (runFrom s redefined).engine.loader.isLoaded a.name = false →
        ∃ s', register a (runFrom s redefined) = .ok () s' ∧
          s'.engine.loader.registry.get? a.name = some a.bytes := by
  have hevents (a : Artifact) : .command (.insert a) ∉ redefined := by simp [redefined]
  exact ⟨by decide +kernel, agreement_run rejecting plainWorld [] redefined rfl hevents⟩

end UnitLoader.Engine
