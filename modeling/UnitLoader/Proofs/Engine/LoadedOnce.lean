import UnitLoader.Proofs.Engine.ResolutionOrder

/-!
# A name is loaded once for ever

An arrival is a load that gave a handle. `LoadedOnce` relates the arrivals of a run to the namespace
and the memory at its end: of the arrivals of one name the first is that of a new type, and all
later ones give the same handle again, which is the one in the slot of the name. Each event carries
the relation on (`LoadedOnce.again`, `LoadedOnce.anew`), so `loadedOnce_run` has it for every run,
and with it what `isLoaded` and the list of loaded names report.
-/

namespace UnitLoader.Engine

/-- The arrivals among events. -/
def arrivals (s : State) : List Event → List Arrival
  | [] => []
  | e :: rest => (e.arrival? s).toList ++ arrivals (e.after s) rest

/-- What the arrivals of a run say of the namespace and of memory at its end. -/
structure LoadedOnce (arrivals : List Arrival) (n : Namespace) (m : Memory) : Prop where
  /-- No slot is empty. -/
  tidy : n.Tidy
  /-- A later arrival of a name gives the same handle, and it is not that of a new type. -/
  same : arrivals.Pairwise fun first later =>
    later.name = first.name → later.handle = first.handle ∧ later.isNew = false
  /-- Of every name that arrives, one arrival is that of a new type. -/
  once : ∀ a ∈ arrivals, ∃ first ∈ arrivals,
    first.name = a.name ∧ first.handle = a.handle ∧ first.isNew = true
  /-- The slot of a name holds the handle of its arrivals. -/
  slot : ∀ name handle,
    n.handle? name = some handle ↔ ∃ a ∈ arrivals, a.name = name ∧ a.handle = handle
  /-- It stands for a type that has the name and the current version of the interface. -/
  type : ∀ name handle, n.handle? name = some handle → m.IsOf handle name

namespace LoadedOnce

variable {arrivals : List Arrival} {n n' : Namespace} {m m' : Memory} {name : String}
  {handle : Handle}

/-- Nothing arrived yet. -/
theorem empty (policy : RedefinitionPolicy) (m : Memory) : LoadedOnce [] (.empty policy) m where
  tidy := Namespace.tidy_empty policy
  same := .nil
  once _ ha := absurd ha List.not_mem_nil
  slot _ handle := ⟨fun h => absurd h (Option.some_ne_none handle).symm,
    fun ⟨_, ha, _⟩ => absurd ha List.not_mem_nil⟩
  type _ handle h := absurd h (Option.some_ne_none handle).symm

/-- What does not touch the slots, and lets memory forget nothing, is no arrival. -/
theorem of_slots (h : LoadedOnce arrivals n m) (hslots : n'.slots = n.slots) (hm : m.Grows m') :
    LoadedOnce arrivals n' m' := by
  have hhandle := Namespace.handle?_of_slots hslots
  refine ⟨h.tidy.of_slots hslots, h.same, h.once, fun name handle => ?_,
    fun name handle hfull => ?_⟩
  · rw [hhandle]
    exact h.slot name handle
  · rw [hhandle] at hfull
    exact hm.isOf (h.type name handle hfull)

/-! ### One more arrival -/

theorem exists_mem_concat {last : Arrival} {p : Arrival → Prop} :
    (∃ a ∈ arrivals ++ [last], p a) ↔ (∃ a ∈ arrivals, p a) ∨ p last := by
  simp only [List.mem_append, List.mem_singleton, or_and_right, exists_or, exists_eq_left]

theorem same_concat {last : Arrival} (h : LoadedOnce arrivals n m)
    (hlast : ∀ first ∈ arrivals,
      last.name = first.name → last.handle = first.handle ∧ last.isNew = false) :
    (arrivals ++ [last]).Pairwise fun first later =>
      later.name = first.name → later.handle = first.handle ∧ later.isNew = false := by
  refine List.pairwise_append.2 ⟨h.same, List.pairwise_singleton _ _, ?_⟩
  intro first hfirst later hlater
  obtain rfl := List.mem_singleton.1 hlater
  exact hlast first hfirst

theorem once_concat {last : Arrival} (h : LoadedOnce arrivals n m)
    (hlast : ∃ first ∈ arrivals ++ [last],
      first.name = last.name ∧ first.handle = last.handle ∧ first.isNew = true) :
    ∀ a ∈ arrivals ++ [last], ∃ first ∈ arrivals ++ [last],
      first.name = a.name ∧ first.handle = a.handle ∧ first.isNew = true := by
  intro a ha
  rcases List.mem_append.1 ha with ha | ha
  · exact exists_mem_concat.2 (.inl (h.once a ha))
  · obtain rfl := List.mem_singleton.1 ha
    exact hlast

/-- A load that finds its slot full is an arrival of what arrived before. -/
theorem again (h : LoadedOnce arrivals n m) (hload : LoadedAgain n m name handle n' m') :
    LoadedOnce (arrivals ++ [⟨name, handle, (m.type? handle).isNone⟩]) n' m' := by
  obtain ⟨hcached, hslots, rfl⟩ := hload
  obtain ⟨t, ht, -⟩ := h.type name handle hcached
  obtain ⟨before, hbefore, hname, hhandle⟩ := (h.slot name handle).1 hcached
  have hn' := h.of_slots hslots m'.grows_refl
  refine ⟨hn'.tidy, h.same_concat fun first hfirst hsame => ?_,
    h.once_concat (exists_mem_concat.2 (.inl ?_)), fun other given => ?_, hn'.type⟩
  · -- The slot holds one handle only, and that stands for a type already.
    have hfull := (h.slot name first.handle).2 ⟨first, hfirst, hsame.symm, rfl⟩
    exact ⟨Option.some.inj (hcached.symm.trans hfull), by rw [ht, Option.isNone_some]⟩
  · obtain ⟨first, hfirst, hfirstName, hfirstHandle, hnew⟩ := h.once before hbefore
    exact ⟨first, hfirst, hfirstName.trans hname, hfirstHandle.trans hhandle, hnew⟩
  · rw [hn'.slot, exists_mem_concat, or_iff_left_of_imp]
    rintro ⟨rfl, rfl⟩
    exact ⟨before, hbefore, hname, hhandle⟩

/-- A load that fills its slot is the first arrival of its name. -/
theorem anew (h : LoadedOnce arrivals n m) (hload : LoadedAnew n m name handle n' m') :
    LoadedOnce (arrivals ++ [⟨name, handle, (m.type? handle).isNone⟩]) n' m' := by
  obtain ⟨hempty, hslots, t, hname, habi, rfl, rfl⟩ := hload
  -- The slot was empty, so the name has not arrived yet.
  have hnone (a : Arrival) (ha : a ∈ arrivals) : a.name ≠ name := by
    rintro rfl
    rw [(h.slot a.name a.handle).2 ⟨a, ha, rfl, rfl⟩] at hempty
    contradiction
  have hhandle := Namespace.handle?_of_filled hslots
  -- So this arrival is the first of its name, and its handle stands for a type from now on.
  refine ⟨(h.tidy.fill name (m.add t).1).of_slots hslots,
    h.same_concat fun first hfirst hsame => absurd hsame.symm (hnone first hfirst),
    h.once_concat (exists_mem_concat.2 (.inr ⟨rfl, rfl, ?_⟩)), fun other given => ?_,
    fun other given hfull => ?_⟩
  · rw [m.type?_add_fst, Option.isNone_none]
  · rw [hhandle, exists_mem_concat]
    split
    · rename_i hsame
      rw [hsame, or_iff_right]
      · exact ⟨fun hgiven => ⟨rfl, Option.some.inj hgiven⟩, fun hthis => congrArg some hthis.2⟩
      · rintro ⟨a, ha, haname, -⟩
        exact hnone a ha haname
    · rename_i hother
      rw [h.slot, or_iff_left]
      exact fun hthis => hother hthis.1.symm
  · rw [hhandle] at hfull
    split at hfull
    · rename_i hsame
      obtain rfl := Option.some.inj hfull
      exact ⟨t, m.type?_add t, hname.trans hsame.symm, habi⟩
    · exact (m.grows_add t).isOf (h.type other given hfull)

end LoadedOnce

/-! ## Runs -/

/-- Every event carries the relation on to what it adds to the arrivals. -/
theorem loadedOnce_after {before : List Arrival} {s : State} (e : Event)
    (h : LoadedOnce before s.engine.loader s.world.memory) :
    LoadedOnce (before ++ (e.arrival? s).toList) (e.after s).engine.loader
      (e.after s).world.memory := by
  rcases e.after_cases h.tidy with ⟨hnone, hslots, hgrows⟩ | ⟨name, handle, hsome, hload⟩
  · rw [hnone, Option.toList_none, List.append_nil]
    exact h.of_slots hslots hgrows
  · rw [hsome, Option.toList_some]
    exact hload.elim h.again h.anew

/-- Events one after the other carry the relation on to all that they add. -/
theorem loadedOnce_runFrom {before : List Arrival} {s : State} (events : List Event)
    (h : LoadedOnce before s.engine.loader s.world.memory) :
    LoadedOnce (before ++ arrivals s events) (runFrom s events).engine.loader
      (runFrom s events).world.memory := by
  induction events generalizing before s with
  | nil =>
    rw [arrivals, List.append_nil]
    exact h
  | cons e rest ih =>
    rw [arrivals, ← List.append_assoc]
    exact ih (loadedOnce_after e h)

/-- In every run of an engine, each name is loaded as a new type at most once, and every load of it
from then on gives the same handle. At the end the names that are reported as loaded are those that
arrived, in ascending order. -/
theorem loadedOnce_run (config : Config) (world : World) (log : List LogLine)
    (events : List Event) :
    let arrived := arrivals (start config world log) events
    let s := runFrom (start config world log) events
    LoadedOnce arrived s.engine.loader s.world.memory ∧
      (∀ name, s.engine.loader.isLoaded name = true ↔ ∃ a ∈ arrived, a.name = name) ∧
      (∀ name, name ∈ s.engine.loader.loaded.names ↔ ∃ a ∈ arrived, a.name = name) ∧
      s.engine.loader.loaded.names.Pairwise (· < ·) := by
  intro arrived s
  have hstart : LoadedOnce [] (start config world log).engine.loader
      (start config world log).world.memory := .empty config.policy world.memory
  have h : LoadedOnce arrived s.engine.loader s.world.memory := loadedOnce_runFrom events hstart
  -- The slots that are full are those of the names that arrived.
  have hloaded (name : String) :
      s.engine.loader.isLoaded name = true ↔ ∃ a ∈ arrived, a.name = name := by
    rw [Namespace.isLoaded, Option.isSome_iff_exists]
    constructor
    · rintro ⟨handle, hfull⟩
      obtain ⟨a, ha, hname, -⟩ := (h.slot name handle).1 hfull
      exact ⟨a, ha, hname⟩
    · rintro ⟨a, ha, hname⟩
      exact ⟨a.handle, (h.slot name a.handle).2 ⟨a, ha, hname, rfl⟩⟩
  refine ⟨h, hloaded, fun name => ?_, s.engine.loader.loaded.names_pairwise⟩
  rw [Namespace.mem_names_loaded, hloaded]

/-- A name is loaded, other bytes are put into the registry for it, and it is loaded again. -/
def reloaded : List Event :=
  [.command (.push (.ofEntries "s" [("A", [1, 2])])), .command (.load "A"),
    .command (.insert ⟨"A", [3]⟩), .command (.load "A")]

/-- The second load gives the handle of the first one, and no type is new then. -/
theorem loadedOnce_run_reloaded :
    let s := start .standard plainWorld []
    arrivals s reloaded = [⟨"A", ⟨0⟩, true⟩, ⟨"A", ⟨0⟩, false⟩] ∧
      LoadedOnce (arrivals s reloaded) (runFrom s reloaded).engine.loader
        (runFrom s reloaded).world.memory ∧
      (runFrom s reloaded).engine.loader.loaded.names = ["A"] := by
  intro s
  exact ⟨by decide +kernel, (loadedOnce_run .standard plainWorld [] reloaded).1, by decide +kernel⟩

end UnitLoader.Engine
