import UnitLoader.Namespace
import UnitLoader.Proofs.NameMap

/-!
# What a step of a namespace can do

Between two steps no slot of a namespace is empty: the namespace is tidy. In a tidy namespace an
opened slot that is given back leaves no trace, so a registration or a load that fails leaves the
very namespace that it found. `register_cases` and `load_cases` say everything else that the two can
do: a registration that succeeds only puts the artifact into the registry, and a load that succeeds
either gives what the slot holds already, or fills the slot.
-/

namespace UnitLoader

/-- Two errors are the same but for the words of the system's loader and of the reader of manifests:
they are equal, or both say of the bytes of one name that they have the same fault. -/
inductive Error.Same : Error → Error → Prop where
  /-- They are equal. -/
  | equal (e : Error) : Same e e
  /-- The bytes have the same fault, in other words. -/
  | reworded (name : String) (fault : LoadFault) (cause cause' : String) :
    Same (.invalidArtifact name (fault.message cause))
      (.invalidArtifact name (fault.message cause'))

namespace Namespace

variable {n : Namespace} {name : String}

/-! ## What is loaded -/

/-- A name is bound to the type in its slot. -/
@[simp] theorem get?_loaded (n : Namespace) (name : String) :
    n.loaded.get? name = n.handle? name := by
  rw [loaded, NameMap.get?_filterMap, handle?]
  cases n.slots.get? name <;> rfl

/-- The names of the loaded types are the names that are loaded. -/
theorem mem_names_loaded : name ∈ n.loaded.names ↔ n.isLoaded name = true := by
  rw [NameMap.mem_names, get?_loaded, isLoaded]

/-- A name is not loaded exactly if there is nothing in its slot. -/
theorem isLoaded_eq_false_iff : n.isLoaded name = false ↔ n.handle? name = none := by
  rw [isLoaded, Option.isSome_eq_false_iff, Option.isNone_iff_eq_none]

/-- What is loaded depends on nothing but the slots. -/
theorem handle?_of_slots {n' : Namespace} (h : n'.slots = n.slots) (name : String) :
    n'.handle? name = n.handle? name := by
  rw [handle?, handle?, h]

theorem isLoaded_of_slots {n' : Namespace} (h : n'.slots = n.slots) (name : String) :
    n'.isLoaded name = n.isLoaded name := by
  rw [isLoaded, isLoaded, handle?_of_slots h]

/-- A slot that is filled holds the handle, and every other slot what it held. -/
theorem handle?_of_filled {n' : Namespace} {handle : Handle}
    (h : n'.slots = n.slots.insert name (some handle)) (other : String) :
    n'.handle? other = if other = name then some handle else n.handle? other := by
  rw [handle?, handle?, h, NameMap.get?_insert]
  split <;> rfl

/-- An opened slot holds what the slot of the name held. -/
@[simp] theorem handle?_openSlot (n : Namespace) (name other : String) :
    (n.openSlot name).handle? other = n.handle? other := by
  unfold handle? openSlot
  rw [NameMap.get?_insertIfNew]
  split
  · rename_i same
    rw [same]
    cases n.slots.get? name <;> rfl
  · rfl

/-- A slot that is there is not opened again. -/
theorem openSlot_of_get? {slot : Option Handle} (h : n.slots.get? name = some slot) :
    n.openSlot name = n := by
  rw [openSlot, NameMap.insertIfNew, NameMap.contains, h]
  rfl

/-- A name that is loaded has a slot. -/
theorem get?_slots_of_handle? {handle : Handle} (h : n.handle? name = some handle) :
    n.slots.get? name = some (some handle) := Option.join_eq_some_iff.1 h

/-! ## Tidy namespaces -/

/-- No slot is empty. -/
def Tidy (n : Namespace) : Prop := ∀ name, n.slots.get? name ≠ some none

theorem tidy_empty (policy : RedefinitionPolicy) : (empty policy).Tidy := fun name h => by
  rw [empty, NameMap.get?_empty] at h
  contradiction

/-- It depends on nothing but the slots. -/
theorem Tidy.of_slots {n' : Namespace} (h : n.Tidy) (hslots : n'.slots = n.slots) : n'.Tidy := by
  rwa [Tidy, hslots]

/-- A slot that is opened and given back leaves no trace. -/
theorem Tidy.release_openSlot (h : n.Tidy) (name : String) :
    (n.openSlot name).release name = n := by
  cases hslot : n.slots.get? name with
  | some slot =>
    -- The slot was there, and it is full.
    rw [openSlot_of_get? hslot, release, hslot]
    cases slot with
    | none => exact absurd hslot (h name)
    | some handle => rfl
  | none =>
    -- The slot was made, and is taken out again.
    have hopen : (n.openSlot name).slots.get? name = some none := by
      rw [openSlot, NameMap.get?_insertIfNew, if_pos rfl, hslot, Option.getD_none]
    have hsame : (n.slots.insertIfNew name none).erase name = n.slots :=
      NameMap.ext_get? fun other => by
        rw [NameMap.get?_erase, NameMap.get?_insertIfNew]
        split
        · rename_i same
          rw [same, hslot]
        · rfl
    rw [release, hopen]
    dsimp only [openSlot]
    rw [hsame]

/-- Filling the slot of a name keeps the namespace tidy. -/
theorem Tidy.fill (h : n.Tidy) (name : String) (handle : Handle) :
    ({ n with slots := n.slots.insert name (some handle) } : Namespace).Tidy := fun other => by
  dsimp only
  rw [NameMap.get?_insert]
  split
  · exact fun hnone => Option.some_ne_none handle (Option.some.inj hnone)
  · exact h other

/-! ## Registering -/

/-- The registry has no part in giving a slot back. -/
theorem release_insert (n : Namespace) (a : Artifact) (name : String) :
    (n.insert a).release name = (n.release name).insert a := by
  have hslots : (n.insert a).slots = n.slots := rfl
  unfold release
  rw [hslots]
  split <;> rfl

/-- A registration either is refused for a loaded name and leaves everything as it was, or puts the
artifact into the registry and changes nothing else. -/
theorem register_cases (h : n.Tidy) (a : Artifact) :
    (n.isLoaded a.name = true ∧ n.policy = .reject ∧
      n.register a = (.error (.redefinitionHazard a.name), n)) ∨
    ((n.isLoaded a.name = true → n.policy = .allow) ∧
      ∃ log, n.register a = (.ok log, n.insert a)) := by
  have hback := h.release_openSlot a.name
  have hloaded : (n.openSlot a.name).isLoaded a.name = n.isLoaded a.name := by
    rw [isLoaded, handle?_openSlot, isLoaded]
  have hpolicy : (n.openSlot a.name).policy = n.policy := rfl
  unfold register define
  rw [hloaded, hpolicy]
  -- The artifact goes into the registry between opening the slot and giving it back.
  have hafter : ((n.openSlot a.name).insert a).release a.name = n.insert a :=
    calc ((n.openSlot a.name).insert a).release a.name
        = ((n.openSlot a.name).release a.name).insert a := release_insert ..
      _ = n.insert a := by rw [hback]
  cases n.isLoaded a.name with
  | false =>
    exact .inr ⟨fun hfalse => absurd hfalse Bool.false_ne_true, [], congrArg (Prod.mk _) hafter⟩
  | true =>
    rw [if_pos rfl]
    cases n.policy with
    | reject => exact .inl ⟨rfl, rfl, congrArg (Prod.mk _) hback⟩
    | allow => exact .inr ⟨fun _ => rfl, _, congrArg (Prod.mk _) hafter⟩

/-! ## Loading -/

/-- Filling an opened slot is filling the slot. -/
theorem insert_insertIfNew (slots : NameMap (Option Handle)) (name : String)
    (slot : Option Handle) : (slots.insertIfNew name none).insert name slot =
      slots.insert name slot := NameMap.ext_get? fun other => by
  rw [NameMap.get?_insert, NameMap.get?_insert, NameMap.get?_insertIfNew]
  split <;> rfl

/-- Where a name is looked for has nothing to do with the slots. -/
theorem find?_openSlot (n : Namespace) (opened name : String) :
    (n.openSlot opened).find? name = n.find? name := rfl

/-- Why a name that is not loaded cannot be loaded: there are no bytes for it, or those that are
found first cannot be loaded under the name. -/
def Unloadable (n : Namespace) (images : List UInt8 → Option Library)
    (causes : List UInt8 → LoadFault → String) (name : String) (e : Error) : Prop :=
  (n.find? name = none ∧ e = .resolution name) ∨
    ∃ origin bytes fault, n.find? name = some (origin, bytes) ∧
      LoadedType.load images name bytes = .error fault ∧
      e = .invalidArtifact name (fault.message (causes bytes fault))

/-- A load gives what the slot of the name holds; or, if the slot holds nothing, it either fails and
leaves everything as it was, or fills the slot with a new type. -/
theorem load_cases (h : n.Tidy) (images : List UInt8 → Option Library)
    (causes : List UInt8 → LoadFault → String) (m : Memory) (name : String) :
    (∃ handle, n.handle? name = some handle ∧
      n.load images causes m name = (.ok ⟨handle, m, []⟩, n)) ∨
    (n.handle? name = none ∧ ∃ e, n.Unloadable images causes name e ∧
      n.load images causes m name = (.error e, n)) ∨
    (n.handle? name = none ∧ ∃ origin bytes t log, n.find? name = some (origin, bytes) ∧
      LoadedType.load images name bytes = .ok t ∧
      n.load images causes m name = (.ok ⟨(m.add t).1, (m.add t).2, log⟩,
        { n with slots := n.slots.insert name (some (m.add t).1) })) := by
  have hback := h.release_openSlot name
  unfold load materialize
  rw [handle?_openSlot, find?_openSlot]
  cases hslot : n.handle? name with
  | some handle =>
    -- A slot that is full is not given back, and was not opened either.
    exact .inl ⟨handle, rfl, congrArg (Prod.mk _)
      (openSlot_of_get? (get?_slots_of_handle? hslot))⟩
  | none =>
    -- A slot is opened, and released again if nothing comes of it (`hback`).
    refine .inr ?_
    cases hfind : n.find? name with
    | none => exact .inl ⟨rfl, _, .inl ⟨hfind, rfl⟩, congrArg (Prod.mk _) hback⟩
    | some found =>
      obtain ⟨origin, bytes⟩ := found
      dsimp only
      cases hload : LoadedType.load images name bytes with
      | error fault =>
        have hfault : n.Unloadable images causes name
            (.invalidArtifact name (fault.message (causes bytes fault))) :=
          .inr ⟨origin, bytes, fault, hfind, hload, rfl⟩
        exact .inl ⟨rfl, _, hfault, congrArg (Prod.mk _) hback⟩
      | ok t =>
        -- It is filled, which is the same as if it had not been opened before.
        refine .inr ⟨rfl, origin, bytes, t, _, rfl, hload, congrArg (Prod.mk _) ?_⟩
        dsimp only [openSlot]
        rw [insert_insertIfNew]

end Namespace

end UnitLoader
