import UnitLoader.Memory

/-!
# Loaded types stay

Bytes are loaded exactly if they are those of a library that can be used under the name
(`Loadable`): the library exports every function of the interface and tells the name and the current
version in a manifest that can be read. Instances and calls leave of a type everything as it is but
the calls that were made of its library (`LoadedType.after`). `Memory.Grows` says of two states of
memory that no handle loses its type from the one to the other.
-/

namespace UnitLoader

/-! ## What is checked -/

/-- Every function of the interface is looked up. -/
theorem Interface.mem_functions (f : Function) : f ∈ functions := by
  cases f <;> decide

/-- A library passes the check under a name exactly if it exports every function of the interface
and shows a manifest that can be read and tells the current version and the name. -/
theorem Library.checked_eq_ok_iff {l : Library} {name : String} {manifest : Manifest} :
    l.checked name = .ok manifest ↔ (∀ f, l.exports f = true) ∧
      ∃ shown, l.manifest = some shown ∧ Manifest.parse shown = .ok manifest ∧
        manifest.abi = Manifest.currentAbi ∧ manifest.typeName = name := by
  unfold checked
  constructor
  · -- The tests are made in order: all functions, a manifest, one that can be read, its version,
    -- its name.
    intro h
    split at h
    · contradiction
    rename_i hnone
    split at h
    · contradiction
    rename_i shown hshown
    split at h
    · contradiction
    rename_i read hread
    split at h
    · contradiction
    rename_i habi
    split at h
    · contradiction
    rename_i hname
    obtain rfl := Except.ok.inj h
    refine ⟨fun f => ?_, shown, hshown, hread, Decidable.not_not.1 habi, Decidable.not_not.1 hname⟩
    -- No function of the interface was found missing.
    simpa using List.find?_eq_none.1 hnone f (Interface.mem_functions f)
  · rintro ⟨hexports, shown, hshown, hread, habi, hname⟩
    have hnone : Interface.functions.find? (fun f => !l.exports f) = none :=
      List.find?_eq_none.2 fun f _ => by simp [hexports f]
    rw [hnone, hshown]
    dsimp only
    rw [hread]
    dsimp only
    rw [if_neg (Decidable.not_not.2 habi), if_neg (Decidable.not_not.2 hname)]

/-- Bytes are those of a library that can be used under a name. -/
def Loadable (images : List UInt8 → Option Library) (name : String) (bytes : List UInt8) : Prop :=
  ∃ library, images bytes = some library ∧ (∀ f, library.exports f = true) ∧
    ∃ shown manifest, library.manifest = some shown ∧ Manifest.parse shown = .ok manifest ∧
      manifest.abi = Manifest.currentAbi ∧ manifest.typeName = name

namespace LoadedType

variable {images : List UInt8 → Option Library} {name : String} {bytes : List UInt8}
  {t : LoadedType}

/-- What bytes are loaded as: a new type of their library, with the manifest that was checked. -/
theorem load_eq_ok_iff : load images name bytes = .ok t ↔
    ∃ library manifest, images bytes = some library ∧ library.checked name = .ok manifest ∧
      t = ⟨bytes, library, manifest, Image.ofName name, []⟩ := by
  unfold load
  cases images bytes with
  | none => simp
  | some library =>
    dsimp only
    cases hchecked : library.checked name with
    | error fault => simp [hchecked]
    | ok manifest => simp [hchecked, eq_comm]

/-- A type is loaded under its own name, with the current version. -/
theorem load_eq_ok (h : load images name bytes = .ok t) :
    t.name = name ∧ t.manifest.abi = Manifest.currentAbi := by
  obtain ⟨library, manifest, -, hchecked, rfl⟩ := load_eq_ok_iff.1 h
  obtain ⟨-, shown, -, -, habi, hname⟩ := Library.checked_eq_ok_iff.1 hchecked
  exact ⟨hname, habi⟩

/-- It remembers what it was loaded from. -/
theorem bytes_of_load (h : load images name bytes = .ok t) : t.bytes = bytes := by
  obtain ⟨library, manifest, -, -, rfl⟩ := load_eq_ok_iff.1 h
  rfl

/-- Bytes are loaded exactly if they can be used under the name. -/
theorem loadable_iff : Loadable images name bytes ↔ ∃ t, load images name bytes = .ok t := by
  constructor
  · rintro ⟨library, himage, hexports, shown, manifest, hshown, hread, habi, hname⟩
    have hchecked : library.checked name = .ok manifest :=
      Library.checked_eq_ok_iff.2 ⟨hexports, shown, hshown, hread, habi, hname⟩
    exact ⟨_, load_eq_ok_iff.2 ⟨library, manifest, himage, hchecked, rfl⟩⟩
  · rintro ⟨t, ht⟩
    obtain ⟨library, manifest, himage, hchecked, -⟩ := load_eq_ok_iff.1 ht
    obtain ⟨hexports, shown, hshown, hread, habi, hname⟩ := Library.checked_eq_ok_iff.1 hchecked
    exact ⟨library, himage, hexports, shown, manifest, hshown, hread, habi, hname⟩

end LoadedType

/-! ## What calls make of a type -/

namespace LoadedType

variable {t : LoadedType} {calls : List Call}

/-- Calls may be made one after the other. -/
theorem after_after (t : LoadedType) (calls later : List Call) :
    (t.after calls).after later = t.after (calls ++ later) := by
  unfold after
  rw [List.reverse_append, List.append_assoc]

/-- A call leaves the type as it was, if the library is not asked; or a request is made of it. -/
theorem type_call (t : LoadedType) (on : Option Nat) (operation : String)
    (arguments : List String) : (t.call on operation arguments).type = t ∨ ∃ request,
      (t.call on operation arguments).type = t.after (t.callsFor request) := by
  unfold call
  split
  · exact .inl rfl
  · split
    · exact .inl rfl
    · exact .inr ⟨_, rfl⟩

end LoadedType

namespace Memory

variable {m : Memory} {h : Handle} {t : LoadedType} {number : Nat} {operation : String}
  {arguments : List String}

/-! ## The operations on memory -/

/-- A type is asked for an instance, and the one that it makes is the latest. -/
theorem instantiate_eq_some {done : Done (Except Error Nat)}
    (hasked : m.instantiate h = some done) :
    ∃ t, m.type? h = some t ∧
      ((t.construct = none ∧ done.result = .error (.notInstantiable t.name) ∧
          done.memory = m.setType h (t.after [.construct none])) ∨
        ∃ address, t.construct = some address ∧ done.result = .ok m.instances.length ∧
          done.memory = { m.setType h (t.after [.construct (some address)]) with
            instances := m.instances ++ [some ⟨h, address⟩] }) := by
  obtain ⟨t, ht, hconstructs⟩ := Option.map_eq_some_iff.1 hasked
  refine ⟨t, ht, ?_⟩
  dsimp only at hconstructs
  split at hconstructs
  · rename_i hnone
    subst hconstructs
    exact .inl ⟨hnone, rfl, by rw [hnone]⟩
  · rename_i address hsome
    subst hconstructs
    exact .inr ⟨address, hsome, rfl, by rw [hsome]⟩

/-- A type is called without an instance. -/
theorem callStatic_eq_some {done : Done (Except Error String)}
    (hcall : m.callStatic h operation arguments = some done) :
    ∃ t, m.type? h = some t ∧ done.result = (t.call none operation arguments).result ∧
      done.memory = m.setType h (t.call none operation arguments).type := by
  obtain ⟨t, ht, rfl⟩ := Option.map_eq_some_iff.1 hcall
  exact ⟨t, ht, rfl, rfl⟩

/-- The type of an instance is called with it. -/
theorem call_eq_some {done : Done (Except Error String)}
    (hcall : m.call number operation arguments = some done) :
    ∃ i t, m.instance? number = some i ∧ m.type? i.handle = some t ∧
      done.result = (t.call (some i.address) operation arguments).result ∧
      done.memory = m.setType i.handle (t.call (some i.address) operation arguments).type := by
  unfold call at hcall
  split at hcall
  · contradiction
  · rename_i i hi
    obtain ⟨t, ht, rfl⟩ := Option.map_eq_some_iff.1 hcall
    exact ⟨i, t, hi, ht, rfl, rfl⟩

/-- The type of an instance is given it to drop, and the place of the instance is left empty. -/
theorem drop_eq_some {done : Done Unit} (hdrop : m.drop number = some done) :
    ∃ i t, m.instance? number = some i ∧ m.type? i.handle = some t ∧
      done.memory = { m.setType i.handle (t.after [.drop i.address]) with
        instances := m.instances.set number none } := by
  unfold drop at hdrop
  split at hdrop
  · contradiction
  · rename_i i hi
    obtain ⟨t, ht, rfl⟩ := Option.map_eq_some_iff.1 hdrop
    exact ⟨i, t, hi, ht, rfl⟩

/-! ## Growth -/

variable {m' : Memory}

/-- Every handle that stands for a type stands for one with the same manifest afterwards. -/
def Grows (m m' : Memory) : Prop :=
  ∀ h t, m.type? h = some t → ∃ t', m'.type? h = some t' ∧ t'.manifest = t.manifest

theorem grows_refl (m : Memory) : m.Grows m := fun _ t ht => ⟨t, ht, rfl⟩

/-- The handle stands for a type that has the name and the current version of the interface. -/
def IsOf (m : Memory) (h : Handle) (name : String) : Prop :=
  ∃ t, m.type? h = some t ∧ t.name = name ∧ t.manifest.abi = Manifest.currentAbi

/-- It does so for ever. -/
theorem Grows.isOf {name : String} (hm : m.Grows m') (hof : m.IsOf h name) : m'.IsOf h name := by
  obtain ⟨t, ht, hname, habi⟩ := hof
  obtain ⟨t', ht', hmanifest⟩ := hm h t ht
  refine ⟨t', ht', ?_, ?_⟩
  · rw [← hname, LoadedType.name, LoadedType.name, hmanifest]
  · rw [hmanifest, habi]

/-- The handle of a new type stood for none before. -/
theorem type?_add_fst (m : Memory) (t : LoadedType) : m.type? (m.add t).1 = none :=
  List.getElem?_eq_none (Nat.le_refl _)

/-- The handle of a new type stands for it. -/
theorem type?_add (m : Memory) (t : LoadedType) : (m.add t).2.type? (m.add t).1 = some t :=
  List.getElem?_concat_length

/-- Every other handle stands for what it stood for. -/
theorem type?_add_of_ne {other : Handle} (hne : other ≠ (m.add t).1) :
    (m.add t).2.type? other = m.type? other := by
  have hindex : other.index ≠ m.types.length := by
    intro heq
    cases other
    exact hne (congrArg Handle.mk heq)
  unfold type? add
  dsimp only
  by_cases hbefore : other.index < m.types.length
  · exact List.getElem?_append_left hbefore
  · have hlength : (m.types ++ [t]).length = m.types.length + 1 := List.length_append
    rw [List.getElem?_eq_none (by omega), List.getElem?_eq_none (by omega)]

/-- A new type leaves the others alone. -/
theorem grows_add (m : Memory) (t : LoadedType) : m.Grows (m.add t).2 := by
  intro h t' ht'
  have hindex : h.index < m.types.length := (List.getElem?_eq_some_iff.1 ht').1
  exact ⟨t', (List.getElem?_append_left hindex).trans ht', rfl⟩

/-- The handle of a type that is replaced stands for what replaces it, and the others for what they
stood for. -/
theorem type?_setType (ht : m.type? h = some t) (after : LoadedType) (other : Handle) :
    (m.setType h after).type? other = if other = h then some after else m.type? other := by
  have hindex : h.index < m.types.length := (List.getElem?_eq_some_iff.1 ht).1
  unfold type? setType
  rw [List.getElem?_set]
  by_cases hsame : other = h
  · rw [if_pos hsame, hsame, if_pos rfl, if_pos hindex]
  · have hne : h.index ≠ other.index := by
      intro heq
      cases h
      cases other
      exact hsame (congrArg Handle.mk heq.symm)
    rw [if_neg hsame, if_neg hne]

end Memory

end UnitLoader
