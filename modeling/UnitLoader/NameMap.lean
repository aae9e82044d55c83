/-!
# Maps from names

A `NameMap` binds names to values. Its entries stand in ascending order of their names, so two maps
that bind the same names to the same values are equal, and the names are listed in order.
-/

namespace UnitLoader

/-- A finite map whose keys are names. -/
structure NameMap (α : Type) where
  /-- The names with their values, in order. -/
  entries : List (String × α)
  /-- The order of the names. -/
  ascending : entries.Pairwise fun a b => a.1 < b.1

namespace NameMap

variable {α : Type}

/-- Binds a name in ordered entries. -/
def insertEntry (name : String) (value : α) : List (String × α) → List (String × α)
  | [] => [(name, value)]
  | entry :: rest =>
    if name < entry.1 then (name, value) :: entry :: rest
    else if entry.1 < name then entry :: insertEntry name value rest
    else (name, value) :: rest

/-- An entry of the result is the new one or an old one. -/
theorem mem_insertEntry {name : String} {value : α} {entry : String × α}
    {entries : List (String × α)} (h : entry ∈ insertEntry name value entries) :
    entry = (name, value) ∨ entry ∈ entries := by
  induction entries with
  | nil => simpa [insertEntry] using h
  | cons first rest ih =>
    rw [insertEntry] at h
    split at h
    · simpa using h
    · split at h
      · rcases List.mem_cons.1 h with rfl | h
        · simp
        · rcases ih h with rfl | h <;> simp_all
      · rcases List.mem_cons.1 h with rfl | h <;> simp_all

/-- Binding a name keeps the order. -/
theorem ascending_insertEntry (name : String) (value : α) {entries : List (String × α)}
    (h : entries.Pairwise fun a b => a.1 < b.1) :
    (insertEntry name value entries).Pairwise fun a b => a.1 < b.1 := by
  induction entries with
  | nil => simp [insertEntry]
  | cons first rest ih =>
    have hrest := List.pairwise_cons.1 h
    rw [insertEntry]
    split
    · rename_i before
      refine List.pairwise_cons.2 ⟨fun a ha => ?_, h⟩
      rcases List.mem_cons.1 ha with rfl | ha
      · exact before
      · exact String.lt_trans before (hrest.1 a ha)
    · rename_i notBefore
      split
      · rename_i behind
        refine List.pairwise_cons.2 ⟨fun a ha => ?_, ih hrest.2⟩
        rcases mem_insertEntry ha with rfl | ha
        · exact behind
        · exact hrest.1 a ha
      · -- Neither name is before the other, so they are one, and its value is replaced.
        rename_i notBehind
        have same : name = first.1 :=
          String.le_antisymm (String.not_lt.1 notBehind) (String.not_lt.1 notBefore)
        exact List.pairwise_cons.2 ⟨fun a ha => same ▸ hrest.1 a ha, hrest.2⟩

/-- The map that binds no name. -/
def empty : NameMap α := ⟨[], .nil⟩

/-- The value of a name. -/
def get? (m : NameMap α) (name : String) : Option α := m.entries.lookup name

/-- The name is bound. -/
def contains (m : NameMap α) (name : String) : Bool := (m.get? name).isSome

/-- Binds a name, in place of what it was bound to. -/
def insert (m : NameMap α) (name : String) (value : α) : NameMap α :=
  ⟨insertEntry name value m.entries, ascending_insertEntry name value m.ascending⟩

/-- Binds a name unless it is bound already. -/
def insertIfNew (m : NameMap α) (name : String) (value : α) : NameMap α :=
  if m.contains name then m else m.insert name value

/-- Takes a name out. -/
def erase (m : NameMap α) (name : String) : NameMap α :=
  ⟨m.entries.filter fun entry => entry.1 != name, m.ascending.filter _⟩

/-- The values that a function keeps, under their names. -/
def filterMap {β : Type} (f : α → Option β) (m : NameMap α) : NameMap β :=
  ⟨m.entries.filterMap fun entry => (f entry.2).map (entry.1, ·), by
    refine m.ascending.filterMap _ fun a b before c kept d kept' => ?_
    obtain ⟨_, -, rfl⟩ := Option.map_eq_some_iff.1 kept
    obtain ⟨_, -, rfl⟩ := Option.map_eq_some_iff.1 kept'
    exact before⟩

/-- The names, in ascending order. -/
def names (m : NameMap α) : List String := m.entries.map (·.1)

/-- The number of names. -/
def size (m : NameMap α) : Nat := m.entries.length

/-- No name is bound. -/
def isEmpty (m : NameMap α) : Bool := m.entries.isEmpty

end NameMap

end UnitLoader
