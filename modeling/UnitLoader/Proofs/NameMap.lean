import Mathlib.Data.List.Sort
import UnitLoader.NameMap

/-!
# What a map from names binds

A name is bound to a value exactly if the two stand together in an entry, since no name stands in
two entries. From this every operation of a `NameMap` is known by what it does to `get?`, and two
maps with the same `get?` are equal: `ext_get?`. The names are those that are bound, each once, in
ascending order.
-/

namespace UnitLoader.NameMap

variable {α β : Type} {m : NameMap α} {name : String}

/-- In ordered entries a name is found with the value that it stands beside. -/
theorem lookup_eq_some_iff {entries : List (String × α)} {value : α}
    (h : entries.Pairwise fun a b => a.1 < b.1) :
    entries.lookup name = some value ↔ (name, value) ∈ entries := by
  induction entries with
  | nil => simp
  | cons first rest ih =>
    obtain ⟨hfirst, hrest⟩ := List.pairwise_cons.1 h
    rw [List.lookup_cons, List.mem_cons]
    by_cases hname : name = first.1
    · -- The entry found first is the only one of the name.
      subst hname
      have hout : (first.1, value) ∉ rest := fun hmem =>
        String.lt_irrefl _ (hfirst (first.1, value) hmem)
      rw [beq_self_eq_true]
      simp only [hout, or_false, Option.some.injEq, Prod.ext_iff, true_and, eq_comm]
    · have hne : (name, value) ≠ first := fun heq => hname (congrArg Prod.fst heq)
      rw [beq_false_of_ne hname, ih hrest]
      simp only [hne, false_or]

/-- A name is bound to a value exactly if they stand together in an entry. -/
theorem get?_eq_some_iff {value : α} : m.get? name = some value ↔ (name, value) ∈ m.entries :=
  lookup_eq_some_iff m.ascending

/-- Maps that bind the same names to the same values are equal. -/
theorem ext_get? {m' : NameMap α} (h : ∀ name, m.get? name = m'.get? name) : m = m' := by
  have hirrefl : Std.Irrefl fun a b : String × α => a.1 < b.1 := ⟨fun a => String.lt_irrefl a.1⟩
  have hantisymm : Std.Antisymm fun a b : String × α => a.1 < b.1 :=
    ⟨fun a b hab hba => absurd (String.lt_trans hab hba) (String.lt_irrefl a.1)⟩
  -- Entries in order are known by which entries there are.
  have hentries : m.entries = m'.entries := by
    refine m.ascending.eq_of_mem_iff m'.ascending fun entry => ?_
    rw [← get?_eq_some_iff, ← get?_eq_some_iff, h entry.1]
  cases m
  cases m'
  exact (mk.injEq ..).mpr hentries

/-! ## What the operations bind -/

/-- Binding a name in ordered entries changes what is found for this name and for no other. -/
theorem lookup_insertEntry (name other : String) (value : α) (entries : List (String × α)) :
    (insertEntry name value entries).lookup other =
      if other = name then some value else entries.lookup other := by
  induction entries with
  | nil =>
    rw [insertEntry, List.lookup_cons]
    split <;> simp_all
  | cons first rest ih =>
    rw [insertEntry]
    split
    · rw [List.lookup_cons]
      split <;> simp_all
    · split
      · -- The name comes later in the order, so it is not that of the first entry.
        rename_i hbehind
        rw [List.lookup_cons, List.lookup_cons, ih]
        split
        · rename_i hfirst
          rw [if_neg]
          rintro rfl
          exact String.lt_irrefl _ (eq_of_beq hfirst ▸ hbehind)
        · rfl
      · -- The name is neither smaller nor larger than the first one.
        rename_i hbefore hbehind
        have hsame : first.1 = name :=
          String.le_antisymm (String.not_lt.1 hbefore) (String.not_lt.1 hbehind)
        rw [List.lookup_cons, List.lookup_cons, hsame]
        split <;> simp_all

@[simp] theorem get?_empty (name : String) : (empty : NameMap α).get? name = none := rfl

@[simp] theorem get?_insert (m : NameMap α) (name other : String) (value : α) :
    (m.insert name value).get? other = if other = name then some value else m.get? other :=
  lookup_insertEntry name other value m.entries

/-- Binding a name that is bound already changes nothing. -/
@[simp] theorem get?_insertIfNew (m : NameMap α) (name other : String) (value : α) :
    (m.insertIfNew name value).get? other =
      if other = name then some ((m.get? name).getD value) else m.get? other := by
  unfold insertIfNew contains
  cases h : m.get? name with
  | none => simp
  | some found =>
    simp only [Option.isSome_some, if_true, Option.getD_some]
    split
    · rename_i hsame
      rw [hsame, h]
    · rfl

@[simp] theorem get?_erase (m : NameMap α) (name other : String) :
    (m.erase name).get? other = if other = name then none else m.get? other := by
  ext value
  rw [get?_eq_some_iff]
  simp only [erase, List.mem_filter, bne_iff_ne, ← get?_eq_some_iff]
  split <;> simp_all

@[simp] theorem get?_filterMap (f : α → Option β) (m : NameMap α) (name : String) :
    (m.filterMap f).get? name = (m.get? name).bind f := by
  ext value
  rw [get?_eq_some_iff]
  simp only [filterMap, List.mem_filterMap, Option.map_eq_some_iff, Prod.mk.injEq,
    Option.bind_eq_some_iff]
  constructor
  · rintro ⟨entry, hmem, found, hf, rfl, rfl⟩
    exact ⟨entry.2, get?_eq_some_iff.2 hmem, hf⟩
  · rintro ⟨old, hget, hf⟩
    exact ⟨(name, old), get?_eq_some_iff.1 hget, value, hf, rfl, rfl⟩

/-! ## The names -/

/-- The names stand in strictly ascending order. -/
theorem names_pairwise (m : NameMap α) : m.names.Pairwise (· < ·) :=
  List.pairwise_map.2 m.ascending

/-- The names are those that are bound. -/
theorem mem_names : name ∈ m.names ↔ (m.get? name).isSome := by
  rw [names, List.mem_map, Option.isSome_iff_exists]
  constructor
  · rintro ⟨entry, hmem, rfl⟩
    exact ⟨entry.2, get?_eq_some_iff.2 hmem⟩
  · rintro ⟨value, hget⟩
    exact ⟨(name, value), get?_eq_some_iff.1 hget, rfl⟩

/-- There are as many names as the size says. -/
theorem length_names (m : NameMap α) : m.names.length = m.size := List.length_map _

/-- No name is listed twice. -/
theorem names_nodup (m : NameMap α) : m.names.Nodup := by
  refine m.names_pairwise.imp fun {a b} h => ?_
  rintro rfl
  exact String.lt_irrefl a h

end UnitLoader.NameMap
