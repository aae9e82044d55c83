import UnitLoader.Dispatch.Basic
import UnitLoader.Proofs.Outline.Continuation

/-!
# Which declared types are found

The name of a type is a path through inline modules, and modules of one name may stand side by side
under different conditions. A path is followed either into any module of a name (`Inside`) or only
into the first one (`InsideFirst`). `Declares` takes the first way, and `declared?` the second one
(`isSome_declared?_iff`). So a type that is found is declared, and a declared type is found if the
modules on the way are the only ones of their names (`declared?_finds`). A type in a second module
of the same name is not found (`declared?_twins`).
-/

namespace UnitLoader

namespace Dispatch

open Syntax

/-! ## Ways to a declaration -/

/-- The item is an inline module of this name, with these items inside. -/
def IsModule (text : List Char) (item : Item) (inside : List Item) : Prop :=
  ∃ name close, item = .inlineModule name close inside ∧ isNamed name text = true

/-- The item declares a type of this name. -/
def IsType (text : List Char) (item : Item) : Prop :=
  ∃ name generics, item = .declaration name generics ∧ isNamed name text = true

/-- These are the items inside of an inline module of this name. -/
def Inside (items : List Item) (text : List Char) (inside : List Item) : Prop :=
  ∃ item ∈ items, IsModule text item inside

/-- These are the items inside of the first inline module of this name. -/
def InsideFirst (items : List Item) (text : List Char) (inside : List Item) : Prop :=
  ∃ before item behind, items = before ++ item :: behind ∧ IsModule text item inside ∧
    ∀ earlier ∈ before, ∀ inside', ¬ IsModule text earlier inside'

/-- A path leads to a type if each part but the last one enters a module, and the last one is the
name of a type that is declared there. -/
inductive Leads (enters : List Item → List Char → List Item → Prop) :
    List Item → List (List Char) → Prop
  | type {items : List Item} {text : List Char} {item : Item} (mem : item ∈ items)
      (isType : IsType text item) : Leads enters items [text]
  | module {items inside : List Item} {text : List Char} {path : List (List Char)}
      (enter : enters items text inside) (goesOn : Leads enters inside path) :
      Leads enters items (text :: path)

/-- Some chain of inline modules of these names holds a type of the last name. -/
def Declares (items : List Item) (path : List (List Char)) : Prop := Leads Inside items path

/-- On the way to the last name no two modules of one name differ in what is inside. -/
def Unambiguous : List Item → List (List Char) → Prop
  | items, text :: next :: path =>
    (∀ inside inside', Inside items text inside → Inside items text inside' → inside' = inside) ∧
      ∀ inside, Inside items text inside → Unambiguous inside (next :: path)
  | _, _ => True

theorem InsideFirst.inside {items inside : List Item} {text : List Char}
    (h : InsideFirst items text inside) : Inside items text inside := by
  obtain ⟨before, item, behind, rfl, hmodule, -⟩ := h
  exact ⟨item, by simp, hmodule⟩

section

variable {enters enters' : List Item → List Char → List Item → Prop} {items : List Item}
  {path : List (List Char)}

theorem Leads.ne_nil (h : Leads enters items path) : path ≠ [] := by
  cases h <;> exact List.cons_ne_nil _ _

theorem leads_singleton_iff {text : List Char} :
    Leads enters items [text] ↔ ∃ item ∈ items, IsType text item := by
  constructor
  · rintro (⟨mem, isType⟩ | ⟨enter, goesOn⟩)
    · exact ⟨_, mem, isType⟩
    · exact absurd rfl goesOn.ne_nil
  · rintro ⟨item, mem, isType⟩
    exact .type mem isType

theorem leads_cons_iff {text : List Char} (hpath : path ≠ []) :
    Leads enters items (text :: path) ↔
      ∃ inside, enters items text inside ∧ Leads enters inside path := by
  constructor
  · rintro (⟨mem, isType⟩ | ⟨enter, goesOn⟩)
    · exact absurd rfl hpath
    · exact ⟨_, enter, goesOn⟩
  · rintro ⟨inside, enter, goesOn⟩
    exact .module enter goesOn

/-- A way that is more particular about the modules it enters leads to no other types. -/
theorem Leads.mono (hle : ∀ items text inside, enters items text inside → enters' items text inside)
    (h : Leads enters items path) : Leads enters' items path := by
  induction h with
  | type mem isType => exact .type mem isType
  | module enter goesOn ih => exact .module (hle _ _ _ enter) ih

end

/-! ## What the search finds in one scope -/

theorem isSome_genericsOf?_iff {text : List Char} {item : Item} :
    (genericsOf? text item).isSome = true ↔ IsType text item := by
  cases item with
  | declaration name generics =>
    cases h : isNamed name text <;> simp [genericsOf?, IsType, h]
  | _ => simp [genericsOf?, IsType]

theorem map_items_moduleNamed?_iff {text : List Char} {item : Item} {inside : List Item} :
    (moduleNamed? text item).map Scope.items = some inside ↔ IsModule text item inside := by
  cases item with
  | inlineModule name close items =>
    cases h : isNamed name text <;> simp [moduleNamed?, IsModule, h, and_assoc]
  | _ => simp [moduleNamed?, IsModule]

/-- The search in a scope enters the first module of a name. -/
theorem map_items_findSome?_iff {items : List Item} {text : List Char} {inside : List Item} :
    (items.findSome? (moduleNamed? text)).map Scope.items = some inside ↔
      InsideFirst items text inside := by
  have hnone : ∀ item, moduleNamed? text item = none ↔ ∀ inside', ¬ IsModule text item inside' := by
    intro item
    simp only [← map_items_moduleNamed?_iff]
    cases moduleNamed? text item <;> simp
  rw [Option.map_eq_some_iff]
  constructor
  · rintro ⟨scope, hfound, rfl⟩
    obtain ⟨before, item, behind, rfl, hitem, hbefore⟩ := List.findSome?_eq_some_iff.1 hfound
    refine ⟨before, item, behind, rfl, ?_, fun earlier hmem => (hnone earlier).1 (hbefore _ hmem)⟩
    rw [← map_items_moduleNamed?_iff, hitem, Option.map_some]
  · rintro ⟨before, item, behind, rfl, hmodule, hbefore⟩
    obtain ⟨scope, hitem, hinside⟩ :=
      Option.map_eq_some_iff.1 (map_items_moduleNamed?_iff.2 hmodule)
    exact ⟨scope, List.findSome?_eq_some_iff.2 ⟨before, item, behind, rfl, hitem,
      fun earlier hmem => (hnone earlier).2 (hbefore _ hmem)⟩, hinside⟩

/-- Where there is a module of a name, there is a first one. -/
theorem Inside.exists_first {items inside : List Item} {text : List Char}
    (h : Inside items text inside) : ∃ inside', InsideFirst items text inside' := by
  obtain ⟨item, hmem, hmodule⟩ := h
  obtain ⟨scope, hscope, -⟩ := Option.map_eq_some_iff.1 (map_items_moduleNamed?_iff.2 hmodule)
  have hfound : (items.findSome? (moduleNamed? text)).isSome = true :=
    List.findSome?_isSome_iff.2 ⟨item, hmem, by rw [hscope]; rfl⟩
  obtain ⟨first, hfirst⟩ := Option.isSome_iff_exists.1 hfound
  exact ⟨first.items, map_items_findSome?_iff.1 (by rw [hfirst]; rfl)⟩

theorem Scope.isSome_declared?_iff {s : Scope} {text : List Char} :
    (s.declared? text).isSome = true ↔ ∃ item ∈ s.items, IsType text item := by
  rw [Scope.declared?, Option.isSome_map, List.findSome?_isSome_iff]
  simp only [isSome_genericsOf?_iff]

/-! ## Looking everywhere -/

/-- Looks for a type in every chain of modules. -/
def isDeclared : List Item → List (List Char) → Bool
  | _, [] => false
  | items, [text] => items.any fun item => (genericsOf? text item).isSome
  | items, text :: next :: path =>
    items.any fun item => (moduleNamed? text item).any (isDeclared ·.items (next :: path))

theorem isDeclared_iff {items : List Item} {path : List (List Char)} :
    isDeclared items path = true ↔ Declares items path := by
  fun_induction isDeclared items path with
  | case1 => exact iff_of_false Bool.false_ne_true fun h => h.ne_nil rfl
  | case2 items text =>
    rw [Declares, leads_singleton_iff, List.any_eq_true]
    simp only [isSome_genericsOf?_iff]
  | case3 items text next path ih =>
    rw [Declares, leads_cons_iff (List.cons_ne_nil next path), List.any_eq_true]
    -- A module leads on if the rest of the path is declared inside of it.
    have hany : ∀ item, (moduleNamed? text item).any (isDeclared ·.items (next :: path)) = true ↔
        ∃ inside, IsModule text item inside ∧ isDeclared inside (next :: path) = true := by
      intro item
      simp only [← map_items_moduleNamed?_iff]
      cases moduleNamed? text item <;> simp
    simp only [hany]
    constructor
    · rintro ⟨item, hmem, inside, hmodule, hpath⟩
      exact ⟨inside, ⟨item, hmem, hmodule⟩, (ih ⟨inside, none⟩).1 hpath⟩
    · rintro ⟨inside, ⟨item, hmem, hmodule⟩, hpath⟩
      exact ⟨item, hmem, inside, hmodule, (ih ⟨inside, none⟩).2 hpath⟩

instance (items : List Item) (path : List (List Char)) : Decidable (Declares items path) :=
  decidable_of_iff _ isDeclared_iff

/-! ## What is found along a path -/

/-- A chain of modules is entered by the first one of each name. -/
theorem Scope.enter?_declared?_iff (s : Scope) (modules : List (List Char)) (text : List Char) :
    (∃ scope, s.enter? modules = some scope ∧ (scope.declared? text).isSome = true) ↔
      Leads InsideFirst s.items (modules ++ [text]) := by
  induction modules generalizing s with
  | nil =>
    rw [List.nil_append, leads_singleton_iff, ← Scope.isSome_declared?_iff]
    simp [Scope.enter?]
  | cons first rest ih =>
    -- Behind the modules there is the type's name, so this part of the path enters a module.
    rw [List.cons_append, leads_cons_iff (by simp), Scope.enter?]
    simp only [← map_items_findSome?_iff]
    cases s.items.findSome? (moduleNamed? first) with
    | none => simp
    | some inner => simpa using ih inner

/-- A type is found exactly if the first module of each name on the way leads to it. -/
theorem isSome_declared?_iff (items : List Item) (path : List (List Char)) :
    (declared? items path).isSome = true ↔ Leads InsideFirst items path := by
  obtain rfl | ⟨modules, text, rfl⟩ := path.eq_nil_or_concat
  · exact iff_of_false (by simp [declared?]) fun h => h.ne_nil rfl
  · rw [List.concat_eq_append, ← Scope.enter?_declared?_iff ⟨items, none⟩ modules text, declared?]
    simp only [List.getLast?_concat, List.dropLast_concat]
    cases Scope.enter? ⟨items, none⟩ modules <;> simp

/-- Where no two modules of one name differ, every way leads through the first ones. -/
theorem Declares.first {items : List Item} {path : List (List Char)} (h : Declares items path)
    (hpath : Unambiguous items path) : Leads InsideFirst items path := by
  induction h with
  | type mem isType => exact .type mem isType
  | @module items inside text path enter goesOn ih =>
    obtain ⟨next, rest, rfl⟩ := List.exists_cons_of_ne_nil goesOn.ne_nil
    obtain ⟨hsame, hinside⟩ := hpath
    -- The first module of the name is no other than the one that the way enters.
    obtain ⟨inside', hfirst⟩ := enter.exists_first
    obtain rfl := hsame inside inside' enter hfirst.inside
    exact .module hfirst (ih (hinside _ enter))

/-- A unit that parses has what its source has under its name, unless that is generic. -/
theorem usable?_eq_filter {u : SourceUnit} {items : List Item}
    (h : parseFile? u.source.toList = some items) :
    usable? u = (declared? items (SourceUnit.nameParts u.name)).filter (!·.isGeneric) := by
  unfold usable?
  rw [h]
  dsimp only
  cases declared? items (SourceUnit.nameParts u.name) with
  | none => rfl
  | some d => cases hgeneric : d.isGeneric <;> simp [Option.filter, hgeneric]

/-- **What the analysis finds.** A type is found exactly if the first module of each name on the way
leads to it. Then it is declared; and a declared type is found if no two modules of one name differ
on the way, so that a unit which parses can be used unless its type is generic. -/
theorem declared?_finds (items : List Item) (path : List (List Char)) :
    ((declared? items path).isSome = true ↔ Leads InsideFirst items path) ∧
      ((declared? items path).isSome = true → Declares items path) ∧
      (Unambiguous items path → Declares items path → (declared? items path).isSome = true) ∧
      ∀ u : SourceUnit, parseFile? u.source.toList = some items →
        SourceUnit.nameParts u.name = path → Unambiguous items path → Declares items path →
        ∃ d, declared? items path = some d ∧ usable? u = if d.isGeneric then none else some d := by
  have hiff := isSome_declared?_iff items path
  have hfinds : Unambiguous items path → Declares items path →
      (declared? items path).isSome = true := fun hpath h => hiff.2 (h.first hpath)
  refine ⟨hiff, fun h => ?_, hfinds, fun u hparse hname hpath h => ?_⟩
  · exact (hiff.1 h).mono fun _ _ _ hfirst => hfirst.inside
  · obtain ⟨d, hd⟩ := Option.isSome_iff_exists.1 (hfinds hpath h)
    refine ⟨d, hd, ?_⟩
    rw [usable?_eq_filter hparse, hname, hd]
    cases hgeneric : d.isGeneric <;> simp [Option.filter, hgeneric]

/-- Two modules of one name, of which only one is compiled. -/
def twins : String :=
  "#[cfg(windows)] mod m \x7b\x7d #[cfg(not(windows))] mod m \x7b pub struct A; " ++
    "impl A \x7b pub fn f(&self) \x7b\x7d \x7d \x7d"

/-- A type in a second module of the same name gives the unit its name and is not found. -/
theorem declared?_twins :
    ∃ items, parseFile? twins.toList = some items ∧ resolveName twins = .ok "m::A" ∧
      Declares items ["m".toList, "A".toList] ∧
      declared? items ["m".toList, "A".toList] = none ∧ usable? ⟨"m::A", twins⟩ = none := by
  -- The characters of a text are cheap to compute with, the text is not.
  have hchars : twins.toList = _ :=
    String.toList_append.trans (congrArg₂ (· ++ ·) String.toList_ofList String.toList_ofList)
  -- The tree of the source is not written out, only what a search in it comes to.
  have hparse : (parseFile? twins.toList).map (fun items =>
      (decide (Declares items ["m".toList, "A".toList]),
        (declared? items ["m".toList, "A".toList]).isSome)) = some (true, false) := by
    rewrite [hchars]
    decide +kernel
  obtain ⟨items, hitems, hpair⟩ := Option.map_eq_some_iff.1 hparse
  obtain ⟨hdeclared, hfound⟩ := Prod.mk.inj hpair
  have hname : resolveName twins = .ok "m::A" :=
    resolveName_eq_ok_iff.2
      ⟨["m".toList, "A".toList], by rewrite [hchars]; decide +kernel, by decide +kernel⟩
  have hnone : declared? items ["m".toList, "A".toList] = none :=
    Option.isNone_iff_eq_none.1 (Option.isSome_eq_false_iff.1 hfound)
  refine ⟨items, hitems, hname, of_decide_eq_true hdeclared, hnone, ?_⟩
  have hparts : SourceUnit.nameParts "m::A" = ["m".toList, "A".toList] := by decide +kernel
  have hused := usable?_eq_filter (u := ⟨"m::A", twins⟩) hitems
  rw [hused, hparts, hnone]
  rfl

end Dispatch

end UnitLoader
