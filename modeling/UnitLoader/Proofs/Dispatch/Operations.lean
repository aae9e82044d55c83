import UnitLoader.Proofs.Dispatch.Anchor

/-!
# Whose methods become operations

The operations of a dispatch module are the methods of implementations that stand beside the
declaration of the unit's type (`exists_declaredIn`). An implementation is taken for one of the type
if its path ends in the name of the type, while the type that a path stands for depends on all of
its parts: `absolute?` follows them through the modules. A path that stands for the type ends in its
name (`isSelfType_of_isOf`), so no operation of the type is missed.

The converse fails: `impl q::T` ends in `T` too, and its methods are listed as operations of the `T`
that stands beside it (`generate_otherType`). `operations_eq_own_iff` says that this is the only way
to an operation of another type.
-/

namespace UnitLoader.Dispatch

open Syntax

/-! ## Where operations come from -/

/-- The methods that an item gives if it is an implementation of an accepted type. -/
def methodsBy (accepts : TypeTree → Bool) : Item → List Method
  | .implementation false [] self methods => if accepts self then methods else []
  | _ => []

/-- The operations that the implementations of accepted types give, in the order of the text. -/
def operationsBy (accepts : TypeTree → Bool) (items : List Item) : List Operation :=
  ((items.flatMap (methodsBy accepts)).filterMap planMethod?).map Plan.operation

/-- The type of a unit is declared in this scope, by this name behind these modules, and it has no
parameters. -/
structure DeclaredIn (u : SourceUnit) (modules : List (List Char)) (type : List Char)
    (scope : Scope) : Prop where
  /-- The name of the unit says so. -/
  named : SourceUnit.nameParts u.name = modules ++ [type]
  /-- The scope is that of the innermost module. -/
  entered : ∃ items, parseFile? u.source.toList = some items ∧
    Scope.enter? ⟨items, none⟩ modules = some scope
  /-- The type is declared there. -/
  plain : scope.items.findSome? (genericsOf? type) = some []

section

variable {u : SourceUnit} {d : Dispatch} {used : Declared}

/-- A type that can be used is declared in a scope, and its plans are those of the methods there. -/
theorem exists_declaredIn (h : usable? u = some used) :
    ∃ modules type scope, DeclaredIn u modules type scope ∧
      used.plans = (scope.items.flatMap (methodsOf type)).filterMap planMethod? := by
  obtain ⟨items, hitems, hfound, hplain⟩ := usable?_eq_some h
  rcases (SourceUnit.nameParts u.name).eq_nil_or_concat with hnil | ⟨modules, type, hname⟩
  · rw [hnil] at hfound
    contradiction
  · rw [List.concat_eq_append] at hname
    unfold declared? at hfound
    simp only [hname, List.getLast?_concat, List.dropLast_concat] at hfound
    split at hfound
    · contradiction
    · rename_i scope henter
      obtain ⟨generics, hgenerics, rfl⟩ := Option.map_eq_some_iff.1 hfound
      obtain rfl : generics = [] := by simpa using hplain
      exact ⟨modules, type, scope, ⟨hname, ⟨items, hitems, henter⟩, hgenerics⟩, rfl⟩

/-- A dispatch module lists what is planned for a type that can be used, and nothing for another. -/
theorem operations_of_generate (h : generate u = .ok d) :
    d.isInstantiable = (usable? u).isSome ∧
      d.manifest.operations = (((usable? u).map Declared.plans).getD []).map Plan.operation := by
  unfold generate at h
  split at h
  · contradiction
  · obtain rfl := Except.ok.inj h
    exact ⟨rfl, rfl⟩

/-- What is seen of the dispatch module of a unit says that there is one. -/
theorem exists_generate {β : Type} {seen : Dispatch → β} {b : β}
    (h : (generate u).toOption.map seen = some b) : ∃ d, generate u = .ok d ∧ seen d = b := by
  cases hd : generate u with
  | error fault =>
    rw [hd] at h
    contradiction
  | ok d =>
    rw [hd] at h
    exact ⟨d, rfl, Option.some.inj h⟩

theorem methodsOf_eq (type : List Char) : methodsOf type = methodsBy (isSelfType type) := by
  funext item
  unfold methodsOf methodsBy
  rfl

/-- The operations of a type that can be used are those of the implementations beside it of which
the path ends in its name. -/
theorem operations_of_isInstantiable (h : generate u = .ok d) (hused : d.isInstantiable = true) :
    ∃ modules type scope, DeclaredIn u modules type scope ∧
      d.manifest.operations = operationsBy (isSelfType type) scope.items := by
  obtain ⟨hinstantiable, hoperations⟩ := operations_of_generate h
  obtain ⟨used, hfound⟩ := Option.isSome_iff_exists.1 (hinstantiable ▸ hused)
  obtain ⟨modules, type, scope, hdeclared, hplans⟩ := exists_declaredIn hfound
  refine ⟨modules, type, scope, hdeclared, ?_⟩
  rw [hoperations, hfound, Option.map_some, Option.getD_some, hplans, methodsOf_eq, operationsBy]

end

section

variable {accepts accepts' : TypeTree → Bool} {items : List Item}

/-- An operation comes from a method of an implementation of an accepted type. -/
theorem mem_operationsBy_iff {o : Operation} : o ∈ operationsBy accepts items ↔
    ∃ self methods m plan, Item.implementation false [] self methods ∈ items ∧
      accepts self = true ∧ m ∈ methods ∧ planMethod? m = some plan ∧ plan.operation = o := by
  simp only [operationsBy, List.mem_map, List.mem_filterMap, List.mem_flatMap]
  constructor
  · rintro ⟨plan, ⟨m, ⟨item, hitem, hm⟩, hplan⟩, rfl⟩
    unfold methodsBy at hm
    split at hm
    · rename_i self methods
      split at hm
      · rename_i haccepts
        exact ⟨self, methods, m, plan, hitem, haccepts, hm, hplan, rfl⟩
      · contradiction
    · contradiction
  · rintro ⟨self, methods, m, plan, hitem, haccepts, hm, hplan, rfl⟩
    refine ⟨plan, ⟨m, ⟨_, hitem, ?_⟩, hplan⟩, rfl⟩
    rw [methodsBy, if_pos haccepts]
    exact hm

theorem operationsBy_cons (accepts : TypeTree → Bool) (item : Item) (items : List Item) :
    operationsBy accepts (item :: items) =
      ((methodsBy accepts item).filterMap planMethod?).map Plan.operation ++
        operationsBy accepts items := by
  simp only [operationsBy, List.flatMap_cons, List.filterMap_append, List.map_append]

/-- Whoever accepts more types finds the same operations in the same order, and others between
them. -/
theorem operationsBy_sublist (h : ∀ self, accepts self = true → accepts' self = true)
    (items : List Item) :
    (operationsBy accepts items).Sublist (operationsBy accepts' items) := by
  induction items with
  | nil => exact List.Sublist.refl _
  | cons item items ih =>
    have hitem : (methodsBy accepts item).Sublist (methodsBy accepts' item) := by
      unfold methodsBy
      split
      · rename_i self methods
        by_cases haccepts : accepts self = true
        · rw [if_pos haccepts, if_pos (h self haccepts)]
        · rw [if_neg haccepts]
          exact List.nil_sublist _
      · exact List.Sublist.refl _
    rw [operationsBy_cons, operationsBy_cons]
    exact ((hitem.filterMap planMethod?).map Plan.operation).append ih

/-- Operations are counted with those that only one of the two finds. -/
theorem length_operationsBy (h : ∀ self, accepts self = true → accepts' self = true)
    (items : List Item) : (operationsBy accepts' items).length =
      (operationsBy accepts items).length +
        (operationsBy (fun self => accepts' self && !accepts self) items).length := by
  induction items with
  | nil => rfl
  | cons item items ih =>
    have hitem : methodsBy accepts' item = methodsBy accepts item ++
        methodsBy (fun self => accepts' self && !accepts self) item := by
      unfold methodsBy
      split
      · rename_i self methods
        by_cases haccepts : accepts self = true
        · simp [haccepts, h self haccepts]
        · simp [haccepts]
      · rfl
    simp only [operationsBy_cons, List.length_append, ih, hitem, List.filterMap_append,
      List.map_append]
    omega

/-- Both find the same operations exactly if no type that only one of them accepts gives any. -/
theorem operationsBy_eq_iff (h : ∀ self, accepts self = true → accepts' self = true) :
    operationsBy accepts' items = operationsBy accepts items ↔
      ∀ self methods m, Item.implementation false [] self methods ∈ items →
        accepts' self = true → accepts self = false → m ∈ methods → planMethod? m = none := by
  -- What one finds is a part of what the other finds, so only the lengths need to agree.
  have hnone : operationsBy accepts' items = operationsBy accepts items ↔
      operationsBy (fun self => accepts' self && !accepts self) items = [] := by
    have hlength := length_operationsBy h items
    rw [← List.length_eq_zero_iff]
    constructor
    · intro heq
      rw [heq] at hlength
      omega
    · intro hzero
      exact ((operationsBy_sublist h items).eq_of_length (by omega)).symm
  rw [hnone, List.eq_nil_iff_forall_not_mem]
  constructor
  · -- A method of a type that only one accepts would make an operation.
    intro hmem self methods m hitem haccepts' haccepts hm
    cases hplan : planMethod? m with
    | none => rfl
    | some plan =>
      refine absurd (mem_operationsBy_iff.2 ⟨self, methods, m, plan, hitem, ?_, hm, hplan, rfl⟩)
        (hmem plan.operation)
      rw [haccepts', haccepts]
      rfl
  · -- Every operation comes from such a method, and that one would have a plan.
    intro hplans o hmem
    obtain ⟨self, methods, m, plan, hitem, haccepts, hm, hplan, -⟩ := mem_operationsBy_iff.1 hmem
    obtain ⟨haccepts', hnot⟩ := Bool.and_eq_true_iff.1 haccepts
    rw [hplans self methods m hitem haccepts' (by simpa using hnot) hm] at hplan
    contradiction

end

/-! ## The type that a path stands for -/

/-- Where a path leads from inside of modules, if each `super` at its front goes up by one. -/
def climb (modules : List (List Char)) : List (List Char) → Option (List (List Char))
  | [] => some modules
  | word :: rest =>
    if word = "super".toList then
      if modules = [] then none else climb modules.dropLast rest
    else some (modules ++ word :: rest)

/-- The path from the root of the crate that a path inside of modules stands for. Imports are not
followed. -/
def absolute? (modules : List (List Char)) : List (List Char) → Option (List (List Char))
  | [] => none
  | word :: rest =>
    if word = "crate".toList then some rest
    else if word = "self".toList then climb modules rest
    else climb modules (word :: rest)

/-- What is written inside of modules stands for the type of this name that is declared there. -/
def isOf (modules : List (List Char)) (type : List Char) (self : TypeTree) : Bool :=
  match self.path? with
  | some path =>
    !path.isGlobal && path.isPlain &&
      absolute? modules (path.segments.map (·.name.text.toList)) == some (modules ++ [type])
  | none => false

/-- The ways to write the type itself. -/
def ownPaths (modules : List (List Char)) (type : List Char) : List (List (List Char)) :=
  [[type], ["self".toList, type], "crate".toList :: (modules ++ [type])]

/-- The words that a path starts with to say where it begins. -/
def pathWords : List (List Char) := ["crate".toList, "self".toList, "super".toList]

section

variable {modules path target : List (List Char)} {type : List Char}

/-- Each of these stands for the type, unless the type is called by one of those words. -/
theorem absolute?_own (h : type ∉ pathWords) :
    ∀ path ∈ ownPaths modules type, absolute? modules path = some (modules ++ [type]) := by
  simp only [pathWords, List.mem_cons, List.not_mem_nil, or_false, not_or] at h
  obtain ⟨hcrate, hself, hsuper⟩ := h
  have hclimb : climb modules [type] = some (modules ++ [type]) := if_neg hsuper
  refine List.forall_mem_cons.2 ⟨?_, List.forall_mem_cons.2 ⟨?_, List.forall_mem_singleton.2 ?_⟩⟩
  · rw [absolute?, if_neg hcrate, if_neg hself, hclimb]
  · rw [absolute?, if_neg (by decide), if_pos rfl, hclimb]
  · rw [absolute?, if_pos rfl]

/-- Going up leaves a front of the modules, and the path goes on behind it. -/
theorem climb_eq_some (h : climb modules path = some target) :
    ∃ above lead rest, path = lead ++ rest ∧ target = above ++ rest ∧
      above.length ≤ modules.length := by
  induction path generalizing modules with
  | nil =>
    obtain rfl := Option.some.inj h
    exact ⟨modules, [], [], rfl, (List.append_nil _).symm, Nat.le_refl _⟩
  | cons word rest ih =>
    rw [climb] at h
    split at h
    · split at h
      · contradiction
      · obtain ⟨above, lead, behind, rfl, rfl, hlength⟩ := ih h
        rw [List.length_dropLast] at hlength
        exact ⟨above, word :: lead, behind, rfl, rfl, by omega⟩
    · obtain rfl := Option.some.inj h
      exact ⟨modules, [], word :: rest, rfl, rfl, Nat.le_refl _⟩

/-- A path to something in the modules ends in its name. -/
theorem getLast?_of_absolute? (h : absolute? modules path = some (modules ++ [type])) :
    path.getLast? = some type := by
  have hclimb : ∀ {path}, climb modules path = some (modules ++ [type]) →
      path.getLast? = some type := by
    intro path hpath
    obtain ⟨above, lead, rest, rfl, htarget, hlength⟩ := climb_eq_some hpath
    -- What lies above is too short to be all of the target, so the path goes on to its end.
    have hne : rest ≠ [] := by
      rintro rfl
      have := congrArg List.length htarget
      rw [List.append_nil, List.length_append, List.length_singleton] at this
      omega
    have hlast := congrArg List.getLast? htarget
    rw [List.getLast?_concat, List.getLast?_append_of_ne_nil _ hne] at hlast
    rw [List.getLast?_append_of_ne_nil _ hne, ← hlast]
  obtain _ | ⟨word, rest⟩ := path
  · contradiction
  · rw [absolute?] at h
    split at h
    · obtain rfl := Option.some.inj h
      rw [← List.cons_append, List.getLast?_concat]
    · split at h
      · -- The path starts with a word for the module that it stands in, so the rest of it is what
        -- climbs.
        have hrest := hclimb h
        have hne : rest ≠ [] := by
          rintro rfl
          contradiction
        rw [← List.singleton_append, List.getLast?_append_of_ne_nil _ hne, hrest]
      · exact hclimb h

/-- The path of a type ends in this name and has no arguments there. -/
def EndsIn (type : List Char) (self : TypeTree) : Prop :=
  ∃ path name, self.path? = some path ∧
    path.segments.getLast? = some ⟨name, .none⟩ ∧ name.text.toList = type

theorem isSelfType_iff {self : TypeTree} : isSelfType type self = true ↔ EndsIn type self := by
  unfold isSelfType
  constructor
  · intro h
    split at h
    · rename_i name hlast
      obtain ⟨path, hpath, hlast⟩ := Option.bind_eq_some_iff.1 hlast
      exact ⟨path, name, hpath, hlast, eq_of_beq h⟩
    · contradiction
  · rintro ⟨path, name, hpath, hlast, rfl⟩
    rw [hpath, Option.bind_some, hlast]
    exact beq_self_eq_true _

/-- Whatever stands for the type is taken for it. -/
theorem isSelfType_of_isOf {self : TypeTree} (h : isOf modules type self = true) :
    isSelfType type self = true := by
  unfold isOf at h
  split at h
  · rename_i path hpath
    obtain ⟨hplain, habsolute⟩ := Bool.and_eq_true_iff.1 h
    have hlast := getLast?_of_absolute? (eq_of_beq habsolute)
    rw [List.getLast?_map] at hlast
    obtain ⟨⟨name, arguments⟩, hsegment, rfl⟩ := Option.map_eq_some_iff.1 hlast
    have hnone : arguments = .none := eq_of_beq
      (List.all_eq_true.1 (Bool.and_eq_true_iff.1 hplain).2 _ (List.mem_of_getLast? hsegment))
    subst hnone
    exact isSelfType_iff.2 ⟨path, name, hpath, hsegment, rfl⟩
  · contradiction

end

/-! ## Units -/

/-- **Whose methods become operations.** The type of a unit that can be used is declared in some
scope, and its operations are the methods with a plan of the implementations there that have a path
ending in the name of the type. The operations of the implementations of the type itself, however
its path is written, are all among them. They are all there is exactly if no other implementation
with a path that ends in the name has a method with a plan. -/
theorem operations_eq_own_iff {u : SourceUnit} {d : Dispatch} (h : generate u = .ok d)
    (hused : d.isInstantiable = true) :
    ∃ modules type scope, DeclaredIn u modules type scope ∧
      (∀ o, o ∈ d.manifest.operations ↔ ∃ self methods m plan,
        Item.implementation false [] self methods ∈ scope.items ∧ EndsIn type self ∧
          m ∈ methods ∧ planMethod? m = some plan ∧ plan.operation = o) ∧
      (type ∉ pathWords →
        ∀ path ∈ ownPaths modules type, absolute? modules path = some (modules ++ [type])) ∧
      (operationsBy (isOf modules type) scope.items).Sublist d.manifest.operations ∧
      (d.manifest.operations = operationsBy (isOf modules type) scope.items ↔
        ∀ self methods m, Item.implementation false [] self methods ∈ scope.items →
          EndsIn type self → isOf modules type self = false → m ∈ methods →
          planMethod? m = none) := by
  obtain ⟨modules, type, scope, hdeclared, hoperations⟩ := operations_of_isInstantiable h hused
  have hown : ∀ self, isOf modules type self = true → isSelfType type self = true :=
    fun _ => isSelfType_of_isOf
  refine ⟨modules, type, scope, hdeclared, fun o => ?_, absolute?_own, ?_, ?_⟩
  · simp only [hoperations, mem_operationsBy_iff, isSelfType_iff]
  · rw [hoperations]
    exact operationsBy_sublist hown scope.items
  · simp only [hoperations, operationsBy_eq_iff hown, isSelfType_iff]

/-- A type in a module, with implementations by two paths to it and one by a path to another type,
of which no method is exported. -/
def ownPathsUnit : SourceUnit where
  name := "m::T"
  source := "mod m\x7bstruct T;impl self::T\x7bpub fn a(&self)\x7b\x7d\x7d" ++
    "impl crate::m::T\x7bpub fn b()\x7b\x7d\x7dimpl q::T\x7bfn c()\x7b\x7d\x7d\x7d"

/-- Its operations are those of the type itself. -/
theorem operations_eq_own_iff_ownPaths : ∃ d, generate ownPathsUnit = .ok d ∧
    d.isInstantiable = true ∧ d.manifest.operations.map Operation.name = ["a", "b"] ∧
    ∃ modules type scope, DeclaredIn ownPathsUnit modules type scope ∧
      d.manifest.operations = operationsBy (isOf modules type) scope.items := by
  -- The characters of a text are cheap to compute with, the text is not.
  have hchars : ownPathsUnit.source.toList = _ :=
    String.toList_append.trans (congrArg₂ (· ++ ·) String.toList_ofList String.toList_ofList)
  have hseen : (generate ownPathsUnit).toOption.map (fun d =>
      (d.isInstantiable, d.manifest.operations.map Operation.name)) = some (true, ["a", "b"]) := by
    rewrite [generate, usable?, hchars]
    decide +kernel
  have hown : (parseFile? ownPathsUnit.source.toList).bind (fun items =>
      (Scope.enter? ⟨items, none⟩ ["m".toList]).map fun scope =>
        (operationsBy (isOf ["m".toList] "T".toList) scope.items).length) = some 2 := by
    rewrite [hchars]
    decide +kernel
  obtain ⟨d, hd, hlisted⟩ := exists_generate hseen
  obtain ⟨hused, hnames⟩ := Prod.mk.inj hlisted
  obtain ⟨modules, type, scope, hdeclared, -, -, hsublist, -⟩ := operations_eq_own_iff hd hused
  have hparts : SourceUnit.nameParts ownPathsUnit.name = ["m".toList] ++ ["T".toList] := by
    decide +kernel
  obtain ⟨rfl, htype⟩ := List.append_inj' (hdeclared.named.symm.trans hparts) rfl
  obtain rfl : type = "T".toList := List.singleton_inj.1 htype
  -- The operations of the type itself are as many as there are operations.
  obtain ⟨items, hitems, henter⟩ := hdeclared.entered
  rw [hitems, Option.bind_some, henter, Option.map_some] at hown
  have hlength := congrArg List.length hnames
  rw [List.length_map] at hlength
  have heq := hsublist.eq_of_length ((Option.some.inj hown).trans hlength.symm)
  exact ⟨d, hd, hused, hnames, _, _, scope, hdeclared, heq.symm⟩

/-- A type and another one of the same name in a module, which alone has a method. -/
def otherTypeUnit : SourceUnit where
  name := "T"
  source :=
    "pub struct T; mod q \x7b pub struct T; \x7d impl q::T \x7b pub fn f(&self) \x7b\x7d \x7d"

/-- The method of the other type is listed as an operation. -/
theorem generate_otherType : ∃ d items,
    generate otherTypeUnit = .ok d ∧ parseFile? otherTypeUnit.source.toList = some items ∧
      DeclaredIn otherTypeUnit [] "T".toList ⟨items, none⟩ ∧
      operationsBy (isOf [] "T".toList) items = [] ∧
      d.manifest.operations = [⟨"f", .ref, [], none⟩] := by
  have hchars : otherTypeUnit.source.toList = _ := String.toList_ofList
  have hlisted : (generate otherTypeUnit).toOption.map (fun d => d.manifest.operations) =
      some [⟨"f", .ref, [], none⟩] := by
    rewrite [generate, usable?, hchars]
    decide +kernel
  have hparse : (parseFile? otherTypeUnit.source.toList).map (fun items =>
      (operationsBy (isOf [] "T".toList) items, items.findSome? (genericsOf? "T".toList))) =
        some ([], some []) := by
    rewrite [hchars]
    decide +kernel
  obtain ⟨d, hd, hoperations⟩ := exists_generate hlisted
  obtain ⟨items, hitems, hfound⟩ := Option.map_eq_some_iff.1 hparse
  obtain ⟨hown, hplain⟩ := Prod.mk.inj hfound
  have hname : SourceUnit.nameParts otherTypeUnit.name = [] ++ ["T".toList] := by decide +kernel
  exact ⟨d, items, hd, hitems, ⟨hname, ⟨items, hitems, rfl⟩, hplain⟩, hown, hoperations⟩

end UnitLoader.Dispatch
