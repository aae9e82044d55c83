import UnitLoader.Proofs.Dispatch.Operations
import UnitLoader.Proofs.Dispatch.Plan
import UnitLoader.Proofs.Invocation

/-!
# Which operations are reached by their names

A manifest lists the operations of a type by index, and a call names one. `LoadedType.Reaches` says
that the calls of an operation's name arrive at its index. They do so exactly for the first
operation of a name (`LoadedType.reaches_iff`), hence for all operations exactly if no two of them
have one name (`LoadedType.all_reached_iff_nodup`).

The names are those of the planned methods, in the order of the text and without raw marks
(`names_filterMap_plan`). Nothing keeps them apart: if a method is declared twice, for different
configurations, both declarations are listed, and the second one is never reached
(`generate_twiceDeclared`). `all_reached_iff` says that nothing else is in the way.
-/

namespace UnitLoader

/-! ## Calls by name -/

namespace LoadedType

/-- Every call of an operation's name, with an instance if the operation needs one, is a request for
this index. -/
def Reaches (t : LoadedType) (index : Nat) (o : Operation) : Prop :=
  ∀ on arguments, (o.needsInstance = true → on ≠ none) →
    (t.call on o.name arguments).type.trace.requests =
      requestOf on index arguments :: t.trace.requests

variable {t : LoadedType} {index : Nat} {o : Operation}

/-- The first operation of a name is reached by it. -/
theorem Reaches.of_isFirst (h : IsFirst t.operations o.name index o) : t.Reaches index o := by
  intro on arguments hon
  rw [call_of_isFirst arguments h hon]
  exact t.requests_callsFor _

/-- No other one is. -/
theorem Reaches.isFirst (hstands : t.operations[index]? = some o) (h : t.Reaches index o) :
    IsFirst t.operations o.name index o := by
  rcases exists_isFirst t.operations o.name with hnone | ⟨first, earliest, hfirst⟩
  · exact absurd rfl (hnone o (List.mem_of_getElem? hstands))
  · -- A call on some instance is a request for the one index and for the other.
    have hon : (some 0 : Option Nat) ≠ none := Option.some_ne_none _
    have hrequests : (t.call (some 0) o.name []).type.trace.requests =
        requestOf (some 0) first [] :: t.trace.requests := by
      rw [call_of_isFirst [] hfirst fun _ => hon]
      exact t.requests_callsFor _
    rw [h (some 0) [] fun _ => hon] at hrequests
    obtain rfl : index = first := congrArg Request.index (List.cons.inj hrequests).1
    obtain rfl : o = earliest := Option.some.inj (hstands.symm.trans hfirst.stands)
    exact hfirst

/-- An operation is reached exactly if no operation in front of it has its name. -/
theorem reaches_iff (hstands : t.operations[index]? = some o) : t.Reaches index o ↔
    ∀ i < index, ∀ earlier, t.operations[i]? = some earlier → earlier.name ≠ o.name :=
  ⟨fun h => (h.isFirst hstands).earliest, fun h => .of_isFirst ⟨hstands, rfl, h⟩⟩

/-- All operations are reached exactly if no two of them have the same name. -/
theorem all_reached_iff_nodup : (t.operations.map Operation.name).Nodup ↔
    ∀ index o, t.operations[index]? = some o → t.Reaches index o := by
  rw [List.Nodup, List.pairwise_map, List.pairwise_iff_getElem]
  constructor
  · intro hdistinct index o hstands
    obtain ⟨hindex, rfl⟩ := List.getElem?_eq_some_iff.1 hstands
    rw [reaches_iff hstands]
    intro i hi earlier hat
    obtain ⟨hlength, rfl⟩ := List.getElem?_eq_some_iff.1 hat
    exact hdistinct i index hlength hindex hi
  · intro hreached i j hi hj hij
    have hstands := List.getElem?_eq_getElem hj
    exact (reaches_iff hstands).1 (hreached j _ hstands) i hij _ (List.getElem?_eq_getElem hi)

end LoadedType

/-! ## The names of a unit's operations -/

namespace Dispatch

open Syntax

/-- The methods that become operations. -/
def plannedMethods (methods : List Method) : List Method :=
  methods.filter fun m => (planMethod? m).isSome

/-- The names of operations are those of the methods they come from. -/
theorem names_filterMap_plan (methods : List Method) :
    ((methods.filterMap planMethod?).map Plan.operation).map Operation.name =
      (plannedMethods methods).map (·.signature.name.text) := by
  induction methods with
  | nil => rfl
  | cons m methods ih =>
    unfold plannedMethods at ih ⊢
    cases hplan : planMethod? m with
    | none =>
      rw [List.filterMap_cons_none hplan, List.filter_cons_of_neg (by simp [hplan]), ih]
    | some plan =>
      rw [List.filterMap_cons_some hplan, List.filter_cons_of_pos (by simp [hplan])]
      simp only [List.map_cons, ih, (planOf_of_planMethod? hplan).name]

/-- A type that cannot be used has no operations. -/
theorem operations_eq_nil {u : SourceUnit} {d : Dispatch} (h : generate u = .ok d)
    (hused : d.isInstantiable = false) : d.manifest.operations = [] := by
  obtain ⟨hinstantiable, hoperations⟩ := operations_of_generate h
  obtain hnone : usable? u = none := by simpa using hinstantiable.symm.trans hused
  rw [hoperations, hnone]
  rfl

/-- **Which operations are reached by their names.** The operations of a dispatch module have the
names of the planned methods of the implementations beside the type's declaration, as often as these
are declared. Of a type that is loaded with these operations, one is reached by its name exactly if
no operation in front of it has the same name; hence all of them are, exactly if the planned methods
have different names. -/
theorem all_reached_iff {u : SourceUnit} {d : Dispatch} (h : generate u = .ok d) :
    (d.isInstantiable = false → d.manifest.operations = []) ∧
    (d.isInstantiable = true → ∃ modules type scope, DeclaredIn u modules type scope ∧
      d.manifest.operations.map Operation.name =
        (plannedMethods (scope.items.flatMap (methodsOf type))).map (·.signature.name.text)) ∧
    ∀ t : LoadedType, t.operations = d.manifest.operations →
      (∀ index o, t.operations[index]? = some o →
        (t.Reaches index o ↔
          ∀ i < index, ∀ earlier, t.operations[i]? = some earlier → earlier.name ≠ o.name)) ∧
      ((d.manifest.operations.map Operation.name).Nodup ↔
        ∀ index o, t.operations[index]? = some o → t.Reaches index o) := by
  refine ⟨operations_eq_nil h, fun hused => ?_, fun t ht => ?_⟩
  · obtain ⟨modules, type, scope, hdeclared, hoperations⟩ := operations_of_isInstantiable h hused
    refine ⟨modules, type, scope, hdeclared, ?_⟩
    rw [hoperations, operationsBy, names_filterMap_plan, methodsOf_eq]
  · rw [← ht]
    exact ⟨fun index o => LoadedType.reaches_iff, LoadedType.all_reached_iff_nodup⟩

/-- A loaded type with a manifest. -/
def listing (m : Manifest) : LoadedType := { LoadedType.repeating with manifest := m }

/-- A type with two implementations, of which each has a method. -/
def twoImplementations : SourceUnit where
  name := "A"
  source := "struct A;impl A\x7bpub fn f(&self)\x7b\x7d\x7dimpl A\x7bpub fn g()\x7b\x7d\x7d"

/-- Both operations are reached. -/
theorem all_reached_iff_twoImplementations : ∃ d, generate twoImplementations = .ok d ∧
    d.manifest.operations = [⟨"f", .ref, [], none⟩, ⟨"g", .none, [], none⟩] ∧
    (listing d.manifest).Reaches 0 ⟨"f", .ref, [], none⟩ ∧
    (listing d.manifest).Reaches 1 ⟨"g", .none, [], none⟩ := by
  -- The characters of a text are cheap to compute with, the text is not.
  have hchars : twoImplementations.source.toList = _ := String.toList_ofList
  have hlisted : (generate twoImplementations).toOption.map (fun d => d.manifest.operations) =
      some [⟨"f", .ref, [], none⟩, ⟨"g", .none, [], none⟩] := by
    rewrite [generate, usable?, hchars]
    decide +kernel
  obtain ⟨d, hd, hoperations⟩ := exists_generate hlisted
  obtain ⟨-, -, hreached⟩ := all_reached_iff hd
  obtain ⟨-, hall⟩ := hreached (listing d.manifest) rfl
  -- The two names differ.
  have hdistinct : (d.manifest.operations.map Operation.name).Nodup := by
    rw [hoperations]
    decide
  refine ⟨d, hd, hoperations, hall.1 hdistinct 0 _ ?_, hall.1 hdistinct 1 _ ?_⟩
  · exact congrArg (·[0]?) hoperations
  · exact congrArg (·[1]?) hoperations

/-- A method that is declared twice, for two configurations of which one holds. -/
def twiceDeclared : SourceUnit where
  name := "A"
  source := "pub struct A; impl A \x7b #[cfg(unix)] pub fn f() -> u32 \x7b 1 \x7d " ++
    "#[cfg(not(unix))] pub fn f() -> u64 \x7b 2 \x7d \x7d"

/-- Both declarations are listed, and the calls of the name never arrive at the second one. -/
theorem generate_twiceDeclared : ∃ d, generate twiceDeclared = .ok d ∧
    d.manifest.operations.map Operation.name = ["f", "f"] ∧
    ¬ (d.manifest.operations.map Operation.name).Nodup ∧
    d.manifest.operations[1]? = some ⟨"f", .none, [], some "u64"⟩ ∧
    ¬ (listing d.manifest).Reaches 1 ⟨"f", .none, [], some "u64"⟩ := by
  have hchars : twiceDeclared.source.toList = _ :=
    String.toList_append.trans (congrArg₂ (· ++ ·) String.toList_ofList String.toList_ofList)
  have hlisted : (generate twiceDeclared).toOption.map (fun d => d.manifest.operations) =
      some [⟨"f", .none, [], some "u32"⟩, ⟨"f", .none, [], some "u64"⟩] := by
    rewrite [generate, usable?, hchars]
    decide +kernel
  obtain ⟨d, hd, hoperations⟩ := exists_generate hlisted
  have hfirst : (listing d.manifest).operations[0]? = some ⟨"f", .none, [], some "u32"⟩ :=
    congrArg (·[0]?) hoperations
  have hsecond : (listing d.manifest).operations[1]? = some ⟨"f", .none, [], some "u64"⟩ :=
    congrArg (·[1]?) hoperations
  refine ⟨d, hd, ?_, ?_, hsecond, fun hreached => ?_⟩
  · rw [hoperations]
    rfl
  · rw [hoperations]
    decide
  · exact (LoadedType.reaches_iff hsecond).1 hreached 0 (Nat.zero_lt_one) _ hfirst rfl

end Dispatch

end UnitLoader
