import UnitLoader.Dispatch.Basic
import UnitLoader.Proofs.Text.OneLine

/-!
# The code of a dispatch module is one line

Whatever a unit is called and however its methods, parameters and types are written, the code made
for it holds no line feed: `oneLine_code_of_generate`. Only three things of a unit reach its code. A
name is an identifier by its type, a planned type is a name with at most a path separator, and every
other text stands in a string literal, which escapes its line feeds.
-/

namespace UnitLoader.Syntax

open Text

/-- An identifier is on one line. -/
theorem oneLine_of_isName {text : List Char} (h : isName text = true) : OneLine text := by
  cases text with
  | nil => exact oneLine_nil
  | cons c rest =>
    obtain ⟨hstart, hrest⟩ := Bool.and_eq_true_iff.1 h
    rw [oneLine_cons]
    constructor
    · -- A line feed starts no identifier, and does not go on with one.
      rintro rfl
      exact absurd hstart (by decide)
    · exact fun hmem => absurd (List.all_eq_true.1 hrest _ hmem) (by decide)

/-- A name is written on one line. -/
theorem Name.oneLine_print (n : Name) : OneLine n.print := by
  rw [Name.print, oneLine_append]
  refine ⟨?_, oneLine_of_isName n.isName⟩
  split <;> decide

end UnitLoader.Syntax

namespace UnitLoader.Dispatch

open Syntax Text

/-! ## What an arm writes -/

/-- A planned type is written on one line. -/
theorem NamedType.oneLine_print (t : NamedType) : OneLine (printTrees t.trees) := by
  have hname := t.name.oneLine_print
  unfold NamedType.trees
  split
  · -- A path separator is two marks, of which the first is joint, and a space follows it.
    have hprint : printTrees (TokenTree.symbol [':', ':'] ++ [.word t.name])
        = [':', ':', ' '] ++ t.name.print := rfl
    rw [hprint, oneLine_append]
    exact ⟨by decide, hname⟩
  · exact hname

/-- A count or an index is written on one line. -/
theorem oneLine_number (n : Nat) : OneLine (number n) := by
  rw [number, String.toList_append, oneLine_append]
  exact ⟨oneLine_toString n, oneLine_ofList (by decide)⟩

/-- A string literal is written on one line. -/
theorem oneLine_string (text : String) : OneLine (string text) := oneLine_literal text.toList

/-- The variable of a binding is written on one line. -/
theorem Binding.oneLine_variable (b : Binding) : OneLine b.variable := by
  rw [Binding.variable, String.toList_append, oneLine_append]
  exact ⟨oneLine_ofList (by decide), oneLine_toString b.position⟩

/-- The code that binds an argument is on one line. -/
theorem Binding.oneLine_code (b : Binding) : OneLine b.code := by
  unfold Binding.code
  split
  · simp only [oneLine_append, b.oneLine_variable, oneLine_number, and_true]
    and_intros <;> exact oneLine_ofList (by decide)
  · simp only [oneLine_append, b.oneLine_variable, oneLine_number, oneLine_string,
      NamedType.oneLine_print, and_true]
    and_intros
    · split <;> exact oneLine_ofList (by decide)
    all_goals exact oneLine_ofList (by decide)

/-- An argument of the call is written on one line. -/
theorem Binding.oneLine_argument (b : Binding) : OneLine b.argument := by
  unfold Binding.argument
  split
  · exact b.oneLine_variable
  · exact b.oneLine_variable
  all_goals exact oneLine_append.2 ⟨oneLine_ofList (by decide), b.oneLine_variable⟩

/-- Lines of fixed code become one line. -/
theorem Template.oneLine_lines {code : List String} (h : ∀ s ∈ code, OneLine s.toList) :
    OneLine (Template.lines code) :=
  oneLine_join (by decide) (List.forall_mem_map.2 h)

/-- The code that takes the instance is on one line. -/
theorem oneLine_takeInstance (r : Receiver) : ∀ t ∈ takeInstance r, OneLine t := by
  cases r with
  | none => exact List.forall_mem_nil _
  | ref | refMut =>
    refine List.forall_mem_singleton.2 (Template.oneLine_lines ?_)
    refine List.forall_mem_cons.2 ⟨oneLine_ofList (by decide), ?_⟩
    exact List.forall_mem_singleton.2 (oneLine_ofList (by decide))

/-- The arguments of the call are written on one line. -/
theorem Arm.oneLine_arguments (a : Arm) : ∀ t ∈ a.arguments, OneLine t := by
  refine List.forall_mem_append.2 ⟨?_, List.forall_mem_map.2 fun b _ => b.oneLine_argument⟩
  split
  · exact List.forall_mem_nil _
  · exact List.forall_mem_singleton.2 (oneLine_ofList (by decide))

/-- The call of the method is on one line. -/
theorem Arm.oneLine_call (a : Arm) : OneLine a.call := by
  have harguments := oneLine_join (oneLine_ofList (by decide) : OneLine " , ".toList)
    a.oneLine_arguments
  unfold Arm.call
  simp only [oneLine_append, a.method.oneLine_print, harguments, and_true]
  and_intros <;> exact oneLine_ofList (by decide)

/-- The code that calls the method and shows its result is on one line. -/
theorem Arm.oneLine_result (a : Arm) : OneLine a.result := by
  unfold Arm.result
  split
  all_goals
    simp only [oneLine_append, a.oneLine_call, true_and, and_true]
    and_intros <;> exact oneLine_ofList (by decide)

/-- The code that checks the number of arguments is on one line. -/
theorem Arm.oneLine_arityCheck (a : Arm) : OneLine a.arityCheck := by
  unfold Arm.arityCheck
  simp only [oneLine_append, oneLine_number, and_true]
  and_intros <;> exact oneLine_ofList (by decide)

/-- The code of an arm is on one line. -/
theorem Arm.oneLine_code (a : Arm) : OneLine a.code := by
  have hopening : OneLine (number a.index ++ " => \x7b".toList) :=
    oneLine_append.2 ⟨oneLine_number a.index, oneLine_ofList (by decide)⟩
  refine oneLine_join (by decide) ?_
  simp only [List.forall_mem_append, List.forall_mem_cons, List.forall_mem_map]
  exact ⟨⟨⟨⟨hopening, a.oneLine_arityCheck, List.forall_mem_nil _⟩,
    oneLine_takeInstance a.receiver⟩, fun b _ => b.oneLine_code⟩, a.oneLine_result, by decide,
    List.forall_mem_nil _⟩

/-! ## The module -/

/-- The alias by which the module names the type is on one line. -/
theorem oneLine_aliasCode (target : Name) : OneLine (aliasCode target) := by
  unfold aliasCode
  rw [oneLine_append, oneLine_append]
  exact ⟨⟨oneLine_ofList (by decide), target.oneLine_print⟩, oneLine_ofList (by decide)⟩

/-- The code that holds the manifest is on one line: the manifest is a string literal there. -/
theorem oneLine_manifestCode (m : Manifest) : OneLine (manifestCode m) := by
  unfold manifestCode
  rw [oneLine_append, oneLine_append]
  exact ⟨⟨oneLine_ofList (by decide), oneLine_literal m.text⟩, oneLine_ofList (by decide)⟩

open Template in
/-- The fixed stretches of a module's code are each on one line. -/
theorem Template.oneLine_of_mem : ∀ t ∈ [heading, rendering, making, decoding, emitting,
    payloadText, dispatchOpening, dispatchClosing, manifestExport, newOpening, newDefault,
    newNothing, dropOpening, dropBoxed, dropNothing, freeExport, invokeExport], OneLine t := by
  simp only [List.forall_mem_cons, List.not_mem_nil, false_implies, implies_true, and_true]
  and_intros
  -- Each stretch is joined from literals, and each literal is checked by itself.
  all_goals
    refine oneLine_lines ?_
    simp only [List.forall_mem_cons, List.not_mem_nil, false_implies, implies_true, and_true]
    and_intros <;> exact oneLine_ofList (by decide)

/-- Every stretch of a module's code is on one line. -/
theorem oneLine_stretches (target : Option Name) (arms : List Arm) (m : Manifest) :
    ∀ t ∈ stretches target arms m, OneLine t := by
  -- The fixed stretches by name, so that each is found where it stands in the list.
  have hfixed := Template.oneLine_of_mem
  have hclosing : OneLine Template.closing := by decide
  have hmanifest := oneLine_manifestCode m
  simp only [List.forall_mem_cons, List.not_mem_nil, false_implies, implies_true,
    and_true] at hfixed
  obtain ⟨hheading, hrendering, hmaking, hdecoding, hemitting, hpayload, hopening, hend, hexport,
    hnew, hdefault, hnothing, hdrop, hboxed, hlet, hfree, hinvoke⟩ := hfixed
  unfold stretches
  cases target with
  | none =>
    simp only [List.forall_mem_append, List.forall_mem_cons, List.forall_mem_map, List.not_mem_nil,
      Option.map_none, Option.toList_none, Option.isSome_none, Bool.false_eq_true, if_false,
      Arm.oneLine_code, false_implies, implies_true, and_true, *]
  | some target =>
    simp only [List.forall_mem_append, List.forall_mem_cons, List.forall_mem_map, List.not_mem_nil,
      Option.map_some, Option.toList_some, Option.isSome_some, if_true,
      oneLine_aliasCode target, Arm.oneLine_code, false_implies, implies_true, and_true, *]

/-- The code of a dispatch module is one line, whatever names, parameters and types its unit
has. -/
theorem oneLine_code_of_generate {u : SourceUnit} {d : Dispatch} (h : generate u = .ok d) :
    OneLine d.code := by
  unfold generate at h
  split at h
  · exact absurd h (by simp)
  · obtain rfl := Except.ok.inj h
    exact oneLine_join (by decide) (oneLine_stretches _ _ _)

end UnitLoader.Dispatch
