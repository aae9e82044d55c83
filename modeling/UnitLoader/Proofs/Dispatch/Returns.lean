import UnitLoader.Proofs.Dispatch.Mirror

/-!
# What is said of a method's result

Three places say whether a method gives a value: its operation has a return type or none, the
operation's signature shows an arrow or none, and its arm gives the text of the value or the empty
text. `GivesNothing` and `GivesValue` are what the three say together. They always agree, and they
follow the declaration: a method without a return type gives nothing, and one with a return type
gives a value of it.

A method that gives nothing can also be declared with the unit type, `()`, in parentheses or not
(`writesUnit`). Nothing looks for it: the operation has the return type `()`, and so do the other
places (`typeText_of_writesUnit`). `unit_recognised_iff` says that this is the only way in which the
three places are wrong about a method.
-/

namespace UnitLoader

/-! ## Signatures -/

/-- Texts that lack a character are joined by one that lacks it. -/
theorem Text.not_mem_intercalate {c : Char} {separator : List Char} {texts : List (List Char)}
    (hseparator : c ∉ separator) (htexts : ∀ t ∈ texts, c ∉ t) :
    c ∉ separator.intercalate texts := by
  induction texts with
  | nil => exact List.not_mem_nil
  | cons first others ih =>
    obtain ⟨hfirst, hothers⟩ := List.forall_mem_cons.1 htexts
    cases others with
    | nil => rwa [List.intercalate_singleton]
    | cons second rest =>
      rw [List.intercalate_cons_cons, List.mem_append, List.mem_append, not_or, not_or]
      exact ⟨⟨hfirst, hseparator⟩, ih hothers⟩

namespace Operation

/-- The operation without its return type. -/
def withoutReturn (o : Operation) : Operation := { o with returns := none }

/-- A return type is shown behind an arrow, and all else is shown as it is without one. -/
theorem signature_of_returns {o : Operation} {type : String} (h : o.returns = some type) :
    o.signature = o.withoutReturn.signature ++ " -> " ++ type := by
  unfold signature
  rw [h]
  rfl

/-- Without a return type no signature shows an arrow, if no name and no type of a parameter has
one in it. -/
theorem not_mem_signature {o : Operation} (hname : '>' ∉ o.name.toList)
    (hparams : ∀ p ∈ o.params, '>' ∉ p.name.toList ∧ '>' ∉ p.type.toList) :
    '>' ∉ o.withoutReturn.signature.toList := by
  have hparam : ∀ p ∈ o.params, '>' ∉ (p.name ++ ": " ++ p.type).toList := by
    intro p hp
    obtain ⟨hparamName, htype⟩ := hparams p hp
    simp [hparamName, htype]
  unfold signature withoutReturn
  simp only [String.toList_append, String.toList_intercalate, List.mem_append, not_or]
  refine ⟨⟨⟨⟨by decide, hname⟩, by decide⟩, ?_⟩, by decide⟩
  refine Text.not_mem_intercalate (by decide) fun text ht => ?_
  obtain ⟨t, hmem, rfl⟩ := List.mem_map.1 ht
  -- What is listed is the receiver or a parameter.
  rcases List.mem_append.1 hmem with hself | hlisted
  · cases hreceiver : o.receiver with
    | none => simp [hreceiver] at hself
    | ref | refMut =>
      simp only [hreceiver, List.mem_singleton] at hself
      exact hself ▸ by decide
  · obtain ⟨p, hp, rfl⟩ := List.mem_map.1 hlisted
    exact hparam p hp

end Operation

namespace Dispatch

open Syntax
open Text (join replace)

variable {m : Method} {p : Plan}

/-- No name has a mark in it. -/
theorem not_mem_text {c : Char} (h : isMark c = true) (n : Name) : c ∉ n.text.toList := by
  have hprint := not_mem_print h n
  rw [Name.print, List.mem_append, not_or] at hprint
  exact hprint.2

/-- The name of a parameter has no arrow in it. -/
theorem not_mem_paramName (pattern : Pattern) (position : Nat) :
    '>' ∉ (paramName pattern position).toList := by
  have hnumber : '>' ∉ (toString position).toList := by
    rw [Nat.toString_eq_repr, Nat.repr, String.toList_ofList]
    intro hmem
    exact absurd (Nat.isDigit_of_mem_toDigits (by decide) (by decide) hmem) (by decide)
  unfold paramName
  split
  · exact not_mem_text (by decide) _
  · rw [String.toList_append, List.mem_append, not_or]
    exact ⟨by decide, hnumber⟩

/-- Neither has a type that denotes how an argument is passed. -/
theorem Denotes.not_mem {text : List Char} {passing : Passing} (h : Denotes text passing) :
    '>' ∉ text := by
  cases h with
  | owned => exact not_mem_namedText (by decide) (by decide) _
  | text | shared | exclusive => exact not_mem_referenceText (by decide) (by decide) _ _ _

/-- So the signature of a planned method shows an arrow for its return type alone. -/
theorem PlanOf.not_mem_signature (h : PlanOf m p) :
    '>' ∉ p.operation.withoutReturn.signature.toList := by
  refine Operation.not_mem_signature (h.name ▸ not_mem_text (by decide) _) fun param hparam => ?_
  rw [← h.map_fst] at hparam
  obtain ⟨b, hb, rfl⟩ := List.mem_map.1 hparam
  obtain ⟨input, hplanned⟩ := h.exists_input hb
  exact ⟨hplanned.named ▸ not_mem_paramName _ _, (h.denotes b hb).not_mem⟩

/-! ## The unit type -/

/-- The tree is the unit type: a group of parentheses with nothing in it, or with the unit type. -/
def isUnit : TokenTree → Bool
  | .group .parenthesis [] _ => true
  | .group .parenthesis [t] _ => isUnit t
  | _ => false

/-- The unit type is written by these trees. -/
def writesUnit : List TokenTree → Bool
  | [t] => isUnit t
  | _ => false

/-- The method gives nothing: it has no return type, or the unit type is written for it. -/
def returnsUnit (s : Signature) : Bool := s.output.all fun type => writesUnit type.trees

/-- As many closing parentheses behind as many opening ones. -/
def parentheses (depth : Nat) : List Char := List.replicate depth '(' ++ List.replicate depth ')'

theorem parentheses_succ (depth : Nat) :
    parentheses (depth + 1) = '(' :: parentheses depth ++ [')'] := by
  rw [parentheses, List.replicate_succ, List.replicate_succ', parentheses, List.cons_append,
    List.cons_append, List.append_assoc]

/-- The unit type is printed as parentheses. -/
theorem print_of_isUnit {t : TokenTree} (h : isUnit t = true) :
    ∃ depth, t.print = parentheses (depth + 1) := by
  fun_induction isUnit t with
  | case1 close => exact ⟨0, rfl⟩
  | case2 t close ih =>
    obtain ⟨depth, hprint⟩ := ih h
    have hgroup : (TokenTree.group .parenthesis [t] close).print = '(' :: t.print ++ [')'] := rfl
    exact ⟨depth + 1, by rw [hgroup, hprint, ← parentheses_succ]⟩
  | case3 => contradiction

theorem print_of_writesUnit {trees : List TokenTree} (h : writesUnit trees = true) :
    ∃ depth, printTrees trees = parentheses (depth + 1) := by
  unfold writesUnit at h
  split at h
  · exact print_of_isUnit h
  · contradiction

/-- A text without a space stays as it is: there is one in each pattern. -/
theorem tighten_of_space_not_mem {text : List Char} (h : ' ' ∉ text) : tighten text = text := by
  have hspaces : ∀ patterns : List (String × String),
      patterns.all (fun p => p.1.toList.contains ' ') = true →
      patterns.foldl (fun text p => replace p.1.toList p.2.toList text) text = text := by
    intro patterns hall
    induction patterns with
    | nil => rfl
    | cons p patterns ih =>
      rw [List.all_cons, Bool.and_eq_true] at hall
      rw [List.foldl_cons, Text.replace_of_not_mem (List.contains_iff_mem.1 hall.1) h, ih hall.2]
  exact hspaces tightenings (by decide)

/-- So its text is the parentheses as they are written. -/
theorem typeText_of_writesUnit {type : TypeTree} (h : writesUnit type.trees = true) :
    ∃ depth, typeText type = String.ofList (parentheses (depth + 1)) := by
  obtain ⟨depth, hprint⟩ := print_of_writesUnit h
  have hspace : ' ' ∉ parentheses (depth + 1) := by simp [parentheses, List.mem_replicate]
  exact ⟨depth, by rw [typeText, hprint, tighten_of_space_not_mem hspace]⟩

/-! ## The three places -/

/-- The call of a planned method. -/
def Plan.call (p : Plan) : List Char :=
  callText p.operation.receiver p.method (p.operation.params.zip p.passings)

/-- The operation has no return type, its signature shows no arrow, and its arm gives the empty
text. -/
structure GivesNothing (p : Plan) : Prop where
  listed : p.operation.returns = none
  shown : '>' ∉ p.operation.signature.toList
  run : ∀ index, ∃ lines, (Arm.ofPlan index p).code =
    join [' '] (lines ++ [p.call ++ " ; Ok (String :: new ())".toList, ['\x7d']])

/-- The operation has this return type, its signature shows it behind the only arrow in front of it,
and its arm gives the text of the value. -/
structure GivesValue (p : Plan) (type : String) : Prop where
  listed : p.operation.returns = some type
  shown : ∃ head, '>' ∉ head.toList ∧ p.operation.signature = head ++ " -> " ++ type
  run : ∀ index, ∃ lines, (Arm.ofPlan index p).code = join [' '] (lines ++
    ["let value = ".toList ++ p.call ++ " ; Ok ((&& & ShimRender (& value)) . render ())".toList,
      ['\x7d']])

theorem PlanOf.givesNothing (h : PlanOf m p) (houtput : m.signature.output = none) :
    GivesNothing p := by
  have hreturns : p.operation.returns = none := by rw [h.returns, houtput, Option.map_none]
  refine ⟨hreturns, ?_, fun index => ?_⟩
  · have hsame : p.operation.withoutReturn = p.operation := by
      rw [Operation.withoutReturn, ← hreturns]
    exact hsame ▸ h.not_mem_signature
  · rw [code_ofPlan index h.length, armText, hreturns]
    exact ⟨_, rfl⟩

theorem PlanOf.givesValue {type : TypeTree} (h : PlanOf m p)
    (houtput : m.signature.output = some type) : GivesValue p (typeText type) := by
  have hreturns : p.operation.returns = some (typeText type) := by
    rw [h.returns, houtput, Option.map_some]
  refine ⟨hreturns, ⟨_, h.not_mem_signature, Operation.signature_of_returns hreturns⟩,
    fun index => ?_⟩
  rw [code_ofPlan index h.length, armText, hreturns]
  exact ⟨_, rfl⟩

/-- **What is said of a method's result.** The operation of a planned method, its signature and its
arm say together that the method gives nothing if it is declared without a return type, and that it
gives a value of the return type otherwise. A unit type that is written out counts as any other:
what they say of it is that the method gives a value of the type `()`, in as many parentheses as it
has. So the operations without a return type are those of the methods that give nothing exactly as
far as no method has a unit type that is written out. -/
theorem unit_recognised_iff (h : planMethod? m = some p) :
    (m.signature.output = none → GivesNothing p) ∧
    (∀ type, m.signature.output = some type → GivesValue p (typeText type) ∧
      (writesUnit type.trees = true →
        ∃ depth, typeText type = String.ofList (parentheses (depth + 1)))) ∧
    ((p.operation.returns = none ↔ returnsUnit m.signature = true) ↔
      ∀ type, m.signature.output = some type → writesUnit type.trees = false) := by
  have hplan := planOf_of_planMethod? h
  refine ⟨hplan.givesNothing, fun type houtput => ⟨hplan.givesValue houtput, ?_⟩, ?_⟩
  · exact typeText_of_writesUnit
  · rw [hplan.returns, returnsUnit]
    cases m.signature.output with
    | none => simp
    | some type => simp

/-- A type with a method that gives nothing. -/
def resetting : SourceUnit where
  name := "A"
  source := "struct A;impl A\x7bpub fn reset(&mut self,from:&str)\x7b\x7d\x7d"

/-- Nothing is said of a result. -/
theorem unit_recognised_iff_resetting : ∃ m p,
    firstMethod? resetting = some m ∧ planMethod? m = some p ∧ returnsUnit m.signature = true ∧
      p.operation.signature = "fn reset(&mut self, from: &str)" ∧ GivesNothing p := by
  have hseen : ((firstMethod? resetting).bind fun m => (planMethod? m).map fun p =>
      (m.signature.output.isNone, returnsUnit m.signature, p.operation.signature)) =
        some (true, true, "fn reset(&mut self, from: &str)") := by
    decide +kernel
  obtain ⟨m, p, hm, hplan, hseen⟩ := exists_firstMethod hseen
  obtain ⟨houtput, hunit, hsignature⟩ : _ ∧ _ ∧ _ := by simpa using hseen
  exact ⟨m, p, hm, hplan, hunit, hsignature, (unit_recognised_iff hplan).1 houtput⟩

/-- A type with a method of which the unit type is written out. -/
def writtenUnit : SourceUnit where
  name := "A"
  source := "pub struct A; impl A \x7b pub fn f() -> () \x7b\x7d \x7d"

/-- The method gives nothing, and its operation has a return type, which the manifest lists and the
signature shows. -/
theorem generate_writtenUnit : ∃ m p d, firstMethod? writtenUnit = some m ∧
    planMethod? m = some p ∧ returnsUnit m.signature = true ∧
    ¬ (p.operation.returns = none ↔ returnsUnit m.signature = true) ∧
    p.operation.signature = "fn f() -> ()" ∧
    generate writtenUnit = .ok d ∧ d.manifest.operations = [⟨"f", .none, [], some "()"⟩] := by
  have hseen : ((firstMethod? writtenUnit).bind fun m => (planMethod? m).map fun p =>
      (returnsUnit m.signature, p.operation)) = some (true, ⟨"f", .none, [], some "()"⟩) := by
    decide +kernel
  have hlisted : (generate writtenUnit).toOption.map (fun d => d.manifest.operations) =
      some [⟨"f", .none, [], some "()"⟩] := by
    decide +kernel
  obtain ⟨m, p, hm, hplan, hseen⟩ := exists_firstMethod hseen
  obtain ⟨hunit, hoperation⟩ := Prod.mk.inj hseen
  obtain ⟨d, hd, hoperations⟩ := exists_generate hlisted
  refine ⟨m, p, d, hm, hplan, hunit, fun hiff => ?_, ?_, hd, hoperations⟩
  · rw [hoperation] at hiff
    exact Option.some_ne_none _ (hiff.2 hunit)
  · rw [hoperation]
    decide

end Dispatch

end UnitLoader
