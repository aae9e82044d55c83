import UnitLoader.Proofs.Dispatch.Operations
import UnitLoader.Proofs.Dispatch.Plan
import UnitLoader.Proofs.Dispatch.TypeText

/-!
# The arms mirror the manifest

A dispatch module is used by index: a caller reads from the manifest which operation stands at an
index and what its parameters are, and the arm of that index runs. `armText` is the code that an
operation of a manifest calls for. `arms_mirror_operations` says that the arms of a dispatch module
are those codes, one for each operation and in the same order.

A plan holds what the manifest says and what the arm does side by side. They are made in one pass
over the parameters, which keeps them in step: there are as many passings as parameters, and each
passing is what the text of the parameter's type denotes (`PlanOf.denotes`). So the arm of a
plan is the code that its operation calls for (`code_ofPlan`).
-/

namespace UnitLoader.Dispatch

open Syntax
open Text (join)

/-! ## The code that an operation calls for -/

/-- A number as code. -/
def numberText (n : Nat) : List Char := (toString n).toList ++ "usize".toList

/-- The variable for the argument at a position. -/
def variableText (position : Nat) : List Char := "arg".toList ++ (toString position).toList

/-- Any other number of arguments is refused. -/
def countText (count : Nat) : List Char :=
  "if args . len () != ".toList ++ numberText count ++
    " \x7b return Err ((- 1i32 , format ! (".toList ++
    "\"expected \x7b\x7d argument(s), got \x7b\x7d\"".toList ++ " , ".toList ++ numberText count ++
    " , args . len ()))) ; \x7d".toList

/-- The instance is taken by a reference of this kind, and without one the call is refused. -/
def takenText (reference access : String) : List Char :=
  "let this : ".toList ++ reference.toList ++
    " = unsafe \x7b instance . cast :: < Target > () . ".toList ++ access.toList ++
    " () \x7d .".toList ++ [' '] ++
    "ok_or_else (|| (- 3i32 , String :: from (\"operation requires an instance\"))) ? ;".toList

/-- The instance is taken if the receiver says so, and as it says. -/
def instanceText : Receiver → Option (List Char)
  | .none => none
  | .ref => some (takenText "& Target" "as_ref")
  | .refMut => some (takenText "& mut Target" "as_mut")

/-- An argument is bound from its position: the text as it is, or a value that is read from it. -/
def bindingText (param : Param) (passing : Passing) (position : Nat) : List Char :=
  match passing with
  | .text =>
    "let ".toList ++ variableText position ++ " : & str = args [".toList ++ numberText position ++
      "] . as_str () ;".toList
  | .parsed borrow type =>
    (if borrow = .exclusive then "let mut ".toList else "let ".toList) ++ variableText position ++
      " : ".toList ++ printTrees type.trees ++ " = args [".toList ++ numberText position ++
      "] . parse :: < ".toList ++ printTrees type.trees ++
      " > () . map_err (| e | \x7b (- 1i32 , format ! (".toList ++
      "\"cannot parse argument \x60\x7b\x7d\x60 as \x60\x7b\x7d\x60: \x7b\x7d\" , ".toList ++
      Text.literal param.name.toList ++ " , ".toList ++ Text.literal param.type.toList ++
      " , e)) \x7d) ? ;".toList

/-- An argument is handed over: by value, or by shared or exclusive reference. -/
def argumentText (passing : Passing) (position : Nat) : List Char :=
  match passing with
  | .text | .parsed .owned _ => variableText position
  | .parsed .shared _ => "& ".toList ++ variableText position
  | .parsed .exclusive _ => "& mut ".toList ++ variableText position

/-- The method is called with the instance, if it takes one, and with all arguments in order. -/
def callText (receiver : Receiver) (method : Name) (bound : List (Param × Passing)) : List Char :=
  let arguments := (if receiver = .none then [] else ["this".toList]) ++
    bound.zipIdx.map fun b => argumentText b.1.2 b.2
  "Target :: ".toList ++ method.print ++ " (".toList ++ join " , ".toList arguments ++ ")".toList

/-- The arm of an index that an operation calls for, if its method is called by this name and its
parameters are bound in these ways. -/
def armText (index : Nat) (o : Operation) (method : Name) (bound : List (Param × Passing)) :
    List Char :=
  let call := callText o.receiver method bound
  let result :=
    if o.returns.isSome then
      "let value = ".toList ++ call ++ " ; Ok ((&& & ShimRender (& value)) . render ())".toList
    else call ++ " ; Ok (String :: new ())".toList
  join [' '] <|
    [numberText index ++ " => \x7b".toList, countText o.params.length] ++
      (instanceText o.receiver).toList ++
      (bound.zipIdx.map fun b => bindingText b.1.1 b.1.2 b.2) ++ [result, ['\x7d']]

/-! ## Plans -/

/-- The text of each parameter's type denotes how its argument is passed. -/
theorem PlanOf.denotes {m : Method} {p : Plan} (h : PlanOf m p) :
    ∀ b ∈ p.operation.params.zip p.passings, Denotes b.1.type.toList b.2 := by
  intro b hb
  obtain ⟨input, hplanned⟩ := h.exists_input hb
  exact hplanned.shown ▸ (passedAs_of_passing? hplanned.passed).denotes

/-! ## Arms -/

theorem map_bindingsFrom {α : Type} (f : Binding → α) (position : Nat) (passings : List Passing)
    (params : List Param) : (bindingsFrom position passings params).map f =
      ((params.zip passings).zipIdx position).map fun b => f ⟨b.2, b.1.1, b.1.2⟩ := by
  induction passings generalizing position params with
  | nil =>
    rw [List.zip_nil_right]
    rfl
  | cons passing passings ih =>
    cases params with
    | nil => rfl
    | cons param params =>
      rw [bindingsFrom, List.map_cons, ih, List.zip_cons_cons, List.zipIdx_cons, List.map_cons]

theorem number_eq (n : Nat) : number n = numberText n := String.toList_append

theorem variable_eq (position : Nat) (param : Param) (passing : Passing) :
    Binding.variable ⟨position, param, passing⟩ = variableText position := String.toList_append

theorem code_binding (position : Nat) (param : Param) (passing : Passing) :
    Binding.code ⟨position, param, passing⟩ = bindingText param passing position := by
  unfold Binding.code bindingText string
  rw [variable_eq, number_eq]
  cases passing with
  | text => rfl
  | parsed borrow type => cases borrow <;> rfl

theorem argument_binding (position : Nat) (param : Param) (passing : Passing) :
    Binding.argument ⟨position, param, passing⟩ = argumentText passing position := by
  have hvariable := variable_eq position param passing
  cases passing with
  | text => exact hvariable
  | parsed borrow type =>
    cases borrow with
    | owned => exact hvariable
    | shared => exact congrArg ("& ".toList ++ ·) hvariable
    | exclusive => exact congrArg ("& mut ".toList ++ ·) hvariable

theorem arityCheck_eq (a : Arm) : a.arityCheck = countText a.arity := by
  unfold Arm.arityCheck countText
  rw [number_eq]

theorem takeInstance_eq (receiver : Receiver) :
    takeInstance receiver = (instanceText receiver).toList := by
  -- The second line is the same one, so only the first is compared.
  have hjoin : ∀ {line taken refused : List Char}, line = taken →
      [join [' '] [line, refused]] = [taken ++ [' '] ++ refused] := by
    rintro line _ refused rfl
    rfl
  cases receiver with
  | none => rfl
  | ref => exact hjoin (by decide +kernel)
  | refMut => exact hjoin (by decide +kernel)

/-- The arm of a plan is the code that its operation calls for. -/
theorem code_ofPlan (index : Nat) {p : Plan} (h : p.passings.length = p.operation.params.length) :
    (Arm.ofPlan index p).code =
      armText index p.operation p.method (p.operation.params.zip p.passings) := by
  have hcall : (Arm.ofPlan index p).call =
      callText p.operation.receiver p.method (p.operation.params.zip p.passings) := by
    unfold Arm.call Arm.arguments callText
    dsimp only [Arm.ofPlan]
    simp only [map_bindingsFrom, argument_binding]
    rfl
  unfold Arm.code Arm.result armText
  rw [hcall, arityCheck_eq]
  dsimp only [Arm.ofPlan]
  simp only [map_bindingsFrom, takeInstance_eq, h, number_eq, code_binding, Template.closing]
  rfl

/-- So the arm of a planned method mirrors its operation. -/
theorem mirrors_of_plan {m : Method} {p : Plan} (h : planMethod? m = some p) (index : Nat) :
    ∃ method bound, method.text = p.operation.name ∧ bound.map Prod.fst = p.operation.params ∧
      (∀ b ∈ bound, ∀ passing, Denotes b.1.type.toList passing ↔ passing = b.2) ∧
      (Arm.ofPlan index p).code = armText index p.operation method bound := by
  have hplan := planOf_of_planMethod? h
  refine ⟨p.method, p.operation.params.zip p.passings, ?_, hplan.map_fst, ?_,
    code_ofPlan index hplan.length⟩
  · rw [hplan.method, hplan.name]
  · -- What the text denotes is the passing of the plan, and nothing else.
    intro b hb passing
    exact ⟨(hplan.denotes b hb).unique, fun heq => heq ▸ hplan.denotes b hb⟩

theorem length_armsFrom (index : Nat) (plans : List Plan) :
    (armsFrom index plans).length = plans.length := by
  induction plans generalizing index with
  | nil => rfl
  | cons p plans ih => rw [armsFrom, List.length_cons, List.length_cons, ih]

/-- Arms are numbered in the order of their plans. -/
theorem getElem?_armsFrom (index i : Nat) (plans : List Plan) :
    (armsFrom index plans)[i]? = plans[i]?.map (Arm.ofPlan (index + i)) := by
  induction plans generalizing index i with
  | nil => rfl
  | cons p plans ih =>
    cases i with
    | zero => rfl
    | succ i =>
      rw [armsFrom, List.getElem?_cons_succ, List.getElem?_cons_succ, ih, Nat.add_right_comm,
        Nat.add_assoc]

/-! ## Dispatch modules -/

open Template in
/-- The codes of the arms stand between an opening and a closing, and what is around these does not
depend on the arms. -/
theorem stretches_eq (name : Option Name) (m : Manifest) : ∃ front back, ∀ arms,
    stretches name arms m =
      front ++ [dispatchOpening] ++ arms.map Arm.code ++ [dispatchClosing] ++ back := by
  refine ⟨[heading] ++ (name.map aliasCode).toList ++ [manifestCode m, rendering] ++
      (if name.isSome then [making] else []) ++ [decoding, emitting, payloadText],
    [manifestExport, newOpening, if name.isSome then newDefault else newNothing, closing,
      dropOpening, if name.isSome then dropBoxed else dropNothing, closing, freeExport,
      invokeExport, closing], fun arms => ?_⟩
  unfold stretches
  simp only [List.append_assoc, List.cons_append, List.nil_append]

/-- Whatever is planned for a unit is the plan of a method. -/
theorem exists_method_of_mem_plans {u : SourceUnit} {p : Plan}
    (h : p ∈ ((usable? u).map Declared.plans).getD []) : ∃ m, planMethod? m = some p := by
  cases hused : usable? u with
  | none =>
    rw [hused] at h
    exact absurd h List.not_mem_nil
  | some used =>
    obtain ⟨modules, type, scope, -, hplans⟩ := exists_declaredIn hused
    rw [hused, Option.map_some, Option.getD_some, hplans] at h
    obtain ⟨m, -, hplan⟩ := List.mem_filterMap.1 h
    exact ⟨m, hplan⟩

/-- The code of a dispatch module consists of stretches around the arms of its plans. -/
theorem code_of_generate {u : SourceUnit} {d : Dispatch} (h : generate u = .ok d) :
    ∃ name, target u.name.toList = .ok name ∧
      d.code = join [' '] (stretches (if d.isInstantiable then some name else none)
        (armsFrom 0 (((usable? u).map Declared.plans).getD [])) d.manifest) := by
  unfold generate at h
  split at h
  · contradiction
  · rename_i name hname
    obtain rfl := Except.ok.inj h
    refine ⟨name, hname, ?_⟩
    cases usable? u <;> rfl

/-- **The arms mirror the manifest.** The code of a dispatch module is that of the module without
arms, with one arm for each operation of its manifest put into the function that runs them, in the
order of the manifest. The arm of an index is the code that the operation of that index calls for:
it bears the index, tests for as many arguments as there are parameters, takes the instance as the
receiver says, binds each argument from the position of its parameter as the text of the parameter's
type denotes, and calls the method of the operation's name with all of them in order. For no plan do
the passings and the parameters differ in number. -/
theorem arms_mirror_operations {u : SourceUnit} {d : Dispatch} (h : generate u = .ok d) :
    (∀ used, usable? u = some used →
      ∀ p ∈ used.plans, p.passings.length = p.operation.params.length) ∧
    ∃ name front back codes, target u.name.toList = .ok name ∧
      stretches (if d.isInstantiable then some name else none) [] d.manifest =
        front ++ [Template.dispatchOpening, Template.dispatchClosing] ++ back ∧
      d.code = join [' ']
        (front ++ [Template.dispatchOpening] ++ codes ++ [Template.dispatchClosing] ++ back) ∧
      codes.length = d.manifest.operations.length ∧
      ∀ index o, d.manifest.operations[index]? = some o → ∃ method bound,
        method.text = o.name ∧ bound.map Prod.fst = o.params ∧
        (∀ b ∈ bound, ∀ passing, Denotes b.1.type.toList passing ↔ passing = b.2) ∧
        codes[index]? = some (armText index o method bound) := by
  obtain ⟨name, hname, hcode⟩ := code_of_generate h
  obtain ⟨-, hoperations⟩ := operations_of_generate h
  have hplans : ∀ p ∈ ((usable? u).map Declared.plans).getD [], ∃ m, planMethod? m = some p :=
    fun p => exists_method_of_mem_plans
  constructor
  · intro used hused p hp
    rw [hused] at hplans
    obtain ⟨m, hplan⟩ := hplans p hp
    exact (planOf_of_planMethod? hplan).length
  · -- The arms and the operations are made from the same list of plans.
    generalize ((usable? u).map Declared.plans).getD [] = plans at hcode hoperations hplans
    obtain ⟨front, back, hstretches⟩ :=
      stretches_eq (if d.isInstantiable then some name else none) d.manifest
    refine ⟨name, front, back, (armsFrom 0 plans).map Arm.code, hname, ?_, ?_, ?_, ?_⟩
    · rw [hstretches, List.map_nil, List.append_nil, List.append_assoc front]
      rfl
    · rw [hcode, hstretches]
    · rw [List.length_map, length_armsFrom, hoperations, List.length_map]
    · -- The arm of an operation is that of the plan which stands at its index.
      intro index o hat
      rw [hoperations, List.getElem?_map] at hat
      obtain ⟨p, hp, rfl⟩ := Option.map_eq_some_iff.1 hat
      obtain ⟨m, hplan⟩ := hplans p (List.mem_of_getElem? hp)
      obtain ⟨method, bound, hmethod, hparams, hdenotes, harm⟩ := mirrors_of_plan hplan index
      refine ⟨method, bound, hmethod, hparams, hdenotes, ?_⟩
      rw [List.getElem?_map, getElem?_armsFrom, hp, Option.map_some, Option.map_some, Nat.zero_add,
        harm]

/-- The parameters and the texts of their types leave one way to bind them. -/
theorem eq_of_denotes {bound bound' : List (Param × Passing)}
    (hparams : bound.map Prod.fst = bound'.map Prod.fst)
    (hdenotes : ∀ b ∈ bound, ∀ passing, Denotes b.1.type.toList passing ↔ passing = b.2)
    (hdenotes' : ∀ b ∈ bound', Denotes b.1.type.toList b.2) : bound = bound' := by
  induction bound generalizing bound' with
  | nil => exact (List.map_eq_nil_iff.1 hparams.symm).symm
  | cons b bound ih =>
    obtain ⟨b', rest, rfl, hfirst, hrest⟩ := List.map_eq_cons_iff.1 hparams.symm
    obtain ⟨hb, hbound⟩ := List.forall_mem_cons.1 hdenotes
    obtain ⟨hb', hbound'⟩ := List.forall_mem_cons.1 hdenotes'
    have hsecond : b'.2 = b.2 := (hb b'.2).1 (hfirst ▸ hb')
    rw [ih hrest.symm hbound hbound', Prod.ext hfirst hsecond]

/-- A type with a method that takes arguments in several ways. -/
def manyPassings : SourceUnit where
  name := "A"
  source := "struct A;impl A\x7bpub fn f<'a>(&mut self,a:& 'a mut ::u8,b:&str,r#e:u16)\x7b\x7d\x7d"

/-- What its manifest says of the method. -/
def manyPassingsOperation : Operation :=
  ⟨"f", .refMut, [⟨"a", "&'a mut::u8"⟩, ⟨"b", "&str"⟩, ⟨"e", "u16"⟩], none⟩

/-- How the arguments are passed. -/
def manyPassingsBound : List (Param × Passing) :=
  [(⟨"a", "&'a mut::u8"⟩, .parsed .exclusive ⟨true, ⟨"u8", false, by decide⟩⟩),
    (⟨"b", "&str"⟩, .text), (⟨"e", "u16"⟩, .parsed .owned ⟨false, ⟨"u16", false, by decide⟩⟩)]

/-- The one arm passes each argument as the text of its type says. -/
theorem arms_mirror_operations_manyPassings : ∃ d front back method,
    generate manyPassings = .ok d ∧ d.manifest.operations = [manyPassingsOperation] ∧
      method.text = "f" ∧
      d.code = join [' '] (front ++ [Template.dispatchOpening] ++
        [armText 0 manyPassingsOperation method manyPassingsBound] ++
        [Template.dispatchClosing] ++ back) := by
  -- The characters of a text are cheap to compute with, the text is not.
  have hchars : manyPassings.source.toList = _ := String.toList_ofList
  have hlisted : (generate manyPassings).toOption.map (fun d => d.manifest.operations) =
      some [manyPassingsOperation] := by
    rewrite [generate, usable?, hchars]
    decide +kernel
  obtain ⟨d, hd, hoperations⟩ := exists_generate hlisted
  obtain ⟨-, name, front, back, codes, -, -, hcode, hlength, harms⟩ := arms_mirror_operations hd
  have hat : d.manifest.operations[0]? = some manyPassingsOperation := by
    rw [hoperations]
    rfl
  obtain ⟨method, bound, hmethod, hparams, hdenotes, harm⟩ := harms 0 _ hat
  -- Each text denotes the passing that is expected of it.
  have hbound : bound = manyPassingsBound := by
    refine eq_of_denotes hparams hdenotes ?_
    have ha : "&'a mut::u8".toList = referenceText (some ⟨"a", false, by decide⟩) true
        ⟨true, ⟨"u8", false, by decide⟩⟩ := by decide
    have hb : "&str".toList = referenceText none false ⟨false, ⟨"str", false, by decide⟩⟩ := by
      decide
    have he : "u16".toList = namedText ⟨false, ⟨"u16", false, by decide⟩⟩ := by decide
    refine List.forall_mem_cons.2 ⟨?_, List.forall_mem_cons.2 ⟨?_, List.forall_mem_singleton.2 ?_⟩⟩
    · exact ha ▸ .exclusive _ ⟨rfl, by decide⟩
    · exact hb ▸ .text _ ⟨rfl, rfl⟩
    · exact he ▸ .owned ⟨rfl, by decide⟩
  have hcodes : codes = [armText 0 manyPassingsOperation method manyPassingsBound] := by
    rw [hoperations] at hlength
    obtain ⟨code, rfl⟩ := List.length_eq_one_iff.1 hlength
    rw [hbound] at harm
    rw [Option.some.inj harm]
  exact ⟨d, front, back, method, hd, hoperations, hmethod, hcodes ▸ hcode⟩

end UnitLoader.Dispatch
