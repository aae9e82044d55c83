import UnitLoader.Library.Script
import UnitLoader.Memory

/-!
# Which operation a call runs

A call names an operation, while a library knows its operations by their indices, and a manifest may
hold one name several times. `IsFirst` is the operation that a name stands for: the first one that
has it. The search of a call and the search that shows an operation both find it
(`indexed?_of_isFirst`, `operation?_of_isFirst`).

`outcome_of_call` says what comes of a call. Without an operation of the name, or without an
instance that the operation needs, the library is not asked. In every other case it is asked once,
for the index of that operation, and its status code decides: zero alone is success.
-/

namespace UnitLoader

open Interface (Status)

/-! ## The operation that a name stands for -/

/-- The operation is the first one of a name, and it stands at an index. -/
structure IsFirst (operations : List Operation) (name : String) (index : Nat) (o : Operation) :
    Prop where
  /-- It stands at the index. -/
  stands : operations[index]? = some o
  /-- It has the name. -/
  named : o.name = name
  /-- No operation in front of it has the name. -/
  earliest : ∀ i < index, ∀ earlier, operations[i]? = some earlier → earlier.name ≠ name

section

variable {operations rest : List Operation} {name : String} {index : Nat} {first o : Operation}

/-- The first operation of a name stands in front, or it is the first one behind an operation of
another name. -/
theorem isFirst_cons_iff : IsFirst (first :: rest) name index o ↔
    (index = 0 ∧ o = first ∧ first.name = name) ∨
      ∃ i, index = i + 1 ∧ first.name ≠ name ∧ IsFirst rest name i o := by
  constructor
  · rintro ⟨hstands, hnamed, hearliest⟩
    cases index with
    | zero =>
      obtain rfl := Option.some.inj hstands
      exact .inl ⟨rfl, rfl, hnamed⟩
    | succ i =>
      -- The operation in front is earlier, so it has another name.
      have hfirst : first.name ≠ name := hearliest 0 (Nat.succ_pos i) first rfl
      refine .inr ⟨i, rfl, hfirst, hstands, hnamed, fun j hj earlier hat => ?_⟩
      exact hearliest (j + 1) (Nat.succ_lt_succ hj) earlier hat
  · rintro (⟨rfl, rfl, hnamed⟩ | ⟨i, rfl, hfirst, hstands, hnamed, hearliest⟩)
    · exact ⟨rfl, hnamed, fun i hi => absurd hi (Nat.not_lt_zero i)⟩
    · refine ⟨hstands, hnamed, fun j hj earlier hat => ?_⟩
      cases j with
      | zero =>
        obtain rfl := Option.some.inj hat
        exact hfirst
      | succ j => exact hearliest j (Nat.lt_of_succ_lt_succ hj) earlier hat

/-- Some operation is the first one of a name, unless none has it. -/
theorem exists_isFirst (operations : List Operation) (name : String) :
    (∀ o ∈ operations, o.name ≠ name) ∨ ∃ index o, IsFirst operations name index o := by
  induction operations with
  | nil => exact .inl fun _ hmem => absurd hmem List.not_mem_nil
  | cons first rest ih =>
    by_cases hfirst : first.name = name
    · exact .inr ⟨0, first, isFirst_cons_iff.2 (.inl ⟨rfl, rfl, hfirst⟩)⟩
    · rcases ih with hnone | ⟨i, o, ho⟩
      · exact .inl (List.forall_mem_cons.2 ⟨hfirst, hnone⟩)
      · exact .inr ⟨i + 1, o, isFirst_cons_iff.2 (.inr ⟨i, rfl, hfirst, ho⟩)⟩

end

/-! ## What the status code means -/

namespace Interface.Status

theorem ofCode_eq_success_iff {code : Int} : ofCode code = .success ↔ code = 0 := by
  unfold ofCode
  split <;> simp_all

theorem ofCode_eq_unknownOperation_iff {code : Int} :
    ofCode code = .unknownOperation ↔ code = -2 := by
  unfold ofCode
  split <;> simp_all

end Interface.Status

namespace LoadedType

variable {t : LoadedType} {on : Option Nat} {name text : String} {arguments : List String}
  {index : Nat} {o : Operation} {reply : Reply}

/-- Zero is success, with the text of the output buffer. -/
theorem outcome_eq_ok_iff :
    t.outcome name reply = .ok text ↔ reply.code = 0 ∧ text = outputText reply.output := by
  rw [← Status.ofCode_eq_success_iff]
  unfold outcome
  cases Status.ofCode reply.code <;> simp [eq_comm]

/-- One code says that the library knows no operation of the index. -/
theorem outcome_of_unknownOperation (h : reply.code = -2) :
    t.outcome name reply = .error (.unknownOperation t.name name) := by
  unfold outcome
  rw [Status.ofCode_eq_unknownOperation_iff.2 h]

/-- Every other code is a failure of the operation. -/
theorem outcome_of_failure (hzero : reply.code ≠ 0) (hunknown : reply.code ≠ -2) :
    ∃ message, t.outcome name reply = .error (.invocation t.name name message) := by
  have hsuccess := mt Status.ofCode_eq_success_iff.1 hzero
  have hoperation := mt Status.ofCode_eq_unknownOperation_iff.1 hunknown
  unfold outcome
  cases hstatus : Status.ofCode reply.code with
  | success => exact absurd hstatus hsuccess
  | unknownOperation => exact absurd hstatus hoperation
  | badArguments | missingInstance | panic => exact ⟨_, rfl⟩

/-- A missing output buffer is like an empty one. -/
theorem outputText_eq (output : Option Output) :
    outputText output =
      String.ofList (Text.Utf8.decodeLossy ((output.map Output.bytes).getD [])) := by
  cases output <;> rfl

/-! ## Searches -/

/-- The search of a call finds nothing if no operation has the name. -/
theorem findOperation_eq_none {operations : List Operation} (h : ∀ o ∈ operations, o.name ≠ name)
    (start : Nat) : findOperation name start operations = none := by
  induction operations generalizing start with
  | nil => rfl
  | cons first rest ih =>
    obtain ⟨hfirst, hrest⟩ := List.forall_mem_cons.1 h
    rw [findOperation, if_neg hfirst, ih hrest]

/-- It finds the first operation of the name, and counts the operations in front of it. -/
theorem findOperation_of_isFirst {operations : List Operation}
    (h : IsFirst operations name index o) (start : Nat) :
    findOperation name start operations = some (start + index, o) := by
  induction operations generalizing start index with
  | nil => exact absurd h.stands (by simp)
  | cons first rest ih =>
    obtain ⟨rfl, rfl, hnamed⟩ | ⟨i, rfl, hother, hrest⟩ := isFirst_cons_iff.1 h
    · rw [findOperation, if_pos hnamed, Nat.add_zero]
    · rw [findOperation, if_neg hother, ih hrest, Nat.add_assoc, Nat.add_comm 1]

theorem indexed?_of_isFirst (h : IsFirst t.operations name index o) :
    t.indexed? name = some (index, o) := by
  rw [indexed?, findOperation_of_isFirst h, Nat.zero_add]

/-- The search that shows an operation finds nothing either. -/
theorem operation?_eq_none (h : ∀ o ∈ t.operations, o.name ≠ name) : t.operation? name = none :=
  List.find?_eq_none.2 fun o hmem => by simpa using h o hmem

/-- It finds the same operation as the search of a call. -/
theorem operation?_of_isFirst (h : IsFirst t.operations name index o) :
    t.operation? name = some o := by
  obtain ⟨hindex, hat⟩ := List.getElem?_eq_some_iff.1 h.stands
  refine List.find?_eq_some_iff_getElem.2 ⟨by simpa using h.named, index, hindex, hat, ?_⟩
  intro i hi
  simpa using h.earliest i hi _ (List.getElem?_eq_getElem (by omega))

/-! ## Calls -/

/-- A request is the latest one afterwards. -/
theorem requests_callsFor (t : LoadedType) (request : Request) :
    (t.after (t.callsFor request)).trace.requests = request :: t.trace.requests := by
  unfold callsFor
  obtain ⟨code, output⟩ := t.replyTo request
  cases output <;> rfl

/-- Without an operation of the name nothing is asked of the library. -/
theorem call_of_unknown (h : ∀ o ∈ t.operations, o.name ≠ name) :
    t.call on name arguments = ⟨.error (.unknownOperation t.name name), t, .nothing⟩ := by
  unfold call indexed?
  rw [findOperation_eq_none h]

/-- Nor is anything asked of it without an instance that the operation needs. -/
theorem call_of_missing (h : IsFirst t.operations name index o)
    (hneeds : o.needsInstance = true) : t.call none name arguments =
      ⟨.error (.invocation t.name name ("`" ++ o.signature ++ "` needs an instance")), t,
        .nothing⟩ := by
  have hmissing : (o.needsInstance && (none : Option Nat).isNone) = true := by
    rw [hneeds]
    rfl
  unfold call
  rw [indexed?_of_isFirst h]
  dsimp only
  rw [if_pos hmissing]

/-- In every other case it is asked for the index of the first operation of the name. -/
theorem call_of_isFirst (arguments : List String) (h : IsFirst t.operations name index o)
    (hon : o.needsInstance = true → on ≠ none) :
    let request := requestOf on index arguments
    t.call on name arguments =
      ⟨t.outcome name (t.replyTo request), t.after (t.callsFor request),
        t.writes (t.callsFor request)⟩ := by
  have hgiven : ¬ (o.needsInstance && on.isNone) = true := by
    rw [Bool.and_eq_true, Option.isNone_iff_eq_none]
    exact fun ⟨hneeds, hnone⟩ => hon hneeds hnone
  unfold call
  rw [indexed?_of_isFirst h]
  dsimp only
  rw [if_neg hgiven]

/-- **What comes of a call.** If no operation has the name, or the first one that has it needs an
instance and there is none, the call is refused and the type stays as it is, the calls that were
made of its library included. Otherwise the library is asked once more, for the index of the first
operation of the name, which is the one that is shown for the name, and with the bytes of the
arguments; beyond that it is only given its output buffer back. The answer is a success exactly if
the status code is zero, and then it is the text of the output buffer. -/
theorem outcome_of_call (t : LoadedType) (on : Option Nat) (name : String)
    (arguments : List String) :
    ((∀ o ∈ t.operations, o.name ≠ name) ∨ ∃ index o, IsFirst t.operations name index o) ∧
    ((∀ o ∈ t.operations, o.name ≠ name) → t.operation? name = none ∧
      (t.call on name arguments).result = .error (.unknownOperation t.name name) ∧
      (t.call on name arguments).type = t) ∧
    ∀ index o, IsFirst t.operations name index o → t.operation? name = some o ∧
      (o.needsInstance = true → on = none →
        (∃ message,
          (t.call on name arguments).result = .error (.invocation t.name name message)) ∧
        (t.call on name arguments).type = t) ∧
      ((o.needsInstance = true → on ≠ none) → ∃ request reply,
        request = ⟨index, Arguments.encode arguments, on⟩ ∧
        reply = t.library.invoke t.trace request ∧
        (t.call on name arguments).type =
          t.after (.invoke request reply :: (reply.output.map fun o => .free o.buffer).toList) ∧
        (t.call on name arguments).type.trace.requests = request :: t.trace.requests ∧
        (∀ text, (t.call on name arguments).result = .ok text ↔
          reply.code = 0 ∧ text =
            String.ofList (Text.Utf8.decodeLossy ((reply.output.map Output.bytes).getD []))) ∧
        (reply.code = -2 →
          (t.call on name arguments).result = .error (.unknownOperation t.name name)) ∧
        (reply.code ≠ 0 → reply.code ≠ -2 → ∃ message,
          (t.call on name arguments).result = .error (.invocation t.name name message))) := by
  refine ⟨exists_isFirst _ _, fun hnone => ?_, fun index o hfirst => ?_⟩
  · -- No operation has the name.
    rw [call_of_unknown hnone]
    exact ⟨operation?_eq_none hnone, rfl, rfl⟩
  · refine ⟨operation?_of_isFirst hfirst, ?_, fun hon => ?_⟩
    · -- It needs an instance and is given none.
      rintro hneeds rfl
      rw [call_of_missing hfirst hneeds]
      exact ⟨⟨_, rfl⟩, rfl⟩
    · -- The library is asked.
      refine ⟨requestOf on index arguments, t.replyTo (requestOf on index arguments), rfl, rfl, ?_⟩
      rw [call_of_isFirst arguments hfirst hon]
      refine ⟨rfl, requests_callsFor t _, ?_⟩
      refine ⟨fun text => ?_, outcome_of_unknownOperation, outcome_of_failure⟩
      rw [outcome_eq_ok_iff, outputText_eq]

/-- A type with two operations of one name, of which the first does without an instance. -/
def repeating : LoadedType where
  bytes := []
  library :=
    Script.library ⟨none, none, true, [⟨-7, .nothing⟩, ⟨0, .bytes [0x68, 0xFF]⟩, ⟨0, .echo⟩]⟩
  manifest := ⟨1, "A", [⟨"f", .ref, [], none⟩, ⟨"g", .none, [], none⟩, ⟨"g", .ref, [], none⟩]⟩
  image := .memory
  trace := []

/-- The first of the two is run, and the broken byte of its output is replaced; the operation in
front of them is refused without an instance, and its status code is a failure with one. -/
theorem outcome_of_call_repeating :
    (repeating.call none "g" ["x"]).result = .ok "h\uFFFD" ∧
      (repeating.call none "g" ["x"]).type.trace.requests =
        [⟨1, [1, 0, 0, 0, 0, 0, 0, 0, 0x78], none⟩] ∧
      (repeating.call none "f" []).type.trace = [] ∧
      (∃ message, (repeating.call (some 0) "f" []).result =
        .error (.invocation "A" "f" message)) ∧
      (repeating.call none "h" []).result = .error (.unknownOperation "A" "h") := by
  have hg : IsFirst repeating.operations "g" 1 ⟨"g", .none, [], none⟩ := ⟨rfl, rfl, by
    intro i hi earlier hat
    obtain rfl : i = 0 := by omega
    obtain rfl := Option.some.inj hat
    decide⟩
  have hf : IsFirst repeating.operations "f" 0 ⟨"f", .ref, [], none⟩ :=
    ⟨rfl, rfl, fun i hi => absurd hi (Nat.not_lt_zero i)⟩
  obtain ⟨-, -, hcall⟩ := outcome_of_call repeating none "g" ["x"]
  obtain ⟨-, -, hasked⟩ := hcall 1 _ hg
  obtain ⟨request, reply, rfl, rfl, -, hrequests, hok, -⟩ := hasked (by decide)
  obtain ⟨-, -, hmissing⟩ := outcome_of_call repeating none "f" []
  obtain ⟨-, -, hfails⟩ := outcome_of_call repeating (some 0) "f" []
  obtain ⟨-, -, hfailed⟩ := hfails 0 _ hf
  obtain ⟨request, reply, rfl, rfl, -, -, -, -, hfailure⟩ := hfailed (by decide)
  obtain ⟨-, hunknown, -⟩ := outcome_of_call repeating none "h" []
  refine ⟨(hok _).2 ⟨by decide, by decide⟩, hrequests, ?_, ?_, (hunknown (by decide)).2.1⟩
  · rw [((hmissing 0 _ hf).2.1 rfl rfl).2]
    rfl
  · exact hfailure (by decide) (by decide)

end LoadedType

end UnitLoader
