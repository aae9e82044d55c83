import UnitLoader.CommandLine.Execution
import UnitLoader.Proofs.Invocation
import UnitLoader.Proofs.Memory

/-!
# Which way a call takes from the command line

A command calls an operation by its name, with an instance or without one. `callOperation` looks the
name up to choose between the two ways, and the call looks it up again; both find the first
operation of the name, so the second search agrees with the choice made after the first.

An operation that takes no receiver is run without an instance, and none is made. Everything else
takes the other way, which `LoadedType.callFresh` follows within the type: an instance is made, the
call is made on it, and it is dropped. `LoadedType.callNamed` is the choice, and `callOperation_eq`
says that it is all that happens to memory. So an operation that takes a receiver is never refused
for the lack of an instance. But a name that no operation has goes the way with an instance too, and
there a library that makes no instance is what is reported, instead of the name.
-/

namespace UnitLoader

/-! ## What is written during calls -/

namespace Written

theorem nothing_append (w : Written) : .nothing ++ w = w := rfl

theorem append_assoc (a b c : Written) : a ++ b ++ c = a ++ (b ++ c) := by
  change (⟨a.out ++ b.out ++ c.out, a.err ++ b.err ++ c.err⟩ : Written) =
    ⟨a.out ++ (b.out ++ c.out), a.err ++ (b.err ++ c.err)⟩
  rw [List.append_assoc, List.append_assoc]

theorem out_append (a b : Written) : (a ++ b).out = a.out ++ b.out := rfl

end Written

/-- What is written during calls and later ones is what is written during each. -/
theorem Library.writesAll_append (l : Library) (t : Trace) (calls later : List Call) :
    l.writesAll t (calls ++ later) =
      l.writesAll t calls ++ l.writesAll (calls.reverse ++ t) later := by
  induction calls generalizing t with
  | nil => exact (Written.nothing_append _).symm
  | cons c rest ih =>
    change l.writes t c ++ l.writesAll (c :: t) (rest ++ later) = _
    rw [ih, ← Written.append_assoc, List.reverse_cons, List.append_assoc]
    rfl

namespace LoadedType

variable {t : LoadedType} {name : String} {arguments : List String} {index address : Nat}
  {o : Operation}

theorem writes_append (t : LoadedType) (calls later : List Call) :
    t.writes (calls ++ later) = t.writes calls ++ (t.after calls).writes later :=
  t.library.writesAll_append t.trace calls later

/-! ## Both ways -/

/-- Of what comes of something that is done with a type, these calls of the library are all that is
left. -/
structure CallResult.Makes (r : CallResult) (t : LoadedType) (calls : List Call) : Prop where
  /-- The type after it. -/
  type : r.type = t.after calls
  /-- What was written. -/
  written : r.written = t.writes calls

/-- Nothing is left of what does not come to the library. -/
theorem makes_nil (t : LoadedType) (result : Except Error String) :
    CallResult.Makes ⟨result, t, .nothing⟩ t [] := ⟨rfl, rfl⟩

/-- A call makes calls of the library, and none of them asks for an instance. -/
theorem makes_call (t : LoadedType) (on : Option Nat) (name : String) (arguments : List String) :
    ∃ calls, (t.call on name arguments).Makes t calls ∧ ∀ made, .construct made ∉ calls := by
  unfold call
  split
  · exact ⟨[], t.makes_nil _, fun _ => List.not_mem_nil⟩
  · split
    · exact ⟨[], t.makes_nil _, fun _ => List.not_mem_nil⟩
    · refine ⟨_, ⟨rfl, rfl⟩, fun made => ?_⟩
      unfold callsFor
      simp

/-- Among the calls of the library it is asked once to run an operation, that of an index, on an
instance or on none, and the answer is what its reply means. -/
structure Runs (t : LoadedType) (on : Option Nat) (index : Nat) (name : String)
    (arguments : List String) (result : Except Error String) (calls : List Call) : Prop where
  /-- The answer. -/
  result : result = t.outcome name (t.replyTo (requestOf on index arguments))
  /-- The request is the only one. -/
  requests : Trace.requests calls = [requestOf on index arguments]

/-- What is asked of a library by a request. -/
theorem requests_callsFor_self (t : LoadedType) (request : Request) :
    Trace.requests (t.callsFor request) = [request] := by
  unfold callsFor
  obtain ⟨code, output⟩ := t.replyTo request
  cases output <;> rfl

/-- A call does so unless an instance is missing. -/
theorem runs_call (on : Option Nat) (h : IsFirst t.operations name index o)
    (hon : o.needsInstance = true → on ≠ none) (arguments : List String) :
    ∃ calls, (t.call on name arguments).Makes t calls ∧ (∀ made, .construct made ∉ calls) ∧
      t.Runs on index name arguments (t.call on name arguments).result calls := by
  refine ⟨t.callsFor (requestOf on index arguments), ?_, ?_, ?_⟩
  · rw [call_of_isFirst arguments h hon]
    exact ⟨rfl, rfl⟩
  · intro made
    unfold callsFor
    simp
  · rw [call_of_isFirst arguments h hon]
    exact ⟨rfl, t.requests_callsFor_self _⟩

/-! ## The way with an instance -/

/-- What comes of a call on an instance that is made for it and dropped afterwards, also where no
instance is made. -/
def callFresh (t : LoadedType) (name : String) (arguments : List String) : CallResult :=
  match t.construct with
  | none =>
    ⟨.error (.notInstantiable t.name), t.after [.construct none], t.writes [.construct none]⟩
  | some address =>
    let called := (t.after [.construct (some address)]).call (some address) name arguments
    ⟨called.result, called.type.after [.drop address],
      t.writes [.construct (some address)] ++ called.written ++ called.type.writes [.drop address]⟩

/-- If no instance is made, that is reported. -/
theorem callFresh_of_refused (h : t.construct = none) (name : String) (arguments : List String) :
    t.callFresh name arguments = ⟨.error (.notInstantiable t.name), t.after [.construct none],
      t.writes [.construct none]⟩ := by
  unfold callFresh
  rw [h]

/-- If one is made, the calls of the library are those of the call on it, between the two that make
it and drop it. -/
theorem makes_callFresh {calls : List Call} (h : t.construct = some address)
    (hcalls : ((t.after [.construct (some address)]).call (some address) name arguments).Makes
      (t.after [.construct (some address)]) calls) :
    (t.callFresh name arguments).Makes t
      (.construct (some address) :: (calls ++ [.drop address])) := by
  have hsplit : Call.construct (some address) :: (calls ++ [.drop address]) =
      [.construct (some address)] ++ calls ++ [.drop address] := rfl
  unfold callFresh
  rw [h, hsplit]
  dsimp only
  constructor
  case type =>
    change ((t.after [.construct (some address)]).call (some address) name arguments).type.after
      [.drop address] = _
    rw [hcalls.type, after_after, after_after, List.append_assoc]
  case written => rw [hcalls.type, hcalls.written, writes_append, writes_append, ← after_after]

theorem result_callFresh (h : t.construct = some address) (name : String)
    (arguments : List String) : (t.callFresh name arguments).result =
      ((t.after [.construct (some address)]).call (some address) name arguments).result := by
  unfold callFresh
  rw [h]

/-- A name that no operation has is reported exactly if an instance is made, and whether one is made
or not, the library is not asked to run anything. -/
theorem callFresh_of_unknown (h : ∀ o ∈ t.operations, o.name ≠ name) (arguments : List String) :
    (t.callFresh name arguments).result = .error (if t.construct.isSome then
        .unknownOperation t.name name else .notInstantiable t.name) ∧
      ∃ calls, (t.callFresh name arguments).Makes t calls ∧ Trace.requests calls = [] := by
  cases hmade : t.construct with
  | none =>
    rw [callFresh_of_refused hmade]
    exact ⟨rfl, _, ⟨rfl, rfl⟩, rfl⟩
  | some address =>
    have hcall : (t.after [.construct (some address)]).call (some address) name arguments =
        ⟨.error (.unknownOperation t.name name), t.after [.construct (some address)], .nothing⟩ :=
      call_of_unknown h
    have hmakes : ((t.after [.construct (some address)]).call (some address) name arguments).Makes
        (t.after [.construct (some address)]) [] := by
      rw [hcall]
      exact makes_nil _ _
    refine ⟨?_, _, makes_callFresh hmade hmakes, rfl⟩
    rw [result_callFresh hmade, hcall]
    rfl

/-- If an instance is made, the operation that the name stands for is run on it. -/
theorem runs_callFresh (h : IsFirst t.operations name index o) (hmade : t.construct = some address)
    (arguments : List String) :
    ∃ calls, (t.callFresh name arguments).Makes t calls ∧
      (t.after [.construct (some address)]).Runs (some address) index name arguments
        (t.callFresh name arguments).result calls := by
  have hgiven : o.needsInstance = true → some address ≠ none := fun _ => Option.some_ne_none _
  obtain ⟨calls, hmakes, -, hruns⟩ :=
    runs_call (t := t.after [.construct (some address)]) (some address) h hgiven arguments
  refine ⟨_, makes_callFresh hmade hmakes, ?_, ?_⟩
  · rw [result_callFresh hmade]
    exact hruns.result
  · have hrequests : Trace.requests (.construct (some address) :: (calls ++ [.drop address])) =
        Trace.requests calls := by
      unfold Trace.requests
      rw [List.filterMap_cons_none rfl, List.filterMap_append]
      exact List.append_nil _
    rw [hrequests]
    exact hruns.requests

/-! ## The choice -/

/-- What comes of a call of the operation of a name, if it is known of nothing else whether it takes
an instance. -/
def callNamed (t : LoadedType) (name : String) (arguments : List String) : CallResult :=
  if (t.operation? name).any fun o => !o.needsInstance then t.call none name arguments
  else t.callFresh name arguments

/-- An operation that is found to take no receiver is called without an instance. -/
theorem callNamed_of_static (ho : t.operation? name = some o) (hneeds : o.needsInstance = false)
    (arguments : List String) : t.callNamed name arguments = t.call none name arguments := by
  unfold callNamed
  rw [ho, Option.any_some, hneeds]
  rfl

/-- For everything else an instance is made. -/
theorem callNamed_of_fresh (h : ∀ o, t.operation? name = some o → o.needsInstance = true)
    (arguments : List String) : t.callNamed name arguments = t.callFresh name arguments := by
  unfold callNamed
  cases ho : t.operation? name with
  | none => rfl
  | some o =>
    rw [Option.any_some, h o ho]
    rfl

/-- Either way the calls of the library are all that is left. -/
theorem makes_callNamed (t : LoadedType) (name : String) (arguments : List String) :
    ∃ calls, (t.callNamed name arguments).Makes t calls := by
  unfold callNamed
  split
  · obtain ⟨calls, hmakes, -⟩ := t.makes_call none name arguments
    exact ⟨calls, hmakes⟩
  · cases hmade : t.construct with
    | none =>
      rw [callFresh_of_refused hmade]
      exact ⟨_, rfl, rfl⟩
    | some address =>
      obtain ⟨calls, hmakes, -⟩ := (t.after [.construct (some address)]).makes_call (some address)
        name arguments
      exact ⟨_, makes_callFresh hmade hmakes⟩

end LoadedType

namespace Memory

variable {m : Memory} {h : Handle} {t after : LoadedType} {address : Nat}

/-- Memory differs from before in the type of one handle at most. -/
structure Replaces (m : Memory) (h : Handle) (after : LoadedType) (m' : Memory) : Prop where
  /-- What the handle stands for. -/
  type : m'.type? h = some after
  /-- The other handles stand for what they stood for. -/
  others : ∀ other, other ≠ h → m'.type? other = m.type? other
  /-- The instances are those that there were before. -/
  instances : ∀ number, m'.instance? number = m.instance? number

/-- Memory in which a type is replaced. -/
theorem replaces_of_types {m' : Memory} (ht : m.type? h = some t)
    (htypes : m'.types = (m.setType h after).types)
    (hinstances : ∀ number, m'.instance? number = m.instance? number) :
    m.Replaces h after m' := by
  have htype (other : Handle) : m'.type? other = (m.setType h after).type? other := by
    rw [type?, htypes]
    rfl
  refine ⟨?_, fun other hne => ?_, hinstances⟩
  · rw [htype, type?_setType ht, if_pos rfl]
  · rw [htype, type?_setType ht, if_neg hne]

/-- Memory in which a type is replaced and one more place for an instance is taken. -/
def withLatest (m : Memory) (h : Handle) (after : LoadedType) (i : Option Instance) : Memory :=
  { m.setType h after with instances := m.instances ++ [i] }

theorem type?_withLatest (ht : m.type? h = some t) (after : LoadedType) (i : Option Instance) :
    (m.withLatest h after i).type? h = some after := (type?_setType ht after h).trans (if_pos rfl)

theorem instance?_withLatest (after : LoadedType) (i : Option Instance) :
    (m.withLatest h after i).instance? m.instances.length = i := by
  unfold instance? withLatest
  dsimp only
  rw [List.getElem?_concat_length]
  rfl

/-- The type of the latest place can be replaced again. -/
theorem setType_withLatest (before after : LoadedType) (i : Option Instance) :
    (m.withLatest h before i).setType h after = m.withLatest h after i := by
  unfold withLatest setType
  dsimp only
  rw [List.set_set]

/-- So can the place. -/
theorem set_withLatest (after : LoadedType) (i j : Option Instance) :
    (m.withLatest h after i).instances.set m.instances.length j = m.instances ++ [j] := by
  unfold withLatest
  dsimp only
  rw [List.set_append_right _ _ (Nat.le_refl _), Nat.sub_self]
  rfl

/-- A place that is left empty makes no difference. -/
theorem instance?_withLatest_none (after : LoadedType) (number : Nat) :
    (m.withLatest h after none).instance? number = m.instance? number := by
  unfold instance? withLatest
  dsimp only
  rcases Nat.lt_or_ge number m.instances.length with hbefore | hbehind
  · rw [List.getElem?_append_left hbefore]
  · rw [List.getElem?_append_right hbehind, List.getElem?_eq_none hbehind]
    cases number - m.instances.length <;> rfl

/-- A call on the latest instance. -/
theorem call_withLatest (ht : m.type? h = some t) (name : String) (arguments : List String) :
    (m.withLatest h after (some ⟨h, address⟩)).call m.instances.length name arguments =
      some ⟨(after.call (some address) name arguments).result,
        m.withLatest h (after.call (some address) name arguments).type (some ⟨h, address⟩),
        (after.call (some address) name arguments).written⟩ := by
  unfold call
  rw [instance?_withLatest]
  dsimp only
  rw [type?_withLatest ht, Option.map_some, setType_withLatest]

/-- The latest instance is dropped. -/
theorem drop_withLatest (ht : m.type? h = some t) :
    (m.withLatest h after (some ⟨h, address⟩)).drop m.instances.length =
      some ⟨(), m.withLatest h (after.after [.drop address]) none,
        after.writes [.drop address]⟩ := by
  unfold drop
  rw [instance?_withLatest]
  dsimp only
  rw [type?_withLatest ht, Option.map_some, setType_withLatest, set_withLatest]
  rfl

end Memory

namespace CommandLine

variable {m : Memory} {h : Handle} {t : LoadedType} {name : String} {o : Operation}

/-- Whatever comes of calling an operation by its name comes of it within the type, and all that is
left of it in memory is what is left of the type. -/
theorem callOperation_eq (ht : m.type? h = some t) (name : String) (arguments : List String) :
    ∃ m', callOperation m h name arguments =
        some ⟨(t.callNamed name arguments).result, m', (t.callNamed name arguments).written⟩ ∧
      m'.types = (m.setType h (t.callNamed name arguments).type).types ∧
      ∀ number, m'.instance? number = m.instance? number := by
  unfold callOperation LoadedType.callNamed
  dsimp only
  rw [ht, Option.bind_some]
  split
  · -- The type is called.
    refine ⟨_, ?_, rfl, fun _ => rfl⟩
    unfold Memory.callStatic
    rw [ht, Option.map_some]
  · unfold LoadedType.callFresh
    cases hmade : t.construct with
    | none =>
      -- The refusal is all that memory keeps of the call.
      have hrefused : m.instantiate h = some ⟨.error (.notInstantiable t.name),
          m.setType h (t.after [.construct none]), t.writes [.construct none]⟩ := by
        unfold Memory.instantiate
        rw [ht, Option.map_some, hmade]
      rw [hrefused, Option.bind_some]
      exact ⟨_, rfl, rfl, fun _ => rfl⟩
    | some address =>
      have hasked : m.instantiate h = some ⟨.ok m.instances.length,
          m.withLatest h (t.after [.construct (some address)]) (some ⟨h, address⟩),
          t.writes [.construct (some address)]⟩ := by
        unfold Memory.instantiate
        rw [ht, Option.map_some, hmade]
        rfl
      -- The instance is the latest one for as long as the call goes on, so its place is emptied.
      rw [hasked, Option.bind_some, callFresh]
      dsimp only
      rw [Memory.call_withLatest ht, Option.map_some]
      dsimp only
      rw [Memory.drop_withLatest ht]
      exact ⟨_, rfl, rfl, Memory.instance?_withLatest_none _⟩

/-- **What comes of calling an operation by its name.** There is always an answer, and of memory
nothing changes but the calls that the type keeps: the instances are those that there were before.
- A name that no operation has is reported exactly if the library makes an instance; otherwise it is
  reported that none is made. The library is not asked to run anything.
- If the first operation of the name takes no receiver, the library is not asked for an instance. It
  is asked once, to run the operation without one, and the answer is what its reply means.
- If that operation takes a receiver and the library makes an instance, the library is asked once,
  to run the operation on that instance, and the answer is what its reply means. If it makes none,
  that is reported, and the library is not asked to run anything. So the call is never refused for
  the lack of an instance. -/
theorem callOperation_by_name (ht : m.type? h = some t) (name : String) (arguments : List String) :
    ∃ done calls, callOperation m h name arguments = some done ∧
      m.Replaces h (t.after calls) done.memory ∧ done.written = t.writes calls ∧
      ((∀ o ∈ t.operations, o.name ≠ name) →
        done.result = .error (if t.construct.isSome then .unknownOperation t.name name
          else .notInstantiable t.name) ∧
        Trace.requests calls = []) ∧
      ∀ index o, IsFirst t.operations name index o →
        (o.needsInstance = false → t.Runs none index name arguments done.result calls ∧
          ∀ made, .construct made ∉ calls) ∧
        (∀ address, o.needsInstance = true → t.construct = some address →
          (t.after [.construct (some address)]).Runs (some address) index name arguments
            done.result calls) ∧
        (o.needsInstance = true → t.construct = none →
          done.result = .error (.notInstantiable t.name) ∧ Trace.requests calls = []) := by
  obtain ⟨m', hcall, htypes, hinstances⟩ := callOperation_eq ht name arguments
  -- Whichever calls the library is given, memory keeps them.
  have hdone {calls : List Call} (hmakes : (t.callNamed name arguments).Makes t calls) :
      m.Replaces h (t.after calls) m' ∧ (t.callNamed name arguments).written = t.writes calls := by
    rw [hmakes.type] at htypes
    exact ⟨Memory.replaces_of_types ht htypes hinstances, hmakes.written⟩
  rcases exists_isFirst t.operations name with hnone | ⟨index, o, hfirst⟩
  · -- Nothing is found, which goes the way with an instance.
    have hother (o : Operation) (ho : t.operation? name = some o) : o.needsInstance = true := by
      rw [LoadedType.operation?_eq_none hnone] at ho
      contradiction
    obtain ⟨hresult, calls, hmakes, hrequests⟩ :=
      LoadedType.callFresh_of_unknown hnone arguments
    rw [LoadedType.callNamed_of_fresh hother] at hcall hdone
    obtain ⟨hreplaces, hwritten⟩ := hdone hmakes
    refine ⟨_, calls, hcall, hreplaces, hwritten, fun _ => ⟨hresult, hrequests⟩,
      fun index o hfirst => ?_⟩
    exact absurd hfirst.named (hnone o (List.mem_of_getElem? hfirst.stands))
  -- The operation that was looked up is the first one of the name, and there is no other first one.
  have ho := LoadedType.operation?_of_isFirst hfirst
  have hnamed : ¬∀ o ∈ t.operations, o.name ≠ name :=
    fun hnone => hnone o (List.mem_of_getElem? hfirst.stands) hfirst.named
  have hunique {index' : Nat} {o' : Operation} (hfirst' : IsFirst t.operations name index' o') :
      index' = index ∧ o' = o := by
    have hfound := (LoadedType.indexed?_of_isFirst hfirst').symm.trans
      (LoadedType.indexed?_of_isFirst hfirst)
    exact Prod.mk.inj (Option.some.inj hfound)
  cases hneeds : o.needsInstance with
  | false =>
    -- The operation is run on the type, and no instance is made.
    have hfree : o.needsInstance ≠ true := Bool.eq_false_iff.1 hneeds
    obtain ⟨calls, hmakes, hnoinstance, hruns⟩ :=
      LoadedType.runs_call none hfirst (fun htakes => absurd htakes hfree) arguments
    rw [LoadedType.callNamed_of_static ho hneeds] at hcall hdone
    obtain ⟨hreplaces, hwritten⟩ := hdone hmakes
    refine ⟨_, calls, hcall, hreplaces, hwritten, fun hnone => absurd hnone hnamed,
      fun index' o' hfirst' => ?_⟩
    obtain ⟨rfl, rfl⟩ := hunique hfirst'
    exact ⟨fun _ => ⟨hruns, hnoinstance⟩, fun _ htakes => absurd htakes hfree,
      fun htakes => absurd htakes hfree⟩
  | true =>
    have hother (o' : Operation) (ho' : t.operation? name = some o') : o'.needsInstance = true := by
      rw [ho] at ho'
      rw [← Option.some.inj ho', hneeds]
    have htakes : o.needsInstance ≠ false := by
      rw [hneeds]
      exact Bool.false_ne_true.symm
    rw [LoadedType.callNamed_of_fresh hother] at hcall hdone
    cases hmade : t.construct with
    | none =>
      -- The type refuses to make an instance, so the operation is not run.
      have hrefused := LoadedType.callFresh_of_refused hmade name arguments
      rw [hrefused] at hcall hdone
      have hmakes : LoadedType.CallResult.Makes ⟨.error (.notInstantiable t.name),
          t.after [.construct none], t.writes [.construct none]⟩ t [.construct none] := ⟨rfl, rfl⟩
      obtain ⟨hreplaces, hwritten⟩ := hdone hmakes
      refine ⟨_, _, hcall, hreplaces, hwritten, fun hnone => absurd hnone hnamed,
        fun index' o' hfirst' => ?_⟩
      obtain ⟨rfl, rfl⟩ := hunique hfirst'
      exact ⟨fun hfree => absurd hfree htakes, fun _ _ hsome => absurd hsome (by simp),
        fun _ _ => ⟨rfl, rfl⟩⟩
    | some address =>
      -- The operation is run on the instance that was made for it.
      obtain ⟨calls, hmakes, hruns⟩ := LoadedType.runs_callFresh hfirst hmade arguments
      obtain ⟨hreplaces, hwritten⟩ := hdone hmakes
      refine ⟨_, calls, hcall, hreplaces, hwritten, fun hnone => absurd hnone hnamed,
        fun index' o' hfirst' => ?_⟩
      obtain ⟨rfl, rfl⟩ := hunique hfirst'
      refine ⟨fun hfree => absurd hfree htakes, fun address' _ hsame => ?_,
        fun _ hnone => absurd hnone (by simp)⟩
      obtain rfl := Option.some.inj hsame
      exact hruns

/-- A library with an operation for each of the two ways, which makes instances or not. -/
def gaugeLibrary (makes : Bool) : Library :=
  Script.library ⟨none, some (Text.Utf8.encode (Manifest.text
    ⟨Manifest.currentAbi, "A", [⟨"read", .none, [], none⟩, ⟨"set", .ref, [], none⟩]⟩)), makes,
    [⟨0, .bytes [111, 107]⟩, ⟨0, .echo⟩]⟩

/-- The type that such a library is loaded as. -/
def gauge (makes : Bool) : LoadedType where
  bytes := []
  library := gaugeLibrary makes
  manifest := ⟨Manifest.currentAbi, "A", [⟨"read", .none, [], none⟩, ⟨"set", .ref, [], none⟩]⟩
  image := .memory
  trace := []

/-- One of each is loaded. -/
def gauges : Memory := ⟨[gauge true, gauge false], []⟩

/-- Where no instance is made, the operation without a receiver answers; where one is made, the
other operation does too, and a name of none is reported. -/
theorem callOperation_by_name_gauges :
    (callOperation gauges ⟨1⟩ "read" []).map Done.result = some (.ok "ok") ∧
      (callOperation gauges ⟨1⟩ "set" []).map Done.result = some (.error (.notInstantiable "A")) ∧
      (callOperation gauges ⟨0⟩ "set" ["7"]).map Done.result =
        some (.ok "inst=1 args=010000000000000037") ∧
      (callOperation gauges ⟨0⟩ "nope" []).map Done.result =
        some (.error (.unknownOperation "A" "nope")) := by
  have hmakes : gauges.type? ⟨0⟩ = some (gauge true) := rfl
  have hsealed : gauges.type? ⟨1⟩ = some (gauge false) := rfl
  have hread (makes : Bool) :
      IsFirst (gauge makes).operations "read" 0 ⟨"read", .none, [], none⟩ :=
    isFirst_cons_iff.2 (.inl ⟨rfl, rfl, rfl⟩)
  have hset (makes : Bool) : IsFirst (gauge makes).operations "set" 1 ⟨"set", .ref, [], none⟩ :=
    isFirst_cons_iff.2 (.inr ⟨0, rfl, by decide, isFirst_cons_iff.2 (.inl ⟨rfl, rfl, rfl⟩)⟩)
  refine ⟨?_, ?_, ?_, ?_⟩
  · obtain ⟨done, calls, hcall, -, -, -, hfirst⟩ := callOperation_by_name hsealed "read" []
    have hresult := ((hfirst 0 _ (hread false)).1 rfl).1.result
    rw [hcall, Option.map_some, hresult]
    rfl
  · obtain ⟨done, calls, hcall, -, -, -, hfirst⟩ := callOperation_by_name hsealed "set" []
    have hresult := ((hfirst 1 _ (hset false)).2.2 rfl rfl).1
    rw [hcall, Option.map_some, hresult]
    rfl
  · obtain ⟨done, calls, hcall, -, -, -, hfirst⟩ := callOperation_by_name hmakes "set" ["7"]
    have hresult := ((hfirst 1 _ (hset true)).2.1 _ rfl rfl).result
    rw [hcall, Option.map_some, hresult]
    rfl
  · obtain ⟨done, calls, hcall, -, -, hnone, -⟩ := callOperation_by_name hmakes "nope" []
    have hresult := (hnone (by decide)).1
    rw [hcall, Option.map_some, hresult]
    rfl

/-- The library that makes no instance is in an archive. -/
def gaugeWorld : World where
  files := ⟨[(["a.hla"], .file (Archive.encodeFile [⟨"A", [1, 2]⟩]))]⟩
  environment := ⟨[]⟩
  images bytes := if bytes = [1, 2] then some (gaugeLibrary false) else none
  causes _ _ _ := ""
  draws := .counting
  memory := .empty
  calls := []

/-- Where no instance is made, a name that no operation has is not what is reported. -/
theorem callOperation_nope :
    gauges.type? ⟨1⟩ = some (gauge false) ∧ (∀ o ∈ (gauge false).operations, o.name ≠ "nope") ∧
      (callOperation gauges ⟨1⟩ "nope" []).map Done.result = some (.error (.notInstantiable "A")) ∧
      (executeLine ⟨"0", "0"⟩ gaugeWorld ["invoke", "--archive", "a.hla", "A", "nope"]).screen =
        ⟨[], [.own "", .own "Error: `A` cannot be instantiated\n"]⟩ :=
  ⟨rfl, by decide, rfl, by decide +kernel⟩

end CommandLine

end UnitLoader
