import UnitLoader.Proofs.Memory

/-!
# Nothing is leaked, and nothing is freed twice

A trace keeps what a library was asked to make and what it was given back. `Trace.Balanced` says
that the two sides fit together. A library chooses the addresses of its instances and output
buffers, and may give one address several times: to instances that take no room, to empty buffers,
and to what it makes where something else was given back. So the instances that were made are those
that were dropped and those that live, each address as often on the one side as on the other; and
the output buffers are given back in the order in which they are handed out.

That is `Trace.Accounts`, which making an instance, dropping one and calling an operation keep.
`Memory.Accounts` says it of all types that are loaded, and is kept by every operation on memory.
What one step can do is `Memory.Step`; it keeps accounts, and drops what it is said to drop and
nothing else (`Memory.Drops`).
-/

namespace UnitLoader

open scoped List

/-! ## One library -/

namespace Trace

/-- What a trace accounts for, when the instances of the given addresses live. -/
structure Accounts (t : Trace) (live : List Nat) : Prop where
  /-- Each instance that was made was dropped or lives, and no other was dropped or lives. -/
  instances : (t.dropped ++ live).Perm t.made
  /-- Each output buffer that was handed out was given back, with the address and the length that it
  was handed out with, and nothing else was given back. -/
  buffers : t.freed = t.handedOut

/-- What was handed out and what was given back of a library fit together, when the instances of the
given addresses live. -/
structure Balanced (t : Trace) (live : List Nat) : Prop extends t.Accounts live where
  /-- As many instances live as were made and not dropped. -/
  count : t.made.length - t.dropped.length = live.length ∧ t.dropped.length ≤ t.made.length
  /-- No instance is dropped more often than one was made at its address. -/
  once : ∀ address, t.dropped.count address + live.count address = t.made.count address
  /-- So if no address was given twice, none is dropped twice, and none that lives was dropped. -/
  distinct : t.made.Nodup → (t.dropped ++ live).Nodup

/-- A trace that accounts for everything is balanced. -/
theorem Accounts.balanced {t : Trace} {live : List Nat} (h : t.Accounts live) :
    t.Balanced live where
  toAccounts := h
  count := by
    have hlength : t.dropped.length + live.length = t.made.length := by
      rw [← List.length_append]
      exact h.instances.length_eq
    omega
  once address := by rw [← List.count_append, h.instances.count_eq]
  distinct hmade := h.instances.nodup_iff.2 hmade

/-- Where nothing happened there is nothing to account for. -/
theorem accounts_nil : Accounts [] [] := ⟨.nil, rfl⟩

end Trace

namespace LoadedType

variable {t : LoadedType} {live : List Nat} {address : Nat}

/-- An instance that is made lives. -/
theorem accounts_construct (h : t.trace.Accounts live) (address : Nat) :
    (t.after [.construct (some address)]).trace.Accounts (live ++ [address]) := by
  refine ⟨?_, h.buffers⟩
  calc t.trace.dropped ++ (live ++ [address])
      = (t.trace.dropped ++ live) ++ [address] := (List.append_assoc ..).symm
    _ ~ t.trace.made ++ [address] := h.instances.append_right _
    _ ~ address :: t.trace.made := List.perm_append_singleton _ _

/-- If none is made, the same instances live. -/
theorem accounts_refused (h : t.trace.Accounts live) :
    (t.after [.construct none]).trace.Accounts live := ⟨h.instances, h.buffers⟩

/-- An instance that is dropped lives no more. -/
theorem accounts_drop {rest : List Nat} (h : t.trace.Accounts live)
    (hlive : live.Perm (address :: rest)) : (t.after [.drop address]).trace.Accounts rest := by
  refine ⟨?_, h.buffers⟩
  calc address :: t.trace.dropped ++ rest
      ~ t.trace.dropped ++ address :: rest := List.perm_middle.symm
    _ ~ t.trace.dropped ++ live := hlive.symm.append_left _
    _ ~ t.trace.made := h.instances

/-- A request makes no instance and drops none. What it hands out is given back at once. -/
theorem after_callsFor (t : LoadedType) (request : Request) :
    (t.after (t.callsFor request)).trace.made = t.trace.made ∧
      (t.after (t.callsFor request)).trace.dropped = t.trace.dropped ∧
      ∃ buffer, (t.after (t.callsFor request)).trace.freed = buffer ++ t.trace.freed ∧
        (t.after (t.callsFor request)).trace.handedOut = buffer ++ t.trace.handedOut := by
  unfold callsFor
  obtain ⟨code, output⟩ := t.replyTo request
  cases output with
  | none => exact ⟨rfl, rfl, [], rfl, rfl⟩
  | some o => exact ⟨rfl, rfl, [o.buffer], rfl, rfl⟩

/-- A call makes no instance and drops none, however it ends. -/
theorem accounts_call (h : t.trace.Accounts live) (on : Option Nat) (operation : String)
    (arguments : List String) : (t.call on operation arguments).type.trace.Accounts live := by
  rcases t.type_call on operation arguments with hcall | ⟨request, hcall⟩
  · rwa [hcall]
  · obtain ⟨hmade, hdropped, buffer, hfreed, hhandedOut⟩ := t.after_callsFor request
    rw [hcall]
    refine ⟨?_, ?_⟩
    · rw [hmade, hdropped]
      exact h.instances
    · rw [hfreed, hhandedOut, h.buffers]

/-- What was dropped is what was dropped before. -/
theorem dropped_call (t : LoadedType) (on : Option Nat) (operation : String)
    (arguments : List String) :
    (t.call on operation arguments).type.trace.dropped = t.trace.dropped := by
  rcases t.type_call on operation arguments with hcall | ⟨request, hcall⟩
  · rw [hcall]
  · rw [hcall]
    exact (t.after_callsFor request).2.1

end LoadedType

/-! ## All libraries -/

namespace Memory

variable {m m' : Memory} {h : Handle} {t : LoadedType} {i : Instance} {number : Nat}
  {operation : String} {arguments : List String}

/-- The address of an instance, if it is one of a type. -/
def addressOf (h : Handle) : Option Instance → Option Nat
  | some i => if i.handle = h then some i.address else none
  | none => none

/-- The addresses of the live instances of a type. -/
def live (m : Memory) (h : Handle) : List Nat := m.instances.filterMap (addressOf h)

/-- Every library is accounted for. -/
structure Accounts (m : Memory) : Prop where
  /-- The trace of each type fits its live instances. -/
  traces : ∀ h t, m.type? h = some t → t.trace.Accounts (m.live h)
  /-- Every live instance is one of a type. -/
  homes : ∀ i, some i ∈ m.instances → ∃ t, m.type? i.handle = some t

/-- Every library is balanced with its live instances. -/
def Balanced (m : Memory) : Prop := ∀ h t, m.type? h = some t → t.trace.Balanced (m.live h)

/-- It is if it is accounted for. -/
theorem Accounts.balanced (hm : m.Accounts) : m.Balanced :=
  fun h t ht => (hm.traces h t ht).balanced

/-- In empty memory there is nothing to account for. -/
theorem accounts_empty : empty.Accounts where
  traces h t ht := absurd ht (by simp [type?, empty])
  homes i hi := absurd hi List.not_mem_nil

/-- An instance of a number stands at its place, and something else may be put there. -/
theorem split_of_instance? (hi : m.instance? number = some i) :
    ∃ front behind, m.instances = front ++ some i :: behind ∧
      ∀ x, m.instances.set number x = front ++ x :: behind := by
  obtain ⟨hnumber, hget⟩ := List.getElem?_eq_some_iff.1 (Option.join_eq_some_iff.1 hi)
  refine ⟨m.instances.take number, m.instances.drop (number + 1), ?_, fun x => ?_⟩
  · rw [← hget, List.getElem_cons_drop, List.take_append_drop]
  · rw [List.set_eq_take_append_cons_drop, if_pos hnumber]

/-- A handle that stands for no type has no live instances. -/
theorem Accounts.live_of_type?_eq_none (hm : m.Accounts) (hnone : m.type? h = none) :
    m.live h = [] := by
  refine List.filterMap_eq_nil_iff.2 fun x hx => ?_
  cases x with
  | none => rfl
  | some i =>
    refine if_neg fun hsame => ?_
    obtain ⟨t, ht⟩ := hm.homes i hx
    rw [hsame, hnone] at ht
    contradiction

/-- A type that is loaded anew has no instances yet. -/
theorem Accounts.add (hm : m.Accounts) (htrace : t.trace = []) : (m.add t).2.Accounts where
  traces other t' ht' := by
    change t'.trace.Accounts (m.live other)
    by_cases hsame : other = (m.add t).1
    · rw [hsame, m.type?_add] at ht'
      obtain rfl := Option.some.inj ht'
      rw [hsame, hm.live_of_type?_eq_none (m.type?_add_fst t), htrace]
      exact Trace.accounts_nil
    · rw [type?_add_of_ne hsame] at ht'
      exact hm.traces other t' ht'
  homes i hi := by
    obtain ⟨t', ht'⟩ := hm.homes i hi
    obtain ⟨t'', ht'', -⟩ := m.grows_add t i.handle t' ht'
    exact ⟨t'', ht''⟩

/-- A type may be replaced, together with the instances, if it fits its live instances afterwards
and those of other types are the same. -/
theorem Accounts.replace (hm : m.Accounts) (ht : m.type? h = some t) {after : LoadedType}
    {instances : List (Option Instance)}
    (hafter : after.trace.Accounts (instances.filterMap (addressOf h)))
    (hothers : ∀ other, other ≠ h → instances.filterMap (addressOf other) = m.live other)
    (hhomes : ∀ i, some i ∈ instances → i.handle = h ∨ some i ∈ m.instances) :
    { m.setType h after with instances := instances }.Accounts where
  traces other t' ht' := by
    change (m.setType h after).type? other = some t' at ht'
    rw [type?_setType ht] at ht'
    by_cases hsame : other = h
    · rw [if_pos hsame] at ht'
      obtain rfl := Option.some.inj ht'
      rw [hsame]
      exact hafter
    · rw [if_neg hsame] at ht'
      have htrace := hm.traces other t' ht'
      rwa [← hothers other hsame] at htrace
  homes i hi := by
    change ∃ t', (m.setType h after).type? i.handle = some t'
    rw [type?_setType ht]
    -- The instances that are put in are of the type that is replaced; the others were there.
    by_cases hsame : i.handle = h
    · exact ⟨after, if_pos hsame⟩
    · obtain ⟨t', ht'⟩ := hm.homes i ((hhomes i hi).resolve_left hsame)
      exact ⟨t', (if_neg hsame).trans ht'⟩

/-- The address of an instance of another type is passed over. -/
theorem addressOf_of_ne {other : Handle} (hne : other ≠ i.handle) :
    addressOf other (some i) = none := if_neg (Ne.symm hne)

/-- Asking for an instance keeps accounts. -/
theorem Accounts.instantiate (hm : m.Accounts) {done : Done (Except Error Nat)}
    (hasked : m.instantiate h = some done) : done.memory.Accounts := by
  obtain ⟨t, ht, ⟨-, -, hmemory⟩ | ⟨address, -, -, hmemory⟩⟩ := instantiate_eq_some hasked
  · rw [hmemory]
    exact hm.replace ht (LoadedType.accounts_refused (hm.traces h t ht)) (fun _ _ => rfl)
      fun _ hi => .inr hi
  rw [hmemory]
  refine hm.replace ht ?_ (fun other hne => ?_) fun i hi => ?_
  · have hnew : addressOf h (some ⟨h, address⟩) = some address := if_pos rfl
    rw [List.filterMap_append, List.filterMap_cons_some hnew, List.filterMap_nil]
    exact LoadedType.accounts_construct (hm.traces h t ht) address
  · rw [List.filterMap_append, List.filterMap_cons_none (addressOf_of_ne hne),
      List.filterMap_nil, List.append_nil]
    rfl
  · rcases List.mem_append.1 hi with hold | hnew
    · exact .inr hold
    · obtain rfl := Option.some.inj (List.mem_singleton.1 hnew)
      exact .inl rfl

/-- So does a call without an instance. -/
theorem Accounts.callStatic (hm : m.Accounts) {done : Done (Except Error String)}
    (hcall : m.callStatic h operation arguments = some done) : done.memory.Accounts := by
  obtain ⟨t, ht, -, hmemory⟩ := callStatic_eq_some hcall
  rw [hmemory]
  exact hm.replace ht (LoadedType.accounts_call (hm.traces h t ht) none operation arguments)
    (fun _ _ => rfl) fun _ hi => .inr hi

/-- So does a call on an instance. -/
theorem Accounts.call (hm : m.Accounts) {done : Done (Except Error String)}
    (hcall : m.call number operation arguments = some done) : done.memory.Accounts := by
  obtain ⟨i, t, -, ht, -, hmemory⟩ := call_eq_some hcall
  rw [hmemory]
  exact hm.replace ht (LoadedType.accounts_call (hm.traces i.handle t ht) _ operation arguments)
    (fun _ _ => rfl) fun _ hi => .inr hi

/-- And so does dropping an instance, which is no longer among those that live. -/
theorem Accounts.drop (hm : m.Accounts) {done : Done Unit} (hdrop : m.drop number = some done) :
    done.memory.Accounts := by
  obtain ⟨i, t, hi, ht, hmemory⟩ := drop_eq_some hdrop
  rw [hmemory]
  obtain ⟨front, behind, hinstances, hset⟩ := split_of_instance? hi
  -- The place that is left empty counts for no type.
  have hempty (other : Handle) : (m.instances.set number none).filterMap (addressOf other) =
      (front ++ behind).filterMap (addressOf other) := by
    rw [hset, List.filterMap_append, List.filterMap_cons_none rfl, ← List.filterMap_append]
  refine hm.replace ht ?_ (fun other hne => ?_) fun j hj => ?_
  · rw [hempty, List.filterMap_append]
    refine LoadedType.accounts_drop (hm.traces i.handle t ht) ?_
    have hself : addressOf i.handle (some i) = some i.address := if_pos rfl
    rw [live, hinstances, List.filterMap_append, List.filterMap_cons_some hself]
    exact List.perm_middle
  · rw [hempty, live, hinstances, List.filterMap_append, List.filterMap_append,
      List.filterMap_cons_none (addressOf_of_ne hne)]
  · rcases List.mem_or_eq_of_mem_set hj with hold | hnew
    · exact .inr hold
    · contradiction

/-- An instance that cannot be dropped is none. -/
theorem Accounts.instance?_of_drop (hm : m.Accounts) (hdrop : m.drop number = none) :
    m.instance? number = none := by
  cases hi : m.instance? number with
  | none => rfl
  | some i =>
    obtain ⟨t, ht⟩ := hm.homes i (List.mem_of_getElem? (Option.join_eq_some_iff.1 hi))
    unfold Memory.drop at hdrop
    rw [hi] at hdrop
    dsimp only at hdrop
    rw [ht] at hdrop
    contradiction

/-! ## What is dropped -/

/-- Of each type the given instance is dropped, if there is one, and no other. -/
def Drops (m : Memory) (gone : Handle → Option Nat) (m' : Memory) : Prop :=
  ∀ h t, m.type? h = some t → ∃ t', m'.type? h = some t' ∧
    t'.trace.dropped = (gone h).toList ++ t.trace.dropped

/-- Where memory is as it was, nothing is dropped. -/
theorem drops_refl (m : Memory) : m.Drops (fun _ => none) m := fun _ t ht => ⟨t, ht, rfl⟩

/-- Nothing is dropped for a new type. -/
theorem drops_add (m : Memory) (t : LoadedType) : m.Drops (fun _ => none) (m.add t).2 := by
  intro other t' ht'
  refine ⟨t', ?_, rfl⟩
  have hne : other ≠ (m.add t).1 := by
    rintro rfl
    rw [m.type?_add_fst] at ht'
    contradiction
  rwa [type?_add_of_ne hne]

/-- A type may be replaced by one whose trace says what is dropped. -/
theorem drops_setType (ht : m.type? h = some t) {after : LoadedType} {gone : Handle → Option Nat}
    (hafter : after.trace.dropped = (gone h).toList ++ t.trace.dropped)
    (hothers : ∀ other, other ≠ h → gone other = none) : m.Drops gone (m.setType h after) := by
  intro other t' ht'
  rw [type?_setType ht]
  by_cases hsame : other = h
  · rw [hsame, ht] at ht'
    obtain rfl := Option.some.inj ht'
    exact ⟨after, if_pos hsame, hsame ▸ hafter⟩
  · refine ⟨t', (if_neg hsame).trans ht', ?_⟩
    rw [hothers other hsame]
    rfl

theorem drops_instantiate {done : Done (Except Error Nat)}
    (hasked : m.instantiate h = some done) : m.Drops (fun _ => none) done.memory := by
  obtain ⟨t, ht, ⟨-, -, hmemory⟩ | ⟨address, -, -, hmemory⟩⟩ := instantiate_eq_some hasked
  all_goals
    rw [hmemory]
    exact drops_setType ht rfl fun _ _ => rfl

theorem drops_callStatic {done : Done (Except Error String)}
    (hcall : m.callStatic h operation arguments = some done) :
    m.Drops (fun _ => none) done.memory := by
  obtain ⟨t, ht, -, hmemory⟩ := callStatic_eq_some hcall
  rw [hmemory]
  exact drops_setType ht (t.dropped_call none operation arguments) fun _ _ => rfl

theorem drops_call {done : Done (Except Error String)}
    (hcall : m.call number operation arguments = some done) :
    m.Drops (fun _ => none) done.memory := by
  obtain ⟨i, t, -, ht, -, hmemory⟩ := call_eq_some hcall
  rw [hmemory]
  exact drops_setType ht (t.dropped_call _ operation arguments) fun _ _ => rfl

/-- Dropping an instance drops it, by its address. -/
theorem drops_drop {done : Done Unit} (hdrop : m.drop number = some done) :
    m.Drops (fun h => addressOf h (m.instance? number)) done.memory := by
  obtain ⟨i, t, hi, ht, hmemory⟩ := drop_eq_some hdrop
  rw [hi, hmemory]
  have hself : addressOf i.handle (some i) = some i.address := if_pos rfl
  refine drops_setType ht ?_ fun other hne => addressOf_of_ne hne
  rw [hself]
  rfl

/-! ## One step -/

/-- What one step can do to memory, when of each type the given instance is dropped. -/
inductive Step (m : Memory) : (Handle → Option Nat) → Memory → Prop where
  /-- Nothing is done. -/
  | keep : Step m (fun _ => none) m
  /-- A type is loaded that was not called yet. -/
  | load {t : LoadedType} (htrace : t.trace = []) : Step m (fun _ => none) (m.add t).2
  /-- An instance is asked for, and is made or not. -/
  | instantiate {h : Handle} {done : Done (Except Error Nat)}
      (hasked : m.instantiate h = some done) : Step m (fun _ => none) done.memory
  /-- An operation is called without an instance. -/
  | callStatic {h : Handle} {operation : String} {arguments : List String}
      {done : Done (Except Error String)}
      (hcall : m.callStatic h operation arguments = some done) : Step m (fun _ => none) done.memory
  /-- An operation is called on an instance. -/
  | call {number : Nat} {operation : String} {arguments : List String}
      {done : Done (Except Error String)}
      (hcall : m.call number operation arguments = some done) : Step m (fun _ => none) done.memory
  /-- An instance is dropped. -/
  | drop {number : Nat} {done : Done Unit} (hdrop : m.drop number = some done) :
      Step m (fun h => addressOf h (m.instance? number)) done.memory

variable {gone : Handle → Option Nat}

/-- Every step keeps accounts. -/
theorem Accounts.step (hm : m.Accounts) (h : m.Step gone m') : m'.Accounts := by
  cases h with
  | keep => exact hm
  | load htrace => exact hm.add htrace
  | instantiate hasked => exact hm.instantiate hasked
  | callStatic hcall => exact hm.callStatic hcall
  | call hcall => exact hm.call hcall
  | drop hdrop => exact hm.drop hdrop

/-- And nothing is dropped but what is said to be. -/
theorem Step.drops (h : m.Step gone m') : m.Drops gone m' := by
  cases h with
  | keep => exact m.drops_refl
  | load htrace => exact m.drops_add _
  | instantiate hasked => exact drops_instantiate hasked
  | callStatic hcall => exact drops_callStatic hcall
  | call hcall => exact drops_call hcall
  | drop hdrop => exact drops_drop hdrop

end Memory

end UnitLoader
