import Mathlib.Data.List.Forall2
import UnitLoader.Dispatch.Basic

/-!
# What is planned for a method

A plan is made in one pass over the parameters of a method: `PlansParams` has a rule for each kind
of parameter, and what holds of all plans is proved by induction on it. `PlanOf` says what the plan
of a method holds: the name and the return type are those of the method, and for each parameter
other than the instance, in their order, there is one of the operation and one passing, both made
from the parameter's type (`PlannedFor`). What the operation says and what the arm does are told
from there. -/

namespace UnitLoader.Dispatch

open Syntax

/-- The parameters other than the instance, in order. -/
def typedParams (inputs : List FnParam) : List (Pattern × TypeTree) :=
  inputs.filterMap fun
    | .receiver _ => none
    | .typed pattern type => some (pattern, type)

/-- This is planned for a parameter at a position. -/
structure PlannedFor (input : (Pattern × TypeTree) × Nat) (b : Param × Passing) : Prop where
  named : b.1.name = paramName input.1.1 input.2
  shown : b.1.type = typeText input.1.2
  passed : passing? input.1.2 = some b.2

/-- How the parameters of a method are planned, of which the first stands at a position. -/
inductive PlansParams : Nat → List FnParam → Receiver → List Param → List Passing → Prop
  | nil (position : Nat) : PlansParams position [] .none [] []
  | receiver {position : Nat} {self : SelfParam} {rest : List FnParam} {receiver other : Receiver}
    {params : List Param} {passings : List Passing} : receiver? self = some receiver →
    PlansParams position rest other params passings →
    PlansParams position (.receiver self :: rest) receiver params passings
  | typed {position : Nat} {pattern : Pattern} {type : TypeTree} {rest : List FnParam}
    {receiver : Receiver} {params : List Param} {passing : Passing} {passings : List Passing} :
    passing? type = some passing → PlansParams (position + 1) rest receiver params passings →
    PlansParams position (.typed pattern type :: rest) receiver
      (⟨paramName pattern position, typeText type⟩ :: params) (passing :: passings)

section

variable {position : Nat} {inputs : List FnParam} {receiver : Receiver} {params : List Param}
  {passings : List Passing}

theorem planParams?_eq_some_iff : planParams? position inputs = some (receiver, params, passings) ↔
    PlansParams position inputs receiver params passings := by
  constructor
  · intro h
    -- The inputs are planned one by one, and the position counts those that are not the receiver.
    induction inputs generalizing position receiver params passings with
    | nil =>
      cases h
      exact .nil position
    | cons input rest ih =>
      cases input with
      | receiver self =>
        -- The receiver takes no position.
        rw [planParams?] at h
        split at h
        · rename_i hself hrest
          cases h
          exact .receiver hself (ih hrest)
        · contradiction
      | typed pattern type =>
        rw [planParams?] at h
        split at h
        · rename_i hpassing hrest
          cases h
          exact .typed hpassing (ih hrest)
        · contradiction
  · intro h
    induction h with
    | nil position => rfl
    | receiver hself _ ih => rw [planParams?, hself, ih]
    | typed hpassing _ ih => rw [planParams?, hpassing, ih]

/-- There are as many passings as parameters. -/
theorem PlansParams.length_eq (h : PlansParams position inputs receiver params passings) :
    passings.length = params.length := by
  induction h with
  | nil => rfl
  | receiver _ _ ih => exact ih
  | typed _ _ ih => exact congrArg (· + 1) ih

/-- They are made side by side, in the order of the parameters of the method. -/
theorem PlansParams.forall₂ (h : PlansParams position inputs receiver params passings) :
    List.Forall₂ PlannedFor ((typedParams inputs).zipIdx position) (params.zip passings) := by
  induction h with
  | nil => exact .nil
  | receiver _ _ ih => exact ih
  | typed hpassing _ ih => exact .cons ⟨rfl, rfl, hpassing⟩ ih

end

variable {m : Method} {p : Plan}

/-- This is planned for a method. -/
structure PlanOf (m : Method) (p : Plan) : Prop where
  method : p.method = m.signature.name
  name : p.operation.name = m.signature.name.text
  returns : p.operation.returns = m.signature.output.map typeText
  length : p.passings.length = p.operation.params.length
  params : List.Forall₂ PlannedFor (typedParams m.signature.params).zipIdx
    (p.operation.params.zip p.passings)

theorem planOf_of_planMethod? (h : planMethod? m = some p) : PlanOf m p := by
  unfold planMethod? at h
  split at h
  · obtain ⟨⟨receiver, params, passings⟩, hparams, rfl⟩ := Option.map_eq_some_iff.1 h
    have hplanned := planParams?_eq_some_iff.1 hparams
    exact ⟨rfl, rfl, rfl, hplanned.length_eq, hplanned.forall₂⟩
  · contradiction

/-- The parameters of the operation, each with the passing beside it. -/
theorem PlanOf.map_fst (h : PlanOf m p) :
    (p.operation.params.zip p.passings).map Prod.fst = p.operation.params :=
  List.map_fst_zip (Nat.le_of_eq h.length.symm)

theorem PlanOf.map_snd (h : PlanOf m p) :
    (p.operation.params.zip p.passings).map Prod.snd = p.passings :=
  List.map_snd_zip (Nat.le_of_eq h.length)

/-- Each of them is planned for a parameter of the method. -/
theorem PlanOf.exists_input (h : PlanOf m p) {b : Param × Passing}
    (hb : b ∈ p.operation.params.zip p.passings) : ∃ input, PlannedFor input b := by
  obtain ⟨i, hi, rfl⟩ := List.mem_iff_getElem.1 hb
  exact ⟨_, h.params.get (h.params.length_eq ▸ hi) hi⟩

/-- The first method of a type that is declared at the top of its source. -/
def firstMethod? (u : SourceUnit) : Option Method :=
  (parseFile? u.source.toList).bind fun items => (items.flatMap (methodsOf u.name.toList)).head?

/-- What is seen of the first method and its plan, if it has one. -/
theorem exists_firstMethod {β : Type} {u : SourceUnit} {seen : Method → Plan → β} {b : β}
    (h : ((firstMethod? u).bind fun m => (planMethod? m).map (seen m)) = some b) :
    ∃ m p, firstMethod? u = some m ∧ planMethod? m = some p ∧ seen m p = b := by
  obtain ⟨m, hm, hplan⟩ := Option.bind_eq_some_iff.1 h
  obtain ⟨p, hp, hseen⟩ := Option.map_eq_some_iff.1 hplan
  exact ⟨m, p, hm, hp, hseen⟩

end UnitLoader.Dispatch
