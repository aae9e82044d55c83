import UnitLoader.Proofs.Dispatch.Operations
import UnitLoader.Proofs.Dispatch.Plan
import UnitLoader.Proofs.Dispatch.TypeText

/-!
# Borrows that last for a call

An arm passes a text from the list that it was called with, or a value that it read into a variable
of its own, and it lends them to a parameter that takes a reference. Both are gone after the call.
So the reference must have a lifetime that can be as short as the call: one that is left out, the
anonymous one, or one that the method introduces (`isChosen`). `Fits` says when an argument can
stand for a parameter of a type.

A plan is right about everything else: whatever it accepts is a name or a reference to one, and it
passes the argument by value, as text, or by reference as the type asks (`PassedAs`). But lifetimes
it does not look at. With other lifetimes, a method has a plan in which nothing changes but the
texts of the types (`planMethod?_relabel`), and a reference that has to last forever is one of them
(`generate_staticLifetime`).
-/

namespace UnitLoader.Dispatch

open Syntax

variable {m : Method} {p : Plan} {f : Option Name → Option Name}

/-! ## Lifetimes -/

/-- The lifetimes that a method introduces. -/
def ownLifetimes (s : Signature) : List Name := s.generics.filterMap GenericParam.lifetime?

/-- A lifetime that each call of the method chooses: it is left out, it is the anonymous one, or the
method introduces it. -/
def isChosen (s : Signature) : Option Name → Bool
  | none => true
  | some lifetime => lifetime.text == "_" || (ownLifetimes s).any (·.text == lifetime.text)

/-- The lifetime of a reference; `none` if it is left out. -/
def lifetimeOf? : TypeTree → Option (Option Name)
  | .reference lifetime _ _ => some lifetime
  | _ => none

/-- The lifetimes of the parameters that take a reference. -/
def referenceLifetimes (s : Signature) : List (Option Name) :=
  (typedParams s.params).filterMap fun input => lifetimeOf? input.2

/-- An argument that is passed in this way can stand for a parameter of the type. A reference that
is passed lasts for the call. -/
inductive Fits (s : Signature) : Passing → TypeTree → Prop
  | value {t : NamedType} : Fits s (.parsed .owned t) (.named t)
  | text {lifetime : Option Name} {t : NamedType} :
    IsString t → isChosen s lifetime = true → Fits s .text (.reference lifetime false (.named t))
  | shared {lifetime : Option Name} {t : NamedType} : isChosen s lifetime = true →
    Fits s (.parsed .shared t) (.reference lifetime false (.named t))
  | exclusive {lifetime : Option Name} {t : NamedType} : isChosen s lifetime = true →
    Fits s (.parsed .exclusive t) (.reference lifetime true (.named t))

/-- An argument that is passed as its parameter's type asks fits, up to the lifetime. -/
theorem PassedAs.fits_iff {s : Signature} {type : TypeTree} {passing : Passing}
    (h : PassedAs type passing) : Fits s passing type ↔
      ∀ lifetime, lifetimeOf? type = some lifetime → isChosen s lifetime = true := by
  constructor
  · intro hfits lifetime hlifetime
    cases hfits with
    | value => contradiction
    | text _ hchosen | shared hchosen | exclusive hchosen =>
      exact Option.some.inj hlifetime ▸ hchosen
  · intro hchosen
    cases h with
    | owned => exact .value
    | text lifetime hstring => exact .text hstring (hchosen lifetime rfl)
    | shared lifetime => exact .shared (hchosen lifetime rfl)
    | exclusive lifetime => exact .exclusive (hchosen lifetime rfl)

/-! ## Arguments of a plan -/

/-- Each passing of a plan is the one that its parameter's type asks for. -/
theorem PlanOf.passedAs (h : PlanOf m p) :
    List.Forall₂ (fun input passing => PassedAs input.2 passing)
      (typedParams m.signature.params) p.passings := by
  have hpassed : List.Forall₂ (fun input b => PassedAs input.1.2 b.2)
      (typedParams m.signature.params).zipIdx (p.operation.params.zip p.passings) :=
    h.params.imp fun _ _ hplanned => passedAs_of_passing? hplanned.passed
  have hinputs : (typedParams m.signature.params).zipIdx.map Prod.fst =
      typedParams m.signature.params := List.zipIdx_map_fst 0 _
  rw [← hinputs, ← h.map_snd, List.forall₂_map_left_iff, List.forall₂_map_right_iff]
  exact hpassed

/-- They fit exactly if every lifetime is chosen. -/
theorem forall₂_fits_iff {s : Signature} {inputs : List (Pattern × TypeTree)}
    {passings : List Passing}
    (h : List.Forall₂ (fun input passing => PassedAs input.2 passing) inputs passings) :
    List.Forall₂ (fun input passing => Fits s passing input.2) inputs passings ↔
      ∀ lifetime ∈ inputs.filterMap (fun input => lifetimeOf? input.2),
        isChosen s lifetime = true := by
  induction h with
  | nil => simp
  | @cons input passing inputs passings hpassed hrest ih =>
    rw [List.forall₂_cons, ih, hpassed.fits_iff]
    cases hlifetime : lifetimeOf? input.2 with
    | none => simp [hlifetime]
    | some lifetime => simp [hlifetime]

/-! ## Other lifetimes -/

/-- A reference with its lifetime replaced; any other type stays. -/
def relabelType (f : Option Name → Option Name) : TypeTree → TypeTree
  | .reference lifetime isMutable element => .reference (f lifetime) isMutable element
  | type => type

/-- A parameter with the lifetime of its type replaced. -/
def relabelParam (f : Option Name → Option Name) : FnParam → FnParam
  | .typed pattern type => .typed pattern (relabelType f type)
  | .receiver self => .receiver self

/-- A method with the lifetimes of its parameters replaced. -/
def relabel (f : Option Name → Option Name) (m : Method) : Method :=
  { m with signature := { m.signature with params := m.signature.params.map (relabelParam f) } }

theorem passing?_relabelType (type : TypeTree) : passing? (relabelType f type) = passing? type := by
  cases type <;> rfl

/-- The lifetimes are replaced, and no parameter becomes a reference or ceases to be one. -/
theorem referenceLifetimes_relabel (m : Method) :
    referenceLifetimes (relabel f m).signature = (referenceLifetimes m.signature).map f := by
  have hparams : ∀ inputs : List FnParam,
      (typedParams (inputs.map (relabelParam f))).filterMap (fun input => lifetimeOf? input.2) =
        ((typedParams inputs).filterMap (fun input => lifetimeOf? input.2)).map f := by
    intro inputs
    induction inputs with
    | nil => rfl
    | cons input rest ih =>
      cases input with
      | receiver self => exact ih
      | typed pattern type =>
        cases type with
        | reference lifetime isMutable element => exact congrArg (f lifetime :: ·) ih
        | named | path | parenthesized | object | other => exact ih
  exact hparams m.signature.params

/-- The parameters are planned as before, but for the texts of their types. -/
theorem PlansParams.relabel {position : Nat} {inputs : List FnParam} {receiver : Receiver}
    {params : List Param} {passings : List Passing}
    (h : PlansParams position inputs receiver params passings) :
    ∃ params', PlansParams position (inputs.map (relabelParam f)) receiver params' passings ∧
      params'.map Param.name = params.map Param.name := by
  induction h with
  | nil position => exact ⟨[], .nil position, rfl⟩
  | receiver hself _ ih =>
    obtain ⟨params', hplanned, hnames⟩ := ih
    exact ⟨params', .receiver hself hplanned, hnames⟩
  | typed hpassing _ ih =>
    obtain ⟨params', hplanned, hnames⟩ := ih
    exact ⟨_, .typed ((passing?_relabelType _).trans hpassing) hplanned,
      congrArg (_ :: ·) hnames⟩

/-- A method has a plan whatever its lifetimes are, and calls are made in the same way. -/
theorem planMethod?_relabel (h : planMethod? m = some p) :
    ∃ p', planMethod? (relabel f m) = some p' ∧ p'.method = p.method ∧ p'.passings = p.passings ∧
      p'.operation.receiver = p.operation.receiver ∧
      p'.operation.params.map Param.name = p.operation.params.map Param.name := by
  unfold planMethod? at h ⊢
  have hhead : (isExported (relabel f m) && isPlain (relabel f m).signature) =
      (isExported m && isPlain m.signature) := rfl
  rw [hhead]
  split at h
  · rename_i haccepted
    obtain ⟨⟨receiver, params, passings⟩, hparams, rfl⟩ := Option.map_eq_some_iff.1 h
    obtain ⟨params', hplanned, hnames⟩ := (planParams?_eq_some_iff.1 hparams).relabel
    have hrelabelled : planParams? 0 (relabel f m).signature.params =
        some (receiver, params', passings) := planParams?_eq_some_iff.2 hplanned
    rw [if_pos haccepted, hrelabelled]
    exact ⟨_, rfl, rfl, rfl, rfl, hnames⟩
  · contradiction

/-- **Which arguments fit.** The arguments of a plan fit the parameters of its method exactly if
each reference that the method takes has a lifetime that is left out, anonymous or introduced by the
method. Nothing holds the method to that: with any other lifetimes for its references it has a plan
as well, by which it is called in the same way. -/
theorem arguments_fit_iff (h : planMethod? m = some p) :
    (List.Forall₂ (fun input passing => Fits m.signature passing input.2)
        (typedParams m.signature.params) p.passings ↔
      ∀ lifetime ∈ referenceLifetimes m.signature, isChosen m.signature lifetime = true) ∧
    ∀ f : Option Name → Option Name,
      referenceLifetimes (relabel f m).signature = (referenceLifetimes m.signature).map f ∧
      ∃ p', planMethod? (relabel f m) = some p' ∧ p'.method = p.method ∧
        p'.passings = p.passings ∧ p'.operation.receiver = p.operation.receiver ∧
        p'.operation.params.map Param.name = p.operation.params.map Param.name :=
  ⟨forall₂_fits_iff (planOf_of_planMethod? h).passedAs,
    fun _ => ⟨referenceLifetimes_relabel m, planMethod?_relabel h⟩⟩

/-- A type with a method that takes references of all admissible lifetimes. -/
def lending : SourceUnit where
  name := "A"
  source := "struct A;impl A\x7bpub fn f<'a>(&mut self,a:&'a mut u8,b:&str,c:u16,d:&'_ i8)" ++
    "\x7b\x7d\x7d"

/-- Its arguments fit. -/
theorem arguments_fit_iff_lending : ∃ m p,
    firstMethod? lending = some m ∧ planMethod? m = some p ∧
      (referenceLifetimes m.signature).map (Option.map Name.text) = [some "a", none, some "_"] ∧
      List.Forall₂ (fun input passing => Fits m.signature passing input.2)
        (typedParams m.signature.params) p.passings := by
  have hseen : ((firstMethod? lending).bind fun m => (planMethod? m).map fun _ =>
      ((referenceLifetimes m.signature).map (Option.map Name.text),
        (referenceLifetimes m.signature).all (isChosen m.signature))) =
        some ([some "a", none, some "_"], true) := by
    decide +kernel
  obtain ⟨m, p, hm, hplan, hseen⟩ := exists_firstMethod hseen
  obtain ⟨hlifetimes, hchosen⟩ := Prod.mk.inj hseen
  exact ⟨m, p, hm, hplan, hlifetimes, (arguments_fit_iff hplan).1.2 (List.all_eq_true.1 hchosen)⟩

/-- A type with a method that takes a reference which has to last forever. -/
def staticLifetime : SourceUnit where
  name := "A"
  source := "pub struct A; impl A \x7b pub fn set(&mut self, s: &'static str) \x7b\x7d \x7d"

/-- The method is listed as an operation, and its argument does not fit. -/
theorem generate_staticLifetime : ∃ m p d, firstMethod? staticLifetime = some m ∧
    planMethod? m = some p ∧
    (∃ lifetime, some lifetime ∈ referenceLifetimes m.signature ∧ lifetime.text = "static" ∧
      isChosen m.signature (some lifetime) = false) ∧
    ¬ List.Forall₂ (fun input passing => Fits m.signature passing input.2)
      (typedParams m.signature.params) p.passings ∧
    generate staticLifetime = .ok d ∧
    d.manifest.operations = [⟨"set", .refMut, [⟨"s", "&'static str"⟩], none⟩] := by
  have hseen : ((firstMethod? staticLifetime).bind fun m => (planMethod? m).map fun _ =>
      ((referenceLifetimes m.signature).map (Option.map Name.text),
        (referenceLifetimes m.signature).any (isChosen m.signature))) =
        some ([some "static"], false) := by
    decide +kernel
  have hlisted : (generate staticLifetime).toOption.map (fun d => d.manifest.operations) =
      some [⟨"set", .refMut, [⟨"s", "&'static str"⟩], none⟩] := by
    decide +kernel
  obtain ⟨m, p, hm, hplan, hseen⟩ := exists_firstMethod hseen
  obtain ⟨hlifetimes, hchosen⟩ := Prod.mk.inj hseen
  obtain ⟨d, hd, hoperations⟩ := exists_generate hlisted
  -- The only lifetime is this one.
  obtain ⟨found, hreferences, hfound⟩ := List.map_eq_singleton_iff.1 hlifetimes
  obtain ⟨lifetime, rfl, htext⟩ := Option.map_eq_some_iff.1 hfound
  have hnot : isChosen m.signature (some lifetime) = false := by
    simpa [hreferences] using hchosen
  have hmem : some lifetime ∈ referenceLifetimes m.signature := by
    rw [hreferences]
    exact List.mem_cons_self
  refine ⟨m, p, d, hm, hplan, ⟨lifetime, hmem, htext, hnot⟩, fun hfits => ?_, hd, hoperations⟩
  have hall := (forall₂_fits_iff (planOf_of_planMethod? hplan).passedAs).1 hfits
  exact Bool.false_ne_true (hnot.symm.trans (hall _ hmem))

end UnitLoader.Dispatch
