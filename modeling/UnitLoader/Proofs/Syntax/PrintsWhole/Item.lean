import UnitLoader.Proofs.Syntax.PrintsWhole.Expression
import UnitLoader.Proofs.Syntax.Row
import UnitLoader.Syntax.File

/-!
# Items print whole trees

Items complete the grammar. A grammar around one whose parts print whole trees has parts that do
(`printsWhole_around`), so every grammar that is built up in this way does (`printsWhole_grammar`).
The trees of a text are whole when they are parsed, and the types of all methods that are found then
are whole too (`whole_of_parseFile?`).
-/

namespace UnitLoader.Syntax

open UnitLoader.Syntax.Parser

-- The instance of a parser has one step for each part of it.
set_option synthInstance.maxSize 10000

section

variable {g : Grammar} [hg : g.PrintsWhole]

/-! ## Function heads -/

instance {safe : Bool} : PrintsWhole (qualifiers safe) := by
  unfold qualifiers
  infer_instance

instance : PrintsWhole selfParamName := by
  unfold selfParamName
  infer_instance

/-- A parameter has a whole type, if it has one. -/
def FnParam.IsWhole (p : FnParam) : Prop :=
  ∀ pattern type, p = .typed pattern type → Whole type.trees

/-- A type is whole, so is the parameter of it. -/
theorem gives_typed {pattern : Pattern} : Gives (do
      return some (.typed pattern (← g.type true)) : Parser (Option FnParam))
    fun p? => ∀ p ∈ p?, p.IsWhole :=
  (hg.type true).bind fun type h => gives_pure <| by
    rintro p ⟨⟩ pattern' type' hp
    obtain ⟨-, rfl⟩ := FnParam.typed.inj hp
    exact h

theorem gives_fnParam : Gives (fnParam g) fun p? => ∀ p ∈ p?, p.IsWhole := by
  have hreceiver (self : SelfParam) : Gives (do
        if self.isTyped then discard (g.type true)
        pure (some (.receiver self)) : Parser (Option FnParam)) fun p? => ∀ p ∈ p?, p.IsWhole := by
    have hself : Gives (pure (some (.receiver self)) : Parser (Option FnParam))
        fun p? => ∀ p ∈ p?, p.IsWhole := gives_pure <| by
      rintro p ⟨⟩ pattern type hp
      contradiction
    exact .ite (gives_bind fun _ => hself) hself
  have : PrintsWhole (print [.word ⟨"_", false, by decide⟩, .alone ':']) :=
    prints_print (whole_word good_word (whole_alone rfl (by decide) .nil))
  refine gives_bind fun self? => ?_
  split
  · exact .ite (gives_bind fun isTyped => hreceiver ⟨_, _, isTyped⟩)
      (gives_bind fun isTyped => hreceiver ⟨_, _, isTyped⟩)
  · refine gives_bind fun ts => .ite (gives_bind fun _ => gives_typed) ?_
    refine gives_bind fun pattern => gives_bind fun _ => gives_bind fun _ => .ite ?_ gives_typed
    exact gives_pure fun _ h => absurd h (by simp)

instance : PrintsWhole variadicEnd := by
  unfold variadicEnd
  infer_instance

theorem gives_fnParams : Gives (fnParams g) fun found => ∀ p ∈ found.1, p.IsWhole := by
  have hreverse {taken : List FnParam} (h : ∀ p ∈ taken, p.IsWhole) :
      ∀ p ∈ taken.reverse, p.IsWhole := fun p hp => h p (List.mem_reverse.1 hp)
  refine gives_repeating (I := fun taken => ∀ p ∈ taken, p.IsWhole)
    (fun p hp => absurd hp List.not_mem_nil) fun taken htaken => ?_
  refine gives_bind fun _ => .ite (gives_pure (hreverse htaken)) ?_
  refine gives_bind fun _ => gives_bind fun _ => .ite ?_ ?_
  · exact gives_bind fun _ => gives_pure (hreverse htaken)
  · refine gives_fnParam.bind fun p? hp => ?_
    split
    · exact gives_bind fun _ => gives_pure (hreverse htaken)
    · rename_i p
      have hmore := List.forall_mem_cons.2 ⟨hp p rfl, htaken⟩
      refine gives_bind fun _ => gives_bind fun _ => .ite (gives_pure (hreverse hmore)) ?_
      exact gives_bind fun _ => gives_pure hmore

theorem gives_returnType {plus : Bool} :
    Gives (returnType g plus) fun type? => ∀ type ∈ type?, Whole type.trees := by
  refine gives_bind fun _ => .ite ?_ (gives_pure fun _ h => absurd h (by simp))
  exact (hg.type plus).map fun type h type' h' => Option.some.inj h' ▸ h

theorem gives_signature {safe : Bool} : Gives (signature g safe) Signature.IsWhole := by
  refine gives_bind fun q => gives_bind fun _ => gives_bind fun n => gives_bind fun generics => ?_
  refine gives_fnParams.group.bind fun (params, isVariadic) hparams => ?_
  refine gives_returnType.bind fun output houtput => gives_bind fun _ => gives_pure ?_
  rintro type (⟨pattern, hmem⟩ | hsome)
  · exact hparams _ hmem _ _ rfl
  · exact houtput type hsome

instance {safe : Bool} : PrintsWhole (signature g safe) := gives_signature.toPrintsWhole

/-! ## Declarations of types -/

instance {nested : Parser Unit} [PrintsWhole nested] : PrintsWhole (namedField g nested) := by
  unfold namedField
  infer_instance

instance {depth : Nat} : PrintsWhole (namedFieldsUpTo g depth) := by
  induction depth with
  | zero => exact gives_failure (Q := fun _ => True) |>.toPrintsWhole
  | succ depth ih =>
    unfold namedFieldsUpTo
    infer_instance

instance : PrintsWhole (namedFields g) := by
  unfold namedFields
  infer_instance

instance : PrintsWhole (positionalFields g) := by
  unfold positionalFields
  infer_instance

/-- Declarations hold no methods. -/
theorem isWhole_declaration {n : Name} {generics : List GenericParam} :
    (Item.declaration n generics).IsWhole := fun _ hholds => nomatch hholds

theorem gives_structItem : Gives (structItem g) Item.IsWhole := by
  have hend {n : Name} {params : List GenericParam} :
      Gives (pure (.declaration n params)) Item.IsWhole := gives_pure isWhole_declaration
  refine gives_bind fun _ => gives_bind fun n => gives_bind fun params => gives_bind fun _ => ?_
  refine gives_bind fun ts => .ite ?_ (.ite (gives_bind fun _ => hend) (gives_bind fun _ => hend))
  exact gives_bind fun _ => gives_bind fun _ => gives_bind fun _ => hend

instance : PrintsWhole (variant g) := by
  unfold variant
  infer_instance

theorem gives_enumItem : Gives (enumItem g) Item.IsWhole :=
  gives_bind fun _ => gives_bind fun _ => gives_bind fun _ => gives_bind fun _ =>
    gives_bind fun _ => gives_pure isWhole_declaration

theorem gives_unionItem : Gives (unionItem g) Item.IsWhole :=
  gives_bind fun _ => gives_bind fun _ => gives_bind fun _ => gives_bind fun _ =>
    gives_bind fun _ => gives_pure isWhole_declaration

/-! ## Parts that several kinds of items have -/

instance {place : WherePlace} : PrintsWhole (typeAlias g place) := by
  unfold typeAlias
  infer_instance

instance : PrintsWhole (constant g) := by
  unfold constant
  infer_instance

instance {named : Bool} : PrintsWhole (macroItem named) := by
  unfold macroItem
  infer_instance

/-! ## Implementations -/

/-- The items that are no implementations and no modules hold no methods. -/
theorem isWhole_other : Item.other.IsWhole := fun _ hholds => nomatch hholds

theorem gives_implFunction :
    Gives (implFunction g) fun m? => ∀ m ∈ m?, m.signature.IsWhole := by
  refine gives_bind fun seen => gives_bind fun _ => gives_signature.bind fun head hhead => ?_
  refine gives_bind fun _ => .ite (gives_pure fun _ h => absurd h (by simp)) ?_
  refine gives_bind fun _ => gives_pure ?_
  rintro m ⟨⟩
  exact hhead

theorem gives_implPartBody :
    Gives (implPartBody g) fun found => ∀ m ∈ found.1, m.signature.IsWhole := by
  have hnone {marked : Bool} : Gives (pure (none, marked) : Parser (Option Method × Bool))
      fun found => ∀ m ∈ found.1, m.signature.IsWhole :=
    gives_pure fun _ h => absurd h (by simp)
  refine gives_bind fun start => ?_
  dsimp only
  refine .ite ?function <| .ite ?constant <| .ite ?type ?call
  case function => exact gives_implFunction.bind fun m? h => gives_pure h
  case constant | type =>
    refine gives_bind fun _ => .ite ?_ ?_
    · exact gives_bind fun _ => gives_bind fun _ => hnone
    · exact gives_bind fun _ => hnone
  case call => exact gives_bind fun _ => gives_bind fun _ => hnone

theorem gives_implPart : Gives (implPart g) fun m? => ∀ m ∈ m?, m.signature.IsWhole :=
  .verbatimIf (gives_bind fun _ => gives_implPartBody)

theorem gives_implItem {seen : Visibility} :
    Gives (implItem g seen) fun found => found.1.IsWhole := by
  have hmethods : Gives (do innerAttributes g; many (implPart g))
      fun methods => ∀ m? ∈ methods, ∀ m ∈ m?, m.signature.IsWhole :=
    gives_bind fun _ => gives_implPart.many
  have hend {first self : TypeTree} {isConst isFor : Bool} {params : List GenericParam} : Gives (do
        discard (whereClause? g)
        let methods ← group .brace do
          innerAttributes g
          many (implPart g)
        if seen ≠ .inherited || isConst || (isFor && first.path?.isNone) then pure (.other, true)
        else pure (.implementation isFor params self (methods.filterMap id), false) :
          Parser (Item × Bool)) fun found => found.1.IsWhole := by
    refine gives_bind fun _ => hmethods.group.bind fun methods h => .ite ?_ ?_
    · exact gives_pure isWhole_other
    · -- The methods of the implementation are those that were found in its braces.
      refine gives_pure ?_
      rintro m ⟨hmem⟩
      obtain ⟨m?, hmem?, hm⟩ := List.mem_filterMap.1 hmem
      exact h m? hmem? m hm
  -- What is found in front of the types does not change how it ends.
  unfold implItem
  dsimp only
  repeat' first | exact hend | refine gives_bind fun _ => ?_ | refine .ite ?_ ?_

/-! ## Traits and foreign items -/

instance : PrintsWhole (declaredFunction g) := by
  unfold declaredFunction
  infer_instance

instance : PrintsWhole (traitPart g) := by
  unfold traitPart
  infer_instance

instance : PrintsWhole (traitBody g) := by
  unfold traitBody
  infer_instance

instance : PrintsWhole (traitItem g) := by
  unfold traitItem
  infer_instance

instance : PrintsWhole (traitOrAlias g) := by
  unfold traitOrAlias
  infer_instance

instance : PrintsWhole (foreignFunction g) := by
  unfold foreignFunction
  infer_instance

instance : PrintsWhole (foreignStatic g) := by
  unfold foreignStatic
  infer_instance

instance : PrintsWhole (foreignPart g) := by
  unfold foreignPart
  infer_instance

instance : PrintsWhole (foreignBlock g) := by
  unfold foreignBlock
  infer_instance

/-! ## Imports and modules -/

instance : PrintsWhole rename := by
  unfold rename
  infer_instance

instance {root : Bool} : PrintsWhole (Syntax.useTree g root) := by
  unfold Syntax.useTree
  infer_instance

instance : PrintsWhole (useItem g) := by
  unfold useItem
  infer_instance

instance : PrintsWhole crateItem := by
  unfold crateItem
  infer_instance

instance : PrintsWhole moduleName := by
  unfold moduleName
  infer_instance

theorem gives_moduleEnd {n : Name} : Gives (moduleEnd g n) Item.IsWhole := by
  refine gives_bind fun _ => .ite (gives_pure isWhole_other) ?_
  have hitems : Gives (do innerAttributes g; many g.item)
      fun items => ∀ item ∈ items, item.IsWhole := gives_bind fun _ => hg.item.many
  refine hitems.groupWithEnd.bind fun (items, close) h => gives_pure ?_
  rintro m (_ | ⟨hmem, hholds⟩)
  exact h _ hmem m hholds

theorem gives_moduleItem : Gives (moduleItem g) Item.IsWhole :=
  gives_bind fun _ => gives_bind fun _ => gives_bind fun _ => gives_moduleEnd

/-! ## Other items -/

instance : PrintsWhole (functionItem g) := by
  unfold functionItem
  infer_instance

instance : PrintsWhole (staticItem g) := by
  unfold staticItem
  infer_instance

instance : PrintsWhole macroRules := by
  unfold macroRules
  infer_instance

instance {seen : Visibility} {ts : List TokenTree} : PrintsWhole (externItem g seen ts) := by
  unfold externItem
  infer_instance

theorem gives_unsafeItem {seen : Visibility} {ts : List TokenTree} :
    Gives (unsafeItem g seen ts) Item.IsWhole := by
  refine .ite (gives_bind fun _ => gives_pure isWhole_other) <| .ite ?_ gives_moduleItem
  exact gives_bind fun _ => gives_bind fun _ => gives_pure isWhole_other

theorem gives_other {p : Parser Bool} [PrintsWhole p] :
    Gives (other p) fun found => found.1.IsWhole :=
  PrintsWhole.gives.map fun _ _ => isWhole_other

theorem gives_usual {p : Parser Item} (h : Gives p Item.IsWhole) :
    Gives (usual p) fun found => found.1.IsWhole := h.map fun _ ha => ha

theorem gives_usualOther {p : Parser Unit} [PrintsWhole p] :
    Gives (usualOther p) fun found => found.1.IsWhole :=
  gives_usual (gives_bind fun _ => gives_pure isWhole_other)

theorem gives_itemBody : Gives (itemBody g) fun found => found.1.IsWhole := by
  have hcall {condition : Bool} : Gives (do require condition; usualOther (macroItem true))
      fun found => found.1.IsWhole := gives_bind fun _ => gives_usualOther
  refine gives_bind fun seen => gives_bind fun ts => ?_
  exact .ite gives_other <| .ite gives_usualOther <| .ite gives_other <| .ite gives_other <|
    .ite gives_other <| .ite (.ite gives_implItem (gives_usual gives_unsafeItem)) <|
    .ite (gives_usual gives_moduleItem) <| .ite gives_other <|
    .ite (gives_usual gives_structItem) <| .ite (gives_usual gives_enumItem) <|
    .ite (gives_usual gives_unionItem) <| .ite gives_usualOther <| .ite gives_usualOther <|
    .ite gives_implItem <| .ite gives_other hcall

theorem gives_item : Gives (Syntax.item g) Item.IsWhole :=
  .verbatimIf (gives_bind fun _ => gives_itemBody)

/-! ## The grammar -/

theorem printsWhole_around : g.around.PrintsWhole where
  type _ := gives_type
  bound capture constant := inferInstanceAs (PrintsWhole (Syntax.bound g capture constant))
  expression structs := inferInstanceAs (PrintsWhole (Syntax.expression g structs))
  operand structs := inferInstanceAs (PrintsWhole (Syntax.operand g structs))
  takes structs := inferInstanceAs (Takes (Syntax.operand g structs))
  operators structs level left :=
    inferInstanceAs (PrintsWhole (Syntax.operators g structs level left))
  leading inStatement := inferInstanceAs (PrintsWhole (Syntax.leading g inStatement))
  pattern := inferInstanceAs (PrintsWhole (Syntax.pattern g))
  statements := inferInstanceAs (PrintsWhole (Syntax.statements g))
  item := gives_item
  useTree root := inferInstanceAs (PrintsWhole (Syntax.useTree g root))

theorem printsWhole_empty : Grammar.empty.PrintsWhole where
  type _ := gives_failure
  bound _ _ := inferInstanceAs (PrintsWhole failure)
  expression _ := inferInstanceAs (PrintsWhole failure)
  operand _ := inferInstanceAs (PrintsWhole failure)
  takes _ := ⟨fun hrun => by contradiction⟩
  operators _ _ _ := inferInstanceAs (PrintsWhole failure)
  leading _ := inferInstanceAs (PrintsWhole failure)
  pattern := inferInstanceAs (PrintsWhole failure)
  statements := inferInstanceAs (PrintsWhole failure)
  item := gives_failure
  useTree _ := inferInstanceAs (PrintsWhole failure)

end

/-- Constructs print whole trees however deep they nest. -/
theorem printsWhole_grammar (depth : Nat) : (grammar depth).PrintsWhole := by
  induction depth with
  | zero => exact printsWhole_empty
  | succ depth _ => exact printsWhole_around

/-- The types of all methods in a source text are whole. -/
theorem whole_of_parseFile? {text : List Char} {items : List Item}
    (h : parseFile? text = some items) : ∀ item ∈ items, item.IsWhole := by
  unfold parseFile? at h
  split at h
  · contradiction
  · rename_i trees htrees
    have hsound : Sound ⟨trees, []⟩ := by
      unfold fileTrees? at htrees
      exact ⟨whole_of_tokenTrees? htrees, .nil⟩
    have hgrammar := printsWhole_grammar (stepsPerToken * (TokenTree.sizeAll trees + 1))
    have hfile : Gives (file (grammar (stepsPerToken * (TokenTree.sizeAll trees + 1))))
        fun items => ∀ item ∈ items, item.IsWhole := gives_bind fun _ => hgrammar.item.many
    split at h
    · rename_i items' _ hrun
      obtain rfl := Option.some.inj h
      exact hfile.given hsound hrun
    · contradiction

end UnitLoader.Syntax
