import UnitLoader.Proofs.Syntax.PrintsWhole.Type
import UnitLoader.Syntax.Statement

/-!
# Patterns, expressions and statements print whole trees

Here operators stand that end with a slash. What they bind is an operand, which is never missing
(`takes_operand`).
-/

namespace UnitLoader.Syntax

open UnitLoader.Syntax.Parser

-- The instance of a parser has one step for each part of it.
set_option synthInstance.maxSize 10000

section

variable {g : Grammar} [hg : g.PrintsWhole]

/-! ## Patterns -/

instance {oldSpelling : Bool} : PrintsWhole (rangeLimit oldSpelling) := by
  unfold rangeLimit
  infer_instance

instance : PrintsWhole (alternatives g) := by
  unfold alternatives
  infer_instance

instance : PrintsWhole (rangeBound g) := by
  unfold rangeBound
  infer_instance

instance : PrintsWhole (rangeFrom g) := by
  unfold rangeFrom
  infer_instance

instance : PrintsWhole (rangeTo g) := by
  unfold rangeTo
  infer_instance

theorem whole_indexTree (index : Nat) : Whole [indexTree index] :=
  whole_literal (isLiteral_toString index) .nil

instance : PrintsWhole fieldMember := by
  unfold fieldMember
  refine prints_bind fun ts => ?_
  split
  · split
    · rename_i index _
      have := prints_print (whole_indexTree index)
      infer_instance
    · infer_instance
  · infer_instance

instance : PrintsWhole (fieldPattern g) := by
  unfold fieldPattern
  infer_instance

instance : PrintsWhole (structurePattern g) := by
  unfold structurePattern
  infer_instance

instance : PrintsWhole (pathPattern g) := by
  unfold pathPattern
  infer_instance

instance : PrintsWhole (literalPattern g) := by
  unfold literalPattern
  infer_instance

instance : PrintsWhole (bindingPattern g) := by
  unfold bindingPattern
  infer_instance

instance : PrintsWhole (slicePattern g) := by
  unfold slicePattern
  infer_instance

instance : PrintsWhole (Syntax.pattern g) := by
  unfold Syntax.pattern
  infer_instance

/-! ## Control structures -/

instance : PrintsWhole (operandAttributes g) := by
  unfold operandAttributes
  infer_instance

instance : PrintsWhole (conditional g) := by
  unfold conditional
  infer_instance

instance : PrintsWhole (arm g) := by
  unfold arm
  infer_instance

instance : PrintsWhole (choice g) := by
  unfold choice
  infer_instance

instance : PrintsWhole (loopOrBlock g) := by
  unfold loopOrBlock
  infer_instance

instance : PrintsWhole (labeled g) := by
  unfold labeled
  infer_instance

instance : PrintsWhole (blockLike? g) := by
  unfold blockLike?
  infer_instance

/-! ## Atoms -/

/-- Attributes and what they belong to are whole together. -/
theorem prints_printAttributed {attributes trees : List TokenTree} {isRange : Bool}
    (hattributes : Whole attributes) (htrees : Whole trees) :
    PrintsWhole (printAttributed attributes trees isRange) :=
  .ite (prints_print (hattributes.append (.group htrees .nil)))
    (prints_print (hattributes.append htrees))

instance : PrintsWhole (closureParam g) := by
  refine gives_captured.prints_bind fun ((), attributes) hattributes => ?_
  refine gives_captured.prints_bind fun (found, trees) htrees => prints_bind fun _ => ?_
  have := prints_print (hattributes.append htrees)
  exact .ite inferInstance (.ite (prints_print htrees) (prints_printAttributed hattributes htrees))

instance {structs : Bool} : PrintsWhole (closure g structs) := by
  unfold closure
  infer_instance

instance : PrintsWhole (structureFields g) := by
  unfold structureFields
  infer_instance

instance {structs : Bool} : PrintsWhole (pathExpression g structs) := by
  unfold pathExpression
  infer_instance

instance {structs : Bool} : PrintsWhole (breakExpression g structs) := by
  unfold breakExpression
  infer_instance

instance {name : String} : PrintsWhole (resultExpression g name) := by
  unfold resultExpression
  infer_instance

instance : PrintsWhole (arrayExpression g) := by
  unfold arrayExpression
  infer_instance

instance {structs : Bool} : PrintsWhole (patternTest g structs) := by
  unfold patternTest
  infer_instance

instance {structs : Bool} {level : Level} : PrintsWhole (rightOperand g structs level) := by
  unfold rightOperand
  infer_instance

instance {structs : Bool} : PrintsWhole (rangeExpression g structs) := by
  unfold rangeExpression
  infer_instance

instance {structs : Bool} : PrintsWhole (keywordExpression g structs) := by
  unfold keywordExpression
  infer_instance

instance {structs : Bool} : PrintsWhole (atom g structs) := by
  unfold atom
  infer_instance

/-! ## What stands behind an operand -/

instance : PrintsWhole (member g) := by
  unfold member
  infer_instance

/-- Trees that are whole by themselves are whole in a row, with such a tree between them. -/
theorem whole_intersperse {separator : TokenTree} {ts : List TokenTree}
    (hseparator : Whole [separator]) (h : ∀ t ∈ ts, Whole [t]) :
    Whole (ts.intersperse separator) := by
  induction ts with
  | nil => exact .nil
  | cons t ts ih =>
    obtain ⟨ht, hts⟩ := List.forall_mem_cons.1 h
    cases ts with
    | nil => exact ht
    | cons next ts => exact ht.append (hseparator.append (ih hts))

instance {parts : List (List Char)} : PrintsWhole (fieldPair parts) := by
  unfold fieldPair
  split
  · rename_i indices _
    have hwhole : ∀ t ∈ indices.map indexTree, Whole [t] := by
      simp only [List.forall_mem_map]
      exact fun index _ => whole_indexTree index
    have := prints_print (whole_intersperse (whole_alone (c := '.') rfl (by decide) .nil) hwhole)
    infer_instance
  · infer_instance

instance : PrintsWhole (afterPoint g) := by
  have := prints_print (whole_alone (c := '.') rfl (by decide) .nil)
  refine prints_bind fun _ => prints_bind fun ts => ?_
  split <;> infer_instance

instance {start : Expression} : PrintsWhole (trailers g start) := by
  unfold trailers
  infer_instance

instance {structs : Bool} : PrintsWhole (referenceExpression g structs) := by
  unfold referenceExpression
  infer_instance

instance {structs : Bool} : PrintsWhole (Syntax.operand g structs) := by
  unfold Syntax.operand
  infer_instance

/-! ## Binary operators -/

instance : PrintsWhole (castExpression g) := by
  unfold castExpression
  infer_instance

theorem isSpelling_of_binaryOperator? {ts : List TokenTree} {spelling : String} {level : Level}
    (h : binaryOperator? ts = some (spelling, level)) : isSpelling spelling.toList = true := by
  have hall : ∀ operator ∈ binaryOperators, isSpelling operator.1.toList = true := by decide
  exact hall _ (List.mem_of_find?_eq_some h)

instance {structs : Bool} {level : Level} : Takes (rightOperand g structs level) := by
  unfold rightOperand
  infer_instance

instance {structs : Bool} {level : Nat} {start : Expression} :
    PrintsWhole (Syntax.operators g structs level start) := by
  refine prints_repeating fun left => prints_bind fun ts => .ite inferInstance ?_
  split
  · rename_i spelling found hfound
    have hoperator {a : Expression ⊕ Expression} : PrintsWhole (do
        symbol spelling
        discard (rightOperand g structs found)
        pure a) := prints_operator (isSpelling_of_binaryOperator? hfound)
    exact .ite inferInstance (prints_bind fun _ => hoperator)
  · infer_instance

instance {structs : Bool} : PrintsWhole (Syntax.expression g structs) := by
  unfold Syntax.expression
  infer_instance

instance : PrintsWhole (endedByBlock g) := by
  unfold endedByBlock
  infer_instance

instance {inStatement : Bool} : PrintsWhole (Syntax.leading g inStatement) := by
  refine gives_captured.prints_bind fun ((), attributes) hattributes => ?_
  refine gives_captured.prints_bind fun ((start, whole), trees) htrees => ?_
  have := prints_print htrees
  have {isRange : Bool} : PrintsWhole (printAttributed attributes trees isRange) :=
    prints_printAttributed hattributes htrees
  dsimp only
  infer_instance

/-! ## Operands take something -/

instance {inExpression : Bool} : Takes (pathSegment g inExpression) := by
  unfold pathSegment
  infer_instance

instance {inExpression : Bool} : Takes (path g inExpression) := by
  unfold path
  infer_instance

instance {inExpression : Bool} : Takes (qualifiedPath g inExpression) := by
  unfold qualifiedPath
  infer_instance

instance {structs : Bool} : Takes (pathExpression g structs) := by
  unfold pathExpression
  infer_instance

instance : Takes builtinCall := by
  unfold builtinCall
  infer_instance

instance : Takes (block g) := by
  unfold block
  infer_instance

instance : Takes (body g) := by
  unfold body
  infer_instance

instance : Takes (conditional g) := by
  unfold conditional
  infer_instance

instance : Takes (choice g) := by
  unfold choice
  infer_instance

instance : Takes (loopOrBlock g) := by
  unfold loopOrBlock
  infer_instance

instance : Takes (labeled g) := by
  unfold labeled
  infer_instance

instance {structs : Bool} : Takes (closure g structs) := by
  unfold closure
  infer_instance

instance : Takes (arrayExpression g) := by
  unfold arrayExpression
  infer_instance

instance {structs : Bool} : Takes (rangeExpression g structs) := by
  unfold rangeExpression rangeLimit
  infer_instance

instance {structs : Bool} : Takes (keywordExpression g structs) := by
  unfold keywordExpression breakExpression resultExpression patternTest
  infer_instance

omit hg in
/-- A block takes something if there is one. -/
theorem takes_blockLike? {c c' : Cursor} (h : (blockLike? g).run c = some (true, c')) :
    c'.rest.length < c.rest.length := by
  obtain ⟨ts, c₁, hrest, h⟩ := bind_eq_some h
  cases hrest
  dsimp only at h
  -- Every branch takes what it is chosen by, but for the last one, in which there is no block.
  repeat' split at h
  case isFalse.isFalse.isFalse.isFalse.isFalse.isFalse =>
    exact absurd (pure_eq_some h).1 Bool.false_ne_true
  all_goals exact Takes.takes h

instance {p q : Parser Expression} [Takes q] : Takes (do if ← blockLike? g then p else q) := by
  refine ⟨fun {c c' a} hrun => ?_⟩
  obtain ⟨found, c₁, hfound, hrun⟩ := bind_eq_some hrun
  cases found with
  | true => exact (p.takes hrun).length_le.trans_lt (takes_blockLike? hfound)
  | false =>
    have htakes : c'.rest.length < c₁.rest.length := Takes.takes (p := q) hrun
    exact htakes.trans_le ((blockLike? g).takes hfound).length_le

instance {structs : Bool} : Takes (atom g structs) := by
  unfold atom
  infer_instance

instance {structs : Bool} : Takes (referenceExpression g structs) := by
  unfold referenceExpression
  infer_instance

instance {structs : Bool} : Takes (Syntax.operand g structs) := by
  unfold Syntax.operand
  infer_instance

/-! ## Statements -/

instance : PrintsWhole (localStatement g) := by
  unfold localStatement
  infer_instance

instance : PrintsWhole (expressionStatement g) := by
  unfold expressionStatement
  infer_instance

instance : PrintsWhole (statement g) := by
  unfold statement
  infer_instance

instance : PrintsWhole semicolons := by
  unfold semicolons
  infer_instance

instance : PrintsWhole (Syntax.statements g) := by
  unfold Syntax.statements
  infer_instance

end

end UnitLoader.Syntax
