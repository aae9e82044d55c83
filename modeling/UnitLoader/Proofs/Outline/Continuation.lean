import UnitLoader.Proofs.Outline.Lexeme
import UnitLoader.SourceUnit

/-!
# A text that goes on

The name of a unit is known as soon as its declaration is read: `resolveName_append_newline` says
that it stays the same whatever follows on a new line. The outline of the text is a prefix of the
outline of the longer text (`tokens_prefix_append_newline`), for all its lexemes stay what they are
except for a last one that does not end, and a declaration that is found in a prefix is found in the
whole (`declaredPathFrom_append`).
-/

namespace UnitLoader

namespace Outline

/-- The outline of a text is still read when the text goes on behind a line feed. -/
theorem tokens_prefix_append_newline (text more : List Char) :
    tokens text <+: tokens (text ++ '\n' :: more) := by
  induction text using lexeme_induction with
  | nil => exact List.nil_prefix
  | step text hne ih =>
    have hlonger : text ++ '\n' :: more ≠ [] := by simp
    rw [tokens_eq_append hne, tokens_eq_append hlonger]
    obtain hsame | ⟨-, hnone, -, hend, -⟩ := lexeme_append_newline hne more
    · rw [hsame, List.drop_append_of_le_length (length_lexeme_le text)]
      exact (List.prefix_append_right_inj _).2 ih
    · -- The last lexeme does not end in the text, and nothing is read of it.
      rw [hnone, List.drop_eq_nil_of_le hend]
      exact List.nil_prefix

/-- A declaration that is found is found whatever follows. -/
theorem declaredPathFrom_append {s : State} {outline : List Token} {path : List (List Char)}
    (h : declaredPathFrom s outline = some path) (more : List Token) :
    declaredPathFrom s (outline ++ more) = some path := by
  induction outline generalizing s with
  | nil => exact absurd h (by simp [declaredPathFrom])
  | cons t rest ih =>
    rw [declaredPathFrom] at h
    rw [List.cons_append, declaredPathFrom]
    cases hstep : s.step t with
    | inl found =>
      rw [hstep] at h
      exact h
    | inr next =>
      rw [hstep] at h
      exact ih h

end Outline

/-- A name is resolved exactly if the outline declares a type of that path. -/
theorem resolveName_eq_ok_iff {source name : String} :
    resolveName source = .ok name ↔
      ∃ path, Outline.declaredPath (Outline.tokens source.toList) = some path ∧
        String.ofList (Text.join pathSeparator path) = name := by
  unfold resolveName
  cases Outline.declaredPath (Outline.tokens source.toList) with
  | none => simp
  | some path => simp

/-- **What follows the declaration is irrelevant:** the name that a source resolves to stays the
same whatever stands on the lines behind it. -/
theorem resolveName_append_newline {source name : String} (h : resolveName source = .ok name)
    (more : String) : resolveName (source ++ "\n" ++ more) = .ok name := by
  obtain ⟨path, hpath, rfl⟩ := resolveName_eq_ok_iff.1 h
  have htext : (source ++ "\n" ++ more).toList = source.toList ++ '\n' :: more.toList := by
    simp [String.toList_append]
  obtain ⟨behind, hbehind⟩ := Outline.tokens_prefix_append_newline source.toList more.toList
  refine resolveName_eq_ok_iff.2 ⟨path, ?_, rfl⟩
  rw [htext, ← hbehind]
  exact Outline.declaredPathFrom_append hpath behind

/-- A module that is not closed, and behind it an opened literal and an opened comment. -/
theorem resolveName_append_newline_unclosed :
    resolveName "mod p \x7b pub struct A; fn f() \x7b 'x" = .ok "p::A" ∧
      resolveName ("mod p \x7b pub struct A; fn f() \x7b 'x" ++ "\n" ++
        "' \x7d \x7d \" r#\" /* struct B;") = .ok "p::A" := by
  have h : resolveName "mod p \x7b pub struct A; fn f() \x7b 'x" = .ok "p::A" := by decide +kernel
  exact ⟨h, resolveName_append_newline h _⟩

end UnitLoader
