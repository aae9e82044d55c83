import UnitLoader.Text.Quoted
import UnitLoader.Text.Replace

/-!
# Texts on one line

A text is on one line if it holds no line feed. Texts on one line stay on one line when they are put
one after the other, digits are always on one line, and so is a string literal, whatever text it
stands for: `oneLine_literal`.
-/

namespace UnitLoader.Text

/-- The text holds no line feed. -/
def OneLine (text : List Char) : Prop := '\n' ∉ text

instance (text : List Char) : Decidable (OneLine text) :=
  inferInstanceAs (Decidable ('\n' ∉ text))

theorem oneLine_nil : OneLine [] := List.not_mem_nil

theorem oneLine_cons {c : Char} {rest : List Char} :
    OneLine (c :: rest) ↔ c ≠ '\n' ∧ OneLine rest := by
  rw [OneLine, OneLine, List.mem_cons, not_or, ne_comm]

theorem oneLine_append {first second : List Char} :
    OneLine (first ++ second) ↔ OneLine first ∧ OneLine second := by
  rw [OneLine, OneLine, OneLine, List.mem_append, not_or]

/-- The start of a text on one line is on one line. -/
theorem OneLine.take {text : List Char} (h : OneLine text) (n : Nat) : OneLine (text.take n) :=
  fun hmem => h (List.mem_of_mem_take hmem)

/-- A string is on one line if its characters are. A string literal unifies with the left side, so
that its characters are checked without decoding it. -/
theorem oneLine_ofList {text : List Char} (h : OneLine text) :
    OneLine (String.ofList text).toList := by
  rwa [String.toList_ofList]

/-- Texts on one line are joined by a separator on one line. -/
theorem oneLine_join {separator : List Char} {texts : List (List Char)} (hs : OneLine separator)
    (ht : ∀ t ∈ texts, OneLine t) : OneLine (join separator texts) := by
  induction texts with
  | nil => exact oneLine_nil
  | cons first others ih =>
    obtain ⟨hfirst, hothers⟩ := List.forall_mem_cons.1 ht
    cases others with
    | nil => exact hfirst
    | cons second rest =>
      unfold join
      rw [oneLine_append, oneLine_append]
      exact ⟨⟨hfirst, hs⟩, ih hothers⟩

/-! ## Numbers -/

/-- A digit is no line feed, and neither is what stands for a digit that is too large. -/
theorem digitChar_ne_newline (n : Nat) : Nat.digitChar n ≠ '\n' := by
  grind [Nat.digitChar]

/-- A number is written on one line. -/
theorem oneLine_toDigits {b : Nat} (hb : 1 < b) (n : Nat) : OneLine (Nat.toDigits b n) := by
  induction n using Nat.strongRecOn with
  | ind n ih =>
    have hlast (m : Nat) : OneLine [Nat.digitChar m] :=
      oneLine_cons.2 ⟨digitChar_ne_newline m, oneLine_nil⟩
    rw [Nat.toDigits_eq_if hb]
    split
    · exact hlast n
    · have hlt : n / b < n := Nat.div_lt_self (by omega) hb
      exact oneLine_append.2 ⟨ih (n / b) hlt, hlast (n % b)⟩

/-- A number in base ten is written on one line. -/
theorem oneLine_toString (n : Nat) : OneLine (toString n).toList := by
  rw [Nat.toString_eq_repr, Nat.repr, String.toList_ofList]
  exact oneLine_toDigits (by decide) n

/-! ## String literals -/

/-- The escape of a character by its number is on one line. -/
theorem oneLine_numberEscape (c : Char) : OneLine (numberEscape c) := by
  have hdigits : OneLine (hexDigits c.toNat) := oneLine_toDigits (by decide) c.toNat
  rw [numberEscape, oneLine_append, oneLine_append]
  exact ⟨⟨by decide, hdigits⟩, by decide⟩

/-- A character inside double quotes is on one line: a line feed has an escape of its own. -/
theorem oneLine_escapeChar (c : Char) : OneLine (escapeChar c) := by
  unfold escapeChar
  split
  -- A character without a name is written by its number or as it is.
  case h_6 _ _ hc _ _ =>
    split
    · exact oneLine_numberEscape c
    · exact oneLine_cons.2 ⟨hc, oneLine_nil⟩
  all_goals decide

/-- The body of a string literal is on one line. -/
theorem oneLine_literalBody (text : List Char) : OneLine (literalBody text) := by
  induction text with
  | nil => exact oneLine_nil
  | cons c rest ih =>
    unfold literalBody
    split
    · -- The null character has two escapes, of which neither holds a line feed.
      refine oneLine_append.2 ⟨?_, ih⟩
      repeat' split
      all_goals decide
    · exact oneLine_append.2 ⟨oneLine_escapeChar c, ih⟩

/-- A string literal is on one line, whatever text it stands for. -/
theorem oneLine_literal (text : List Char) : OneLine (literal text) := by
  rw [literal, oneLine_append, oneLine_cons]
  exact ⟨⟨by decide, oneLine_literalBody text⟩, by decide⟩

end UnitLoader.Text
