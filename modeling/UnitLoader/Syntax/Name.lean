import UnitLoader.Text.Charset

/-!
# Names

A name is an identifier or a keyword, perhaps with a raw mark. `nameLength` measures the one at the
start of a text.
-/

namespace UnitLoader.Syntax

open UnitLoader.Text

/-- An identifier starts with an underscore or an XID_Start character. -/
def isNameStart (c : Char) : Bool := c == '_' || Charset.isIdentifierStart c

/-- The text has the characters of an identifier. -/
def isName : List Char → Bool
  | [] => false
  | c :: rest => isNameStart c && rest.all Charset.isIdentifierContinue

/-- The length of the identifier at the start of a text, zero if there is none. -/
def nameLength : List Char → Nat
  | [] => 0
  | c :: rest =>
    if isNameStart c then 1 + (rest.takeWhile Charset.isIdentifierContinue).length else 0

/-- What `nameLength` measures is an identifier. -/
theorem isName_take_nameLength {text : List Char} (h : nameLength text ≠ 0) :
    isName (text.take (nameLength text)) = true := by
  cases text with
  | nil => exact absurd rfl h
  | cons c rest =>
    rw [nameLength] at h ⊢
    split at h
    · rename_i starts
      rw [if_pos starts, Nat.add_comm, List.take_succ_cons, isName, starts, Bool.true_and,
        ← List.prefix_iff_eq_take.1 (List.takeWhile_prefix _)]
      exact List.all_takeWhile
    · exact absurd rfl h

/-- An identifier or a keyword. -/
structure Name where
  /-- The characters without a raw mark. -/
  text : String
  /-- It is written with a raw mark. -/
  raw : Bool
  /-- The characters are those of an identifier. -/
  isName : isName text.toList = true := by decide
  deriving DecidableEq, Repr

/-- The identifier at the start of a text, if there is one. -/
def nameAt? (text : List Char) (raw : Bool) : Option Name :=
  if h : nameLength text = 0 then none
  else some ⟨String.ofList (text.take (nameLength text)), raw, by
    rw [String.toList_ofList]; exact isName_take_nameLength h⟩

end UnitLoader.Syntax
