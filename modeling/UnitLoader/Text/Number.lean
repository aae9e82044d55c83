import UnitLoader.Text.Charset

/-!
# Unsigned numbers in text

`parseNatural` reads a decimal number up to a bound and says why it cannot.
-/

namespace UnitLoader.Text

/-- Why a text is no number. -/
inductive NumberFault where
  /-- There is nothing to read. -/
  | empty
  /-- A character is no digit. -/
  | invalidDigit
  /-- The number is beyond the bound. -/
  | overflow
  deriving DecidableEq, Repr

/-- The text of a fault. -/
def NumberFault.message : NumberFault → String
  | .empty => "cannot parse integer from empty string"
  | .invalidDigit => "invalid digit found in string"
  | .overflow => "number too large to fit in target type"

/-- Reads digits behind those that make up `value`; the first digit that fails decides. -/
def naturalFrom (bound : Nat) : Nat → List Char → Except NumberFault Nat
  | value, [] => .ok value
  | value, c :: rest =>
    if !Charset.isAsciiDigit c then .error .invalidDigit
    else
      let next := value * 10 + (c.toNat - '0'.toNat)
      if bound < next then .error .overflow else naturalFrom bound next rest

/-- Reads a decimal number up to a bound; a plus sign may stand in front. -/
def parseNatural (bound : Nat) : List Char → Except NumberFault Nat
  | [] => .error .empty
  | ['+'] => .error .invalidDigit
  | '+' :: digits => naturalFrom bound 0 digits
  | digits => naturalFrom bound 0 digits

/-- A text without the white space at its ends. -/
def trim (text : List Char) : List Char :=
  ((text.dropWhile Charset.isWhitespace).reverse.dropWhile Charset.isWhitespace).reverse

/-- A text with the basic Latin capitals in lower case. -/
def asciiLower (text : List Char) : List Char :=
  text.map fun c => if 'A' ≤ c ∧ c ≤ 'Z' then Char.ofNat (c.toNat + 32) else c

end UnitLoader.Text
