import UnitLoader.Text.Charset

/-!
# Quoted text

Two ways to show a text between double quotes. `literal` writes a string literal: it leaves the
apostrophe alone and writes the null character so that a digit behind it stays apart. `quoted`
shows a text in a message. Both write every character that cannot be shown by its number.
-/

namespace UnitLoader.Text

/-- The hexadecimal digits of a number, in lower case and without leading zeros. -/
def hexDigits (n : Nat) : List Char := Nat.toDigits 16 n

/-- The escape of a character by its number. -/
def numberEscape (c : Char) : List Char :=
  ['\\', 'u', '\x7b'] ++ hexDigits c.toNat ++ ['\x7d']

/-- A character inside double quotes, the null character and the apostrophe apart. -/
def escapeChar (c : Char) : List Char :=
  match c with
  | '\t' => ['\\', 't']
  | '\r' => ['\\', 'r']
  | '\n' => ['\\', 'n']
  | '\\' => ['\\', '\\']
  | '"' => ['\\', '"']
  | c => if Charset.isGraphemeExtend c || !Charset.isPrintable c then numberEscape c else [c]

/-- The body of a string literal. -/
def literalBody : List Char → List Char
  | [] => []
  | c :: rest =>
    if c == '\x00' then
      let escape :=
        match rest with
        | next :: _ => if '0' ≤ next ∧ next ≤ '7' then ['\\', 'x', '0', '0'] else ['\\', '0']
        | [] => ['\\', '0']
      escape ++ literalBody rest
    else escapeChar c ++ literalBody rest

/-- A text as a string literal. -/
def literal (text : List Char) : List Char := '"' :: literalBody text ++ ['"']

/-- A text as a message shows it. -/
def quoted (text : List Char) : List Char :=
  '"' :: (text.flatMap fun c => if c == '\x00' then ['\\', '0'] else escapeChar c) ++ ['"']

end UnitLoader.Text
