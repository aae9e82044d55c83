import UnitLoader.Text.Charset.Tables

/-!
# Character classes

The predicates on characters that the readers and writers of this library use. Each follows a
property of the Unicode standard; below U+0080 the property is spelled out, above it is read off
a table.
-/

namespace UnitLoader.Text.Charset

/-- The character lies in one of the closed ranges of the table. -/
def inTable (table : List (Nat × Nat)) (c : Char) : Bool :=
  table.any fun range => decide (range.1 ≤ c.toNat) && decide (c.toNat ≤ range.2)

/-- A letter of the basic Latin alphabet. -/
def isAsciiLetter (c : Char) : Bool :=
  (decide ('a' ≤ c) && decide (c ≤ 'z')) || (decide ('A' ≤ c) && decide (c ≤ 'Z'))

/-- One of the ten decimal digits. -/
def isAsciiDigit (c : Char) : Bool :=
  decide ('0' ≤ c) && decide (c ≤ '9')

/-- A digit of base sixteen in either case. -/
def isHexDigit (c : Char) : Bool :=
  isAsciiDigit c || (decide ('a' ≤ c) && decide (c ≤ 'f')) || (decide ('A' ≤ c) && decide (c ≤ 'F'))

/-- A character below U+0080. -/
def isAscii (c : Char) : Bool :=
  decide (c.toNat < 0x80)

/-- The property White_Space. -/
def isWhitespace (c : Char) : Bool :=
  let n := c.toNat
  (decide (9 ≤ n) && decide (n ≤ 13)) || n == 32 || n == 0x85 || n == 0xA0 || n == 0x1680 ||
    (decide (0x2000 ≤ n) && decide (n ≤ 0x200A)) || n == 0x2028 || n == 0x2029 || n == 0x202F ||
    n == 0x205F || n == 0x3000

/-- The property Alphabetic. -/
def isAlphabetic (c : Char) : Bool :=
  if isAscii c then isAsciiLetter c else inTable Tables.alphabetic c

/-- Alphabetic, or numeric by general category. -/
def isAlphanumeric (c : Char) : Bool :=
  if isAscii c then isAsciiLetter c || isAsciiDigit c
  else inTable Tables.alphabetic c || inTable Tables.numeric c

/-- The property XID_Start: what an identifier may start with, the underscore apart. -/
def isIdentifierStart (c : Char) : Bool :=
  if isAscii c then isAsciiLetter c else inTable Tables.identifierStart c

/-- The property XID_Continue: what an identifier may go on with. -/
def isIdentifierContinue (c : Char) : Bool :=
  if isAscii c then isAsciiLetter c || isAsciiDigit c || c == '_'
  else inTable Tables.identifierContinue c

/-- The property Grapheme_Extend: a mark that joins the character before it. -/
def isGraphemeExtend (c : Char) : Bool :=
  !isAscii c && inTable Tables.graphemeExtend c

/-- A character that a quotation may show as it is: neither a control, a format, an unassigned
code point nor a separator other than the space. -/
def isPrintable (c : Char) : Bool :=
  if isAscii c then decide (0x20 ≤ c.toNat) && decide (c.toNat < 0x7F)
  else !inTable Tables.unprintable c

end UnitLoader.Text.Charset
