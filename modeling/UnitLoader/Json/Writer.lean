import UnitLoader.Text.Quoted

/-!
# Writing JSON

The compact form: no spaces, members in the order given, and only those characters escaped that
have to be.
-/

namespace UnitLoader.Json

/-- A JSON value of the forms that this library writes. -/
inductive Value where
  | null
  | natural (n : Nat)
  | text (value : List Char)
  | array (elements : List Value)
  | object (members : List (String × Value))

/-- A character inside a JSON string. -/
def escape (c : Char) : List Char :=
  match c with
  | '"' => ['\\', '"']
  | '\\' => ['\\', '\\']
  | '\n' => ['\\', 'n']
  | '\r' => ['\\', 'r']
  | '\t' => ['\\', 't']
  | '\x08' => ['\\', 'b']
  | '\x0c' => ['\\', 'f']
  | c =>
    if c.toNat < 0x10 then ['\\', 'u', '0', '0', '0'] ++ Nat.toDigits 16 c.toNat
    else if c.toNat < 0x20 then ['\\', 'u', '0', '0'] ++ Nat.toDigits 16 c.toNat
    else [c]

/-- A text as a JSON string. -/
def string (text : List Char) : List Char := '"' :: text.flatMap escape ++ ['"']

mutual

/-- The compact text of a value. -/
def Value.print : Value → List Char
  | .null => "null".toList
  | .natural n => Nat.toDigits 10 n
  | .text value => string value
  | .array elements => '[' :: Value.printElements elements ++ [']']
  | .object members => '\x7b' :: Value.printMembers members ++ ['\x7d']

/-- The texts of values, with commas between them. -/
def Value.printElements : List Value → List Char
  | [] => []
  | [value] => value.print
  | value :: others => value.print ++ ',' :: Value.printElements others

/-- The texts of members, with commas between them. -/
def Value.printMembers : List (String × Value) → List Char
  | [] => []
  | [(name, value)] => string name.toList ++ ':' :: value.print
  | (name, value) :: others =>
    string name.toList ++ ':' :: value.print ++ ',' :: Value.printMembers others

end

end UnitLoader.Json
