import UnitLoader.Text.Charset
import UnitLoader.Text.Utf8

/-!
# The lexemes of a JSON text

`lexemes` cuts bytes into the lexemes of JSON. A lexeme that is faulty keeps its fault, because
what counts as a fault depends on who asks: a reader that wants the value of a string or a number
is stricter than one that passes over it. The bytes behind a lexeme that nobody can pass over are
never looked at.
-/

namespace UnitLoader.Json

open UnitLoader.Text

/-- Why bytes cannot be read as a value. -/
inductive Fault where
  /-- The bytes are no JSON. -/
  | malformed
  /-- The JSON is not of the expected form. -/
  | mismatch
  /-- The bytes end too soon. -/
  | truncated
  deriving DecidableEq, Repr

/-- A number, as far as a reader of unsigned integers tells numbers apart. -/
inductive Number where
  /-- An unsigned integer below `2 ^ 64`. -/
  | natural (n : Nat)
  /-- Any other number. -/
  | other
  deriving DecidableEq, Repr

/-- One lexeme. Strings and numbers hold what reading gives and what passing over gives. -/
inductive Lexeme where
  | openObject
  | closeObject
  | openArray
  | closeArray
  | colon
  | comma
  | null
  | boolean (value : Bool)
  /-- A string. -/
  | text (read : Except Fault (List Char)) (skip : Except Fault Unit)
  /-- A number. -/
  | number (read : Except Fault Number) (skip : Except Fault Unit)
  /-- Bytes that start no lexeme. -/
  | invalid (fault : Fault)

/-- A byte that may stand between lexemes. -/
def isBlank (b : UInt8) : Bool := b == 32 || b == 10 || b == 13 || b == 9

/-- The byte of an ASCII character. -/
def ascii (c : Char) : UInt8 := UInt8.ofNat c.toNat

/-- The byte is a decimal digit. -/
def isDigit (b : UInt8) : Bool := Charset.isAsciiDigit (Char.ofNat b.toNat)

/-- The value of a hexadecimal digit. -/
def hexValue? (b : UInt8) : Option Nat :=
  let c := Char.ofNat b.toNat
  if '0' ≤ c ∧ c ≤ '9' then some (c.toNat - '0'.toNat)
  else if 'a' ≤ c ∧ c ≤ 'f' then some (c.toNat - 'a'.toNat + 10)
  else if 'A' ≤ c ∧ c ≤ 'F' then some (c.toNat - 'A'.toNat + 10)
  else none

/-- The value of the four hexadecimal digits at the start of the bytes. -/
def hexFour : List UInt8 → Except Fault Nat
  | a :: b :: c :: d :: _ =>
    match hexValue? a, hexValue? b, hexValue? c, hexValue? d with
    | some a, some b, some c, some d => .ok (((a * 16 + b) * 16 + c) * 16 + d)
    | _, _, _, _ => .error .malformed
  | _ => .error .truncated

/-- The byte that an escape of one letter stands for. -/
def escapedByte? (b : UInt8) : Option UInt8 :=
  match Char.ofNat b.toNat with
  | '"' => some (ascii '"')
  | '\\' => some (ascii '\\')
  | '/' => some (ascii '/')
  | 'b' => some 8
  | 'f' => some 12
  | 'n' => some 10
  | 'r' => some 13
  | 't' => some 9
  | _ => none

/-- Passes over a string behind its opening quote and gives the number of bytes with the closing
quote. The first `skip` bytes belong to an escape that is already read. -/
def skipText : Nat → List UInt8 → Except Fault Nat
  | _, [] => .error .truncated
  | skip + 1, _ :: rest => (skipText skip rest).map (· + 1)
  | 0, b :: rest =>
    if b == ascii '"' then .ok 1
    else if b.toNat < 0x20 then .error .malformed
    else if b == ascii '\\' then
      match rest with
      | [] => .error .truncated
      | e :: hex =>
        if e == ascii 'u' then
          match hexFour hex with
          | .error fault => .error fault
          | .ok _ => (skipText 5 rest).map (· + 1)
        else if (escapedByte? e).isSome then (skipText 1 rest).map (· + 1)
        else .error .malformed
    else (skipText 0 rest).map (· + 1)

/-- The character of a numeric escape behind its `u`, and the number of bytes it takes there. A
leading surrogate needs a trailing one in an escape of its own. -/
def unicodeEscape (bytes : List UInt8) : Except Fault (Char × Nat) :=
  match hexFour bytes with
  | .error fault => .error fault
  | .ok n =>
    if 0xDC00 ≤ n ∧ n ≤ 0xDFFF then .error .malformed
    else if n < 0xD800 ∨ 0xDBFF < n then .ok (Char.ofNat n, 4)
    else match bytes.drop 4 with
      | [] => .error .truncated
      | b :: rest =>
        if b != ascii '\\' then .error .malformed
        else match rest with
          | [] => .error .truncated
          | u :: rest =>
            if u != ascii 'u' then .error .malformed
            else match hexFour rest with
              | .error fault => .error fault
              | .ok m =>
                if m < 0xDC00 ∨ 0xDFFF < m then .error .malformed
                else .ok (Char.ofNat (0x10000 + (n - 0xD800) * 0x400 + (m - 0xDC00)), 10)

/-- The bytes that a string behind its opening quote holds, escapes resolved. -/
def readBytes : Nat → List UInt8 → Except Fault (List UInt8)
  | _, [] => .error .truncated
  | skip + 1, _ :: rest => readBytes skip rest
  | 0, b :: rest =>
    if b == ascii '"' then .ok []
    else if b.toNat < 0x20 then .error .malformed
    else if b == ascii '\\' then
      match rest with
      | [] => .error .truncated
      | e :: hex =>
        if e == ascii 'u' then
          match unicodeEscape hex with
          | .error fault => .error fault
          | .ok (c, length) => (readBytes (length + 1) rest).map (Utf8.encodeChar c ++ ·)
        else match escapedByte? e with
          | none => .error .malformed
          | some value => (readBytes 1 rest).map (value :: ·)
    else (readBytes 0 rest).map (b :: ·)

/-- The text of a string behind its opening quote. -/
def readText (bytes : List UInt8) : Except Fault (List Char) :=
  match readBytes 0 bytes with
  | .error fault => .error fault
  | .ok held =>
    match Utf8.decode held with
    | .error _ => .error .malformed
    | .ok text => .ok text

/-- The value of decimal digits. -/
def digitsValue (digits : List UInt8) : Nat :=
  digits.foldl (fun n b => n * 10 + (b.toNat - 48)) 0

/-- No double is as large as `mantissa * 10 ^ exponent`. -/
def beyondDoubles (mantissa : Nat) (exponent : Int) : Bool :=
  let size := (Nat.toDigits 10 mantissa).length
  if mantissa == 0 then false
  else if exponent + size > 320 then true
  else if exponent + size < 300 then false
  else decide ((1 <<< 1024 - 1 <<< 970) * Nat.pow 10 (-exponent).toNat ≤
      mantissa * Nat.pow 10 exponent.toNat)

/-- The shape of a number: its sign, the digits of its three parts, and where it goes wrong. -/
structure NumberShape where
  /-- The number starts with a minus sign. -/
  negative : Bool
  /-- The digits of the whole part. -/
  whole : List UInt8
  /-- The digits behind the point, if there is one. -/
  fraction : Option (List UInt8)
  /-- The sign and the digits of the exponent, if there is one. -/
  exponent : Option (Bool × List UInt8)
  /-- The number of bytes. -/
  length : Nat
  /-- The number stops where a digit has to stand: at the end of the bytes (`true`) or at a byte
  that is no digit or one digit too many (`false`). -/
  broken : Option Bool

/-- The exponent at the start of the bytes: sign, digits and length. -/
def exponentOf : List UInt8 → Option (Bool × List UInt8 × Nat)
  | [] => none
  | e :: rest =>
    if e == ascii 'e' || e == ascii 'E' then
      let signed := match rest with
        | s :: _ => s == ascii '+' || s == ascii '-'
        | [] => false
      let negative := rest.head? == some (ascii '-')
      let digits := (if signed then rest.drop 1 else rest).takeWhile isDigit
      some (negative, digits, 1 + (if signed then 1 else 0) + digits.length)
    else none

/-- The shape of the number at the start of the bytes. -/
def numberShape (bytes : List UInt8) : NumberShape :=
  let negative := bytes.head? == some (ascii '-')
  let body := if negative then bytes.drop 1 else bytes
  let sign := if negative then 1 else 0
  let digits := body.takeWhile isDigit
  if digits.isEmpty then ⟨negative, [], none, none, sign, some body.isEmpty⟩
  else if digits.head? == some (ascii '0') && digits.length > 1 then
    ⟨negative, [], none, none, sign + 1, some false⟩
  else
    let rest := body.drop digits.length
    let point := rest.head? == some (ascii '.')
    let fraction := if point then (rest.drop 1).takeWhile isDigit else []
    let rest' := if point then rest.drop (1 + fraction.length) else rest
    let length := sign + digits.length + (if point then 1 + fraction.length else 0)
    if point && fraction.isEmpty then
      ⟨negative, digits, some [], none, length, some rest'.isEmpty⟩
    else match exponentOf rest' with
      | none => ⟨negative, digits, if point then some fraction else none, none, length, none⟩
      | some (negativeExponent, exponent, n) =>
        ⟨negative, digits, if point then some fraction else none,
          some (negativeExponent, exponent), length + n,
          if exponent.isEmpty then some (rest'.drop n).isEmpty else none⟩

/-- What reading a number of this shape gives: an unsigned integer stays exact, and a number
beyond all doubles is refused. -/
def NumberShape.read (s : NumberShape) : Except Fault Number :=
  match s.broken, s.fraction, s.exponent with
  | some atEnd, _, _ => .error (if atEnd then .truncated else .malformed)
  | none, none, none =>
    let n := digitsValue s.whole
    if !s.negative && n < UInt64.size then .ok (.natural n)
    else if beyondDoubles n 0 then .error .malformed
    else .ok .other
  | none, fraction, exponent =>
    let digits := fraction.getD []
    let (negative, power) := exponent.getD (false, [])
    let power : Int := if negative then -(digitsValue power) else digitsValue power
    if beyondDoubles (digitsValue (s.whole ++ digits)) (power - digits.length) then
      .error .malformed
    else .ok .other

/-- What passing over a number of this shape gives: a missing digit is a fault of form even at
the end. -/
def NumberShape.skip (s : NumberShape) : Except Fault Unit :=
  if s.broken.isSome then .error .malformed else .ok ()

/-- A lexeme spelled with letters. -/
def wordLexeme (word : String) (value : Lexeme) (bytes : List UInt8) : Lexeme × Nat :=
  let spelling := word.toList.map ascii
  if spelling.isPrefixOf bytes then (value, spelling.length)
  else if bytes.isPrefixOf spelling then (.invalid .truncated, bytes.length)
  else (.invalid .malformed, bytes.length)

/-- The lexeme at the start of nonempty bytes, and its length. An unusable lexeme takes all
bytes. -/
def lexeme : List UInt8 → Lexeme × Nat
  | [] => (.invalid .truncated, 0)
  | b :: rest =>
    match Char.ofNat b.toNat with
    | '\x7b' => (.openObject, 1)
    | '\x7d' => (.closeObject, 1)
    | '[' => (.openArray, 1)
    | ']' => (.closeArray, 1)
    | ':' => (.colon, 1)
    | ',' => (.comma, 1)
    | 'n' => wordLexeme "null" .null (b :: rest)
    | 't' => wordLexeme "true" (.boolean true) (b :: rest)
    | 'f' => wordLexeme "false" (.boolean false) (b :: rest)
    | '"' =>
      match skipText 0 rest with
      | .ok length => (.text (readText rest) (.ok ()), length + 1)
      | .error fault => (.text (readText rest) (.error fault), rest.length + 1)
    | c =>
      if c == '-' || Charset.isAsciiDigit c then
        let shape := numberShape (b :: rest)
        (.number shape.read shape.skip,
          if shape.broken.isSome then rest.length + 1 else shape.length)
      else (.invalid .malformed, rest.length + 1)

/-- The lexemes of bytes of which the first `skip` are already read. -/
def lexemesFrom : Nat → List UInt8 → List Lexeme
  | _, [] => []
  | skip + 1, _ :: rest => lexemesFrom skip rest
  | 0, b :: rest =>
    if isBlank b then lexemesFrom 0 rest
    else
      let (found, length) := lexeme (b :: rest)
      found :: lexemesFrom (length - 1) rest

/-- The lexemes of bytes. -/
def lexemes (bytes : List UInt8) : List Lexeme := lexemesFrom 0 bytes

end UnitLoader.Json
