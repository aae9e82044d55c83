import UnitLoader.Syntax.Name

/-!
# Literals

`literalLength?` measures the literal that a text starts with: strings, byte strings and C strings
in their quoted and raw forms, bytes, characters, and numbers, each with an optional suffix.
-/

namespace UnitLoader.Syntax

open UnitLoader.Text

/-- What a quoted literal holds. -/
inductive LiteralKind where
  /-- Characters. -/
  | text
  /-- Bytes, written in ASCII. -/
  | bytes
  /-- Bytes without a null byte. -/
  | cText
  deriving DecidableEq, Repr

/-- The character may stand in a literal of the kind as it is. -/
def LiteralKind.admits (kind : LiteralKind) (c : Char) : Bool :=
  match kind with
  | .text => true
  | .bytes => Charset.isAscii c
  | .cText => c != '\x00'

/-- The value of the hexadecimal digits of a numeric escape: at most six, at least one, with
underscores behind the first, up to a closing brace. Gives the value and the length. -/
def unicodeDigits? : Nat → Nat → List Char → Option (Nat × Nat)
  | _, _, [] => none
  | value, count, c :: rest =>
    if c == '_' && count > 0 then (unicodeDigits? value count rest).map fun (v, n) => (v, n + 1)
    else if c == '\x7d' && count > 0 then some (value, 1)
    else if !Charset.isHexDigit c || count == 6 then none
    else
      let digit :=
        if Charset.isAsciiDigit c then c.toNat - '0'.toNat
        else if 'a' ≤ c then c.toNat - 'a'.toNat + 10
        else c.toNat - 'A'.toNat + 10
      (unicodeDigits? (value * 16 + digit) (count + 1) rest).map fun (v, n) => (v, n + 1)

/-- The value and the length of a numeric escape behind its `u`. -/
def unicodeEscape? : List Char → Option (Nat × Nat)
  | '\x7b' :: rest =>
    match unicodeDigits? 0 0 rest with
    | some (value, n) => if Nat.isValidChar value then some (value, n + 1) else none
    | none => none
  | _ => none

/-- The length of a line continuation behind its backslash: the line ending and all blanks and
line endings that follow. Something has to stand behind it. -/
def continuationLength? : List Char → Option Nat
  | [] => none
  | '\r' :: '\n' :: rest => (continuationLength? rest).map (· + 2)
  | '\r' :: _ => none
  | c :: rest =>
    if c == ' ' || c == '\t' || c == '\n' then (continuationLength? rest).map (· + 1) else some 0

/-- The length of a two-digit escape with its `x`, in a literal of the kind. -/
def byteEscapeLength? (kind : LiteralKind) (digits : List Char) : Option Nat :=
  match digits with
  | a :: b :: _ =>
    if !Charset.isHexDigit a || !Charset.isHexDigit b then none
    else match kind with
      | .text => if '0' ≤ a ∧ a ≤ '7' then some 3 else none
      | .bytes => some 3
      | .cText => if a == '0' && b == '0' then none else some 3
  | _ => none

/-- The length of an escape behind its backslash, line continuations apart. -/
def shortEscapeLength? (kind : LiteralKind) : List Char → Option Nat
  | [] => none
  | c :: rest =>
    if c == 'x' then byteEscapeLength? kind rest
    else if c == 'n' || c == 'r' || c == 't' || c == '\\' || c == '\'' || c == '"' then some 1
    else if c == '0' then (if kind = .cText then none else some 1)
    else if c == 'u' && kind ≠ .bytes then
      match unicodeEscape? rest with
      | some (value, n) => if kind = .cText ∧ value = 0 then none else some (n + 1)
      | none => none
    else none

/-- The length of an escape behind its backslash. -/
def escapeLength? (kind : LiteralKind) (text : List Char) : Option Nat :=
  match text with
  | '\n' :: _ | '\r' :: _ => continuationLength? text
  | _ => shortEscapeLength? kind text

/-- The length of a quoted literal behind its opening quote; the first `skip` characters belong
to an escape that is already read. A carriage return has to be part of a line ending. -/
def quotedLength? (kind : LiteralKind) : Nat → List Char → Option Nat
  | _, [] => none
  | skip + 1, _ :: rest => (quotedLength? kind skip rest).map (· + 1)
  | 0, '"' :: _ => some 1
  | 0, '\r' :: rest =>
    if rest.head? = some '\n' then (quotedLength? kind 1 rest).map (· + 1) else none
  | 0, '\\' :: rest =>
    match escapeLength? kind rest with
    | some n => (quotedLength? kind n rest).map (· + 1)
    | none => none
  | 0, c :: rest => if kind.admits c then (quotedLength? kind 0 rest).map (· + 1) else none

/-- What is skipped adds its length. -/
theorem quotedLength?_skip (kind : LiteralKind) (skipped rest : List Char) :
    quotedLength? kind skipped.length (skipped ++ rest) =
      (quotedLength? kind 0 rest).map (· + skipped.length) := by
  induction skipped with
  | nil => simp
  | cons c skipped ih =>
    rw [List.length_cons, List.cons_append, quotedLength?, ih, Option.map_map]
    rfl

/-- The length of a raw body with its terminator, a quote and `hashes` hash signs. -/
def rawBodyLength? (kind : LiteralKind) (hashes : Nat) : List Char → Option Nat
  | [] => none
  | '"' :: rest =>
    if (List.replicate hashes '#').isPrefixOf rest then some (hashes + 1)
    else (rawBodyLength? kind hashes rest).map (· + 1)
  | '\r' :: '\n' :: rest => (rawBodyLength? kind hashes rest).map (· + 2)
  | '\r' :: _ => none
  | c :: rest =>
    if kind.admits c then (rawBodyLength? kind hashes rest).map (· + 1) else none

/-- The length of a raw literal behind its letters. At most 255 hash signs surround it. -/
def rawLength? (kind : LiteralKind) (text : List Char) : Option Nat :=
  let hashes := (text.takeWhile (· == '#')).length
  match text.drop hashes with
  | '"' :: body =>
    if 255 < hashes then none else (rawBodyLength? kind hashes body).map (· + (hashes + 1))
  | _ => none

/-- The length of a byte or character literal behind its opening apostrophe. -/
def characterLength? (kind : LiteralKind) : List Char → Option Nat
  | [] => none
  | '\\' :: rest =>
    match shortEscapeLength? kind rest with
    | some n => if (rest.drop n).head? = some '\'' then some (n + 2) else none
    | none => none
  | c :: rest =>
    if kind.admits c then (if rest.head? = some '\'' then some 2 else none) else none

/-- A digit or an underscore between digits. -/
def isDigitPart (c : Char) : Bool := Charset.isAsciiDigit c || c == '_'

/-- The length of an exponent behind its letter: a sign, digits and underscores. `none` if it has
no digit or a second sign. -/
def exponentLength? : Bool → Bool → List Char → Option Nat
  | _, hasDigit, [] => if hasDigit then some 0 else none
  | hasSign, hasDigit, c :: rest =>
    if c == '+' || c == '-' then
      if hasDigit then some 0
      else if hasSign then none
      else (exponentLength? true false rest).map (· + 1)
    else if Charset.isAsciiDigit c then (exponentLength? hasSign true rest).map (· + 1)
    else if c == '_' then (exponentLength? hasSign hasDigit rest).map (· + 1)
    else if hasDigit then some 0 else none

/-- The length of the digits of a number with a point or an exponent. A point is no part of the
number if a name or a second point follows it. -/
def fractionalLength? (text : List Char) : Option Nat :=
  let whole := (text.takeWhile isDigitPart).length
  let isExponent := fun (rest : List Char) => rest.head? == some 'e' || rest.head? == some 'E'
  match text.drop whole with
  | '.' :: rest =>
    let blocked := match rest with
      | next :: _ => next == '.' || isNameStart next
      | [] => false
    if blocked then none
    else
      let fraction := (rest.takeWhile isDigitPart).length
      let behind := rest.drop fraction
      let length := whole + 1 + fraction
      if isExponent behind then
        match exponentLength? false false (behind.drop 1) with
        | some n => some (length + 1 + n)
        | none => some length
      else some length
  | behind =>
    if isExponent behind then
      (exponentLength? false false (behind.drop 1)).map (· + (whole + 1))
    else none

/-- The value of a digit up to base sixteen. -/
def digitValue? (c : Char) : Option Nat :=
  if '0' ≤ c ∧ c ≤ '9' then some (c.toNat - '0'.toNat)
  else if 'a' ≤ c ∧ c ≤ 'f' then some (c.toNat - 'a'.toNat + 10)
  else if 'A' ≤ c ∧ c ≤ 'F' then some (c.toNat - 'A'.toNat + 10)
  else none

/-- The length of the digits of a whole number in a base; a decimal digit that the base does not
have is no number at all. -/
def digitsLength? (base : Nat) : Bool → List Char → Option Nat
  | found, [] => if found then some 0 else none
  | found, c :: rest =>
    if c == '_' then
      if !found && base == 10 then none else (digitsLength? base found rest).map (· + 1)
    else match digitValue? c with
      | some digit =>
        if digit < base then (digitsLength? base true rest).map (· + 1)
        else if Charset.isAsciiDigit c then none
        else if found then some 0 else none
      | none => if found then some 0 else none

/-- The length of a whole number without its suffix. -/
def wholeLength? : List Char → Option Nat
  | '0' :: 'x' :: rest => (digitsLength? 16 false rest).map (· + 2)
  | '0' :: 'o' :: rest => (digitsLength? 8 false rest).map (· + 2)
  | '0' :: 'b' :: rest => (digitsLength? 2 false rest).map (· + 2)
  | text => digitsLength? 10 false text

/-- The length of a number whose digits take `length` characters: a suffix belongs to it, and no
character of a name may follow. -/
def withSuffix? (text : List Char) (length : Nat) : Option Nat :=
  let total := length + nameLength (text.drop length)
  match text.drop total with
  | next :: _ => if Charset.isIdentifierContinue next then none else some total
  | [] => some total

/-- The length of a number. -/
def numberLength? (text : List Char) : Option Nat :=
  match text with
  | c :: _ =>
    if Charset.isAsciiDigit c then
      match (fractionalLength? text).bind (withSuffix? text) with
      | some n => some n
      | none => (wholeLength? text).bind (withSuffix? text)
    else none
  | [] => none

/-- The length of a literal that starts with `lead` characters and goes on for `length?`, with
its suffix. -/
def suffixed (text : List Char) (lead : Nat) (length? : Option Nat) : Option Nat :=
  length?.map fun n => lead + n + nameLength (text.drop (lead + n))

/-- The length of the literal at the start of a text. -/
def literalLength? (text : List Char) : Option Nat :=
  match text with
  | '"' :: rest => suffixed text 1 (quotedLength? .text 0 rest)
  | 'r' :: rest => suffixed text 1 (rawLength? .text rest)
  | 'b' :: '"' :: rest => suffixed text 2 (quotedLength? .bytes 0 rest)
  | 'b' :: 'r' :: rest => suffixed text 2 (rawLength? .bytes rest)
  | 'c' :: '"' :: rest => suffixed text 2 (quotedLength? .cText 0 rest)
  | 'c' :: 'r' :: rest => suffixed text 2 (rawLength? .cText rest)
  | 'b' :: '\'' :: rest => suffixed text 2 (characterLength? .bytes rest)
  | '\'' :: rest => suffixed text 1 (characterLength? .text rest)
  | _ => numberLength? text

/-! ## Kinds of numbers -/

/-- The letter of an exponent starts one: a sign or a digit comes before any letter. -/
def startsExponent : Bool → List Char → Bool
  | hasDigit, [] => hasDigit
  | hasDigit, c :: rest =>
    if c == '_' then startsExponent hasDigit rest
    else if c == '+' || c == '-' then true
    else if Charset.isAsciiDigit c then startsExponent true rest
    else hasDigit

/-- The digits of a whole number and its suffix; `none` for a number with a point or an
exponent. -/
def wholeNumber? (text : List Char) : Option (List Char × List Char) :=
  let based := fun (base : Nat) (body : List Char) =>
    let digits := body.takeWhile fun c => c == '_' || ((digitValue? c).any (· < base))
    some (digits, body.drop digits.length)
  match text with
  | '0' :: 'x' :: body => based 16 body
  | '0' :: 'o' :: body => based 8 body
  | '0' :: 'b' :: body => based 2 body
  | c :: _ =>
    if Charset.isAsciiDigit c then
      let digits := text.takeWhile isDigitPart
      match text.drop digits.length with
      | '.' :: _ => none
      | e :: behind =>
        if (e == 'e' || e == 'E') && startsExponent false behind then none
        else some (digits, e :: behind)
      | [] => some (digits, [])
    else none
  | [] => none

/-- The number of a field that a literal stands for: a whole number of at most 32 bits, in any
base and without a suffix. -/
def fieldIndex? (text : List Char) : Option Nat :=
  match wholeNumber? text with
  | some (digits, []) =>
    let base := match text with
      | '0' :: 'x' :: _ => 16
      | '0' :: 'o' :: _ => 8
      | '0' :: 'b' :: _ => 2
      | _ => 10
    let value := (digits.filterMap digitValue?).foldl (fun n digit => n * base + digit) 0
    if value < UInt32.size then some value else none
  | _ => none

/-- The literal is a number with a point or an exponent. -/
def isFractional (text : List Char) : Bool :=
  match text with
  | c :: _ => Charset.isAsciiDigit c && (wholeNumber? text).isNone
  | [] => false

end UnitLoader.Syntax
