import UnitLoader.Archive.Integer
import UnitLoader.Text.Utf8

/-!
# Decoding under a limit

A `Decoder` reads bytes from the front and keeps account of how much it may still be asked to hold:
every number is charged with its full size and every byte string with its length, before it is
read. `charge` fails when the account passes the limit, so a length that no file can have is
refused before anything is set aside for it.
-/

namespace UnitLoader.Archive

/-- Why bytes cannot be decoded. -/
inductive Fault where
  /-- The bytes end; this many more are needed at least. -/
  | unexpectedEnd (missing : Nat)
  /-- The account passes the limit. -/
  | limitExceeded
  /-- A first byte announces a number that is too large to be expected here. -/
  | wrongInteger (expected found : IntegerKind)
  /-- A text is not UTF-8. -/
  | malformedText (failure : Text.Utf8.Failure)
  deriving DecidableEq, Repr

/-- The text of a number that may be missing. -/
def optionText : Option Nat → String
  | some n => "Some(" ++ toString n ++ ")"
  | none => "None"

/-- The text of a fault. -/
def Fault.message : Fault → String
  | .unexpectedEnd missing => "UnexpectedEnd \x7b additional: " ++ toString missing ++ " \x7d"
  | .limitExceeded => "LimitExceeded"
  | .wrongInteger expected found =>
    "InvalidIntegerType \x7b expected: " ++ expected.name ++ ", found: " ++ found.name ++ " \x7d"
  | .malformedText failure =>
    "Utf8 \x7b inner: Utf8Error \x7b valid_up_to: " ++ toString failure.validUpTo ++
      ", error_len: " ++ optionText failure.length ++ " \x7d \x7d"

/-- The bytes that are left, and the account. -/
structure Cursor where
  /-- What is left. -/
  rest : List UInt8
  /-- How much has been charged. -/
  charged : Nat

/-- Reads from the front of bytes and keeps account. -/
abbrev Decoder (α : Type) := StateT Cursor (Except Fault) α

namespace Decoder

/-- The most that the account may show. -/
def limit : Nat := 1 <<< 30

/-- Charges an amount. -/
def charge (amount : Nat) : Decoder Unit := fun c =>
  if c.charged + amount ≤ limit then .ok ((), { c with charged := c.charged + amount })
  else .error .limitExceeded

/-- Gives an amount back. -/
def refund (amount : Nat) : Decoder Unit := fun c =>
  .ok ((), { c with charged := c.charged - amount })

/-- Reads a number of bytes. -/
def bytes (count : Nat) : Decoder (List UInt8) := fun c =>
  if count ≤ c.rest.length then
    .ok (c.rest.take count, { c with rest := c.rest.drop count })
  else .error (.unexpectedEnd (count - c.rest.length))

/-- Reads one byte. -/
def byte : Decoder UInt8 := fun c =>
  match c.rest with
  | [] => .error (.unexpectedEnd 1)
  | b :: rest => .ok (b, { c with rest })

/-- The number of bytes that are left. -/
def remaining : Decoder Nat := fun c => .ok (c.rest.length, c)

/-- Reads a number of the given size, the lowest byte first. -/
def fixed (count : Nat) : Decoder Nat := do
  return Bytes.ofLowFirst (← bytes count)

/-- Refuses a first byte. -/
def refuse (expected : IntegerKind) (b : UInt8) : Decoder Nat := fun _ =>
  .error (.wrongInteger expected (.ofByte b))

/-- Reads a number of up to 32 bits. -/
def integer32 : Decoder Nat := do
  charge 4
  let b ← byte
  if b.toNat ≤ largestByte then return b.toNat
  match IntegerKind.ofByte b with
  | .bits16 => fixed 2
  | .bits32 => fixed 4
  | _ => refuse .bits32 b

/-- The bytes that a number of up to 64 bits takes at most. -/
def longestInteger : Nat := 9

/-- Reads what follows the first byte of a number of up to 64 bits. Where a refused byte has all the
room that a number of this kind can take, the fault names the smaller kind as the expected one. -/
def behindFirst (room : Nat) (b : UInt8) : Decoder Nat := do
  if b.toNat ≤ largestByte then return b.toNat
  match IntegerKind.ofByte b with
  | .bits16 => fixed 2
  | .bits32 => fixed 4
  | .bits64 => fixed 8
  | _ => refuse (if longestInteger ≤ room then .bits32 else .bits64) b

/-- Reads a number of up to 64 bits. -/
def integer64 : Decoder Nat := do
  charge 8
  let room ← remaining
  behindFirst room (← byte)

/-- Reads a byte string behind its length. -/
def byteString : Decoder (List UInt8) := do
  let length ← integer64
  charge length
  bytes length

/-- Reads a text behind its length in bytes. -/
def text : Decoder String := do
  match Text.Utf8.decode (← byteString) with
  | .ok cs => return String.ofList cs
  | .error failure => throw (.malformedText failure)

end Decoder

end UnitLoader.Archive
