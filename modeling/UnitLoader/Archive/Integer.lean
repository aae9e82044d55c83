import UnitLoader.Bytes

/-!
# Integers of variable length

A number up to 250 is one byte. A larger one is a byte that tells its size and then two, four or
eight bytes, the lowest first.
-/

namespace UnitLoader.Archive

/-- What a first byte can announce, besides a number of its own. -/
inductive IntegerKind where
  | bits16
  | bits32
  | bits64
  | bits128
  | reserved
  deriving DecidableEq, Repr

/-- The name of a kind in a message. -/
def IntegerKind.name : IntegerKind → String
  | .bits16 => "U16"
  | .bits32 => "U32"
  | .bits64 => "U64"
  | .bits128 => "U128"
  | .reserved => "Reserved"

/-- The largest number that is one byte. -/
def largestByte : Nat := 250

/-- What a first byte above the largest number announces. -/
def IntegerKind.ofByte (b : UInt8) : IntegerKind :=
  match b.toNat with
  | 251 => .bits16
  | 252 => .bits32
  | 253 => .bits64
  | 254 => .bits128
  | _ => .reserved

/-- The bytes of a number below 2^64. -/
def encodeInteger (n : Nat) : List UInt8 :=
  if n ≤ largestByte then [UInt8.ofNat n]
  else if n < UInt16.size then 251 :: Bytes.lowFirst 2 n
  else if n < UInt32.size then 252 :: Bytes.lowFirst 4 n
  else 253 :: Bytes.lowFirst 8 n

end UnitLoader.Archive
