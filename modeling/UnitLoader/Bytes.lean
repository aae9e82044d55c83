/-!
# Numbers as bytes

A number of fixed size is written with its lowest byte first.
-/

namespace UnitLoader.Bytes

/-- A number as `count` bytes, the lowest first. -/
def lowFirst : Nat → Nat → List UInt8
  | 0, _ => []
  | count + 1, n => UInt8.ofNat (n % 256) :: lowFirst count (n / 256)

/-- The number that bytes write, the lowest first. -/
def ofLowFirst : List UInt8 → Nat
  | [] => 0
  | b :: rest => b.toNat + 256 * ofLowFirst rest

end UnitLoader.Bytes
