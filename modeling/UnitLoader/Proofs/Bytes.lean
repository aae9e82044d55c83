import UnitLoader.Bytes

/-!
# Numbers are read back from their bytes

`ofLowFirst_lowFirst` reads a number back from as many bytes as it fits into, and
`lowFirst_ofLowFirst` says that no other bytes of the same number write it.
-/

namespace UnitLoader.Bytes

theorem length_lowFirst (count n : Nat) : (lowFirst count n).length = count := by
  induction count generalizing n with
  | zero => rfl
  | succ count ih => rw [lowFirst, List.length_cons, ih]

/-- A number that fits is read back from its bytes. -/
theorem ofLowFirst_lowFirst {count n : Nat} (h : n < Nat.pow 256 count) :
    ofLowFirst (lowFirst count n) = n := by
  induction count generalizing n with
  | zero =>
    -- Only zero fits into no bytes.
    change n < 1 at h
    rw [lowFirst, ofLowFirst]
    omega
  | succ count ih =>
    have hrest : n / 256 < Nat.pow 256 count := by
      change n < Nat.pow 256 count * 256 at h
      exact Nat.div_lt_of_lt_mul (Nat.mul_comm _ _ ▸ h)
    have hbyte : (UInt8.ofNat (n % 256)).toNat = n % 256 :=
      UInt8.toNat_ofNat_of_lt' (Nat.mod_lt n (by decide))
    calc ofLowFirst (lowFirst (count + 1) n)
        = (UInt8.ofNat (n % 256)).toNat + 256 * ofLowFirst (lowFirst count (n / 256)) := rfl
      _ = n % 256 + 256 * (n / 256) := by rw [hbyte, ih hrest]
      _ = n := Nat.mod_add_div n 256

/-- Bytes write no number that does not fit into them. -/
theorem ofLowFirst_lt (bytes : List UInt8) : ofLowFirst bytes < Nat.pow 256 bytes.length := by
  induction bytes with
  | nil => exact Nat.one_pos
  | cons b rest ih =>
    have hbyte : b.toNat < 256 := b.toNat_lt
    change b.toNat + 256 * ofLowFirst rest < Nat.pow 256 rest.length * 256
    omega

/-- Bytes are those of the number that they write. -/
theorem lowFirst_ofLowFirst (bytes : List UInt8) :
    lowFirst bytes.length (ofLowFirst bytes) = bytes := by
  induction bytes with
  | nil => rfl
  | cons b rest ih =>
    have hbyte : b.toNat < 256 := b.toNat_lt
    have hlow : (b.toNat + 256 * ofLowFirst rest) % 256 = b.toNat := by omega
    have hhigh : (b.toNat + 256 * ofLowFirst rest) / 256 = ofLowFirst rest := by omega
    rw [ofLowFirst, List.length_cons, lowFirst, hlow, hhigh, ih, UInt8.ofNat_toNat]

end UnitLoader.Bytes
