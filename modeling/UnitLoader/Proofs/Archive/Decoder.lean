import UnitLoader.Archive.Body
import UnitLoader.Proofs.Bytes
import UnitLoader.Proofs.Text.Utf8

/-!
# Decoding what was encoded

`Reads d bytes a cost` says that the decoder `d` reads `a` from `bytes`, whatever stands behind them
and whatever the account shows, as long as it has room for `cost`. It is shown here for the numbers
of fixed size and of variable length.
-/

namespace UnitLoader

namespace Archive.Decoder

variable {α β : Type} {d : Decoder α} {f : α → Decoder β} {a : α} {bytes : List UInt8} {cost : Nat}

/-! ## Reading -/

/-- The decoder reads a value from the front of bytes and charges a cost. -/
def Reads (d : Decoder α) (bytes : List UInt8) (a : α) (cost : Nat) : Prop :=
  ∀ rest charged, charged + cost ≤ limit →
    d ⟨bytes ++ rest, charged⟩ = .ok (a, ⟨rest, charged + cost⟩)

/-- One decoder behind another goes on where the first one stopped. -/
theorem bind_of_ok {c after : Cursor} (h : d c = .ok (a, after)) : (d >>= f) c = f a after := by
  change (d c >>= fun p => f p.1 p.2) = _
  rw [h]
  rfl

/-- A decoder that gives a value of what another one read. -/
theorem Reads.map (hd : Reads d bytes a cost) (g : α → β) :
    Reads (do return g (← d)) bytes (g a) cost := by
  intro rest charged hroom
  rw [bind_of_ok (hd rest charged hroom)]
  rfl

/-- A charge for which the account has room is made. -/
theorem charge_of_le {amount charged : Nat} (h : charged + amount ≤ limit) (rest : List UInt8) :
    charge amount ⟨rest, charged⟩ = .ok ((), ⟨rest, charged + amount⟩) := if_pos h

theorem reads_bytes (bytes : List UInt8) : Reads (Decoder.bytes bytes.length) bytes bytes 0 := by
  intro rest charged _
  rw [Decoder.bytes, if_pos (by rw [List.length_append]; omega), List.take_left, List.drop_left]
  rfl

/-- A number of fixed size is read back. -/
theorem reads_fixed {n : Nat} (count : Nat) (h : n < Nat.pow 256 count) :
    Reads (fixed count) (Bytes.lowFirst count n) n 0 := by
  have hbytes := (reads_bytes (Bytes.lowFirst count n)).map Bytes.ofLowFirst
  rwa [Bytes.length_lowFirst, Bytes.ofLowFirst_lowFirst h] at hbytes

/-! ## Numbers of variable length -/

/-- A number of one byte is read back from it. -/
theorem toNat_ofNat_of_le {n : Nat} (h : n ≤ largestByte) : (UInt8.ofNat n).toNat = n :=
  UInt8.toNat_ofNat_of_lt' (Nat.lt_of_le_of_lt h (by decide))

/-- A small number is read back by the decoder of 32 bits. -/
theorem reads_integer32 {n : Nat} (h : n ≤ largestByte) :
    Reads integer32 (encodeInteger n) n 4 := by
  intro rest charged hroom
  have hbyte := toNat_ofNat_of_le h
  rw [encodeInteger, if_pos h, List.singleton_append]
  unfold integer32
  rw [bind_of_ok (charge_of_le hroom _)]
  -- The byte that follows is the number itself.
  change (if (UInt8.ofNat n).toNat ≤ largestByte then pure (UInt8.ofNat n).toNat else _ :
    Decoder Nat) ⟨rest, charged + 4⟩ = _
  rw [hbyte, if_pos h]
  rfl

/-- Every number of 64 bits is read back by their decoder, in whichever of the four widths it was
written. -/
theorem reads_integer64 {n : Nat} (h : n < UInt64.size) :
    Reads integer64 (encodeInteger n) n 8 := by
  intro rest charged hroom
  -- The charge, and the look at what is left, are the same for each width.
  have hhead (first : UInt8) (tail : List UInt8) : integer64 ⟨first :: tail, charged⟩ =
      behindFirst (tail.length + 1) first ⟨tail, charged + 8⟩ := by
    unfold integer64
    rw [bind_of_ok (charge_of_le hroom _)]
    rfl
  unfold encodeInteger
  split
  · rename_i hone
    rw [List.singleton_append, hhead, behindFirst, toNat_ofNat_of_le hone, if_pos hone]
    rfl
  split
  · rename_i htwo
    rw [List.cons_append, hhead]
    exact reads_fixed 2 htwo rest (charged + 8) hroom
  split
  · rename_i hfour
    rw [List.cons_append, hhead]
    exact reads_fixed 4 hfour rest (charged + 8) hroom
  · rw [List.cons_append, hhead]
    exact reads_fixed 8 h rest (charged + 8) hroom

end Archive.Decoder

end UnitLoader
