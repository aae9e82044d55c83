import Mathlib.Algebra.Ring.Nat
import UnitLoader.Proofs.Archive.Decoder

/-!
# What decoding an archive is charged

All entries are charged for ahead, and the charge for an entry is given back before its content is
charged for. So the account goes up and down, and what counts is the highest that it gets.

`Charges d bytes a cost` is the account of a decoder that gives nothing back: it reads `a` from
`bytes` if there is room for `cost`, and else the account stops it. Such facts are put together as
the decoders are, by `Charges.bind`. Entries are read by an induction that carries the charge for
those that are still to come, and their `peak` is how far the account rises meanwhile. `body_eq` is
the account of a whole archive: what was written is read exactly if `bodyCharge + peak list` is
within the limit.
-/

namespace UnitLoader.Archive

namespace Decoder

variable {α β : Type} {d : Decoder α} {f : α → Decoder β} {a : α} {b : β}
  {bytes more : List UInt8} {cost price : Nat}

/-! ## Decoders that give nothing back -/

/-- The decoder reads a value from the front of bytes and charges a cost for it, or the account has
no room for the cost and stops the decoder. -/
def Charges (d : Decoder α) (bytes : List UInt8) (a : α) (cost : Nat) : Prop :=
  ∀ rest charged, charged ≤ limit → d ⟨bytes ++ rest, charged⟩ =
    if charged + cost ≤ limit then .ok (a, ⟨rest, charged + cost⟩) else .error .limitExceeded

/-- A decoder behind another does not run where the first one stops. -/
theorem bind_of_error {c : Cursor} {fault : Fault} (h : d c = .error fault) :
    (d >>= f) c = .error fault := by
  change (d c >>= fun p => f p.1 p.2) = _
  rw [h]
  rfl

theorem Charges.bind (hd : Charges d bytes a cost) (hf : Charges (f a) more b price) :
    Charges (d >>= f) (bytes ++ more) b (cost + price) := by
  intro rest charged hcharged
  have hfirst := hd (more ++ rest) charged hcharged
  rw [List.append_assoc]
  by_cases hroom : charged + cost ≤ limit
  · rw [if_pos hroom] at hfirst
    rw [bind_of_ok hfirst, hf rest (charged + cost) hroom, Nat.add_assoc]
  · rw [if_neg hroom] at hfirst
    have hboth : ¬charged + (cost + price) ≤ limit := by omega
    rw [bind_of_error hfirst, if_neg hboth]

theorem charges_pure (a : α) : Charges (pure a : Decoder α) [] a 0 := by
  intro rest charged hcharged
  rw [Nat.add_zero, if_pos hcharged]
  rfl

/-- A decoder that gives a value of what another one read. -/
theorem Charges.map (hd : Charges d bytes a cost) (g : α → β) :
    Charges (do return g (← d)) bytes (g a) cost := by
  have hmapped := hd.bind (f := fun value => pure (g value)) (charges_pure (g a))
  rwa [List.append_nil, Nat.add_zero] at hmapped

/-- What starts with a charge and is read where there is room for it is stopped nowhere else. -/
theorem charges_of_charge {amount : Nat} {next : Unit → Decoder α}
    (h : Reads (charge amount >>= next) bytes a amount) :
    Charges (charge amount >>= next) bytes a amount := by
  intro rest charged _
  by_cases hroom : charged + amount ≤ limit
  · rw [if_pos hroom]
    exact h rest charged hroom
  · rw [if_neg hroom]
    exact bind_of_error (if_neg hroom)

theorem charges_integer64 {n : Nat} (h : n < UInt64.size) :
    Charges integer64 (encodeInteger n) n 8 := charges_of_charge (reads_integer64 h)

/-- The length of a byte string is charged for, and then the bytes are. -/
theorem charges_byteString {bytes : List UInt8} (h : bytes.length < UInt64.size) :
    Charges byteString (encodeBytes bytes) bytes (8 + bytes.length) := by
  have hcontent : Reads (charge bytes.length >>= fun _ => Decoder.bytes bytes.length)
      bytes bytes bytes.length := by
    intro rest charged hroom
    rw [bind_of_ok (charge_of_le hroom _)]
    exact reads_bytes bytes rest (charged + bytes.length) hroom
  exact (charges_integer64 h).bind (charges_of_charge hcontent)

theorem charges_text {name : String} (h : Text.byteLength name.toList < UInt64.size) :
    Charges text (encodeBytes (Text.Utf8.encode name.toList)) name
      (8 + Text.byteLength name.toList) := by
  rw [← Text.Utf8.length_encode] at h ⊢
  have hread : Charges text (encodeBytes (Text.Utf8.encode name.toList) ++ []) name
      (8 + (Text.Utf8.encode name.toList).length + 0) := by
    refine (charges_byteString h).bind ?_
    rw [Text.Utf8.decode_encode]
    dsimp only
    rw [String.ofList_toList]
    exact charges_pure name
  rwa [List.append_nil, Nat.add_zero] at hread

/-! ## Entries -/

/-- What stays charged for an entry that was read. -/
def entryCost (e : Entry) : Nat := 8 + Text.byteLength e.name.toList + (8 + e.bytes.length)

/-- An entry is read after the charge made ahead for it was given back. -/
theorem entry_eq {e : Entry} (hname : Text.byteLength e.name.toList < UInt64.size)
    (hbytes : e.bytes.length < UInt64.size) {charged : Nat} (hcharged : charged ≤ limit)
    (rest : List UInt8) :
    entry ⟨e.encode ++ rest, charged + entryCharge⟩ =
      if charged + entryCost e ≤ limit then .ok (e, ⟨rest, charged + entryCost e⟩)
      else .error .limitExceeded := by
  have hrefund : refund entryCharge ⟨e.encode ++ rest, charged + entryCharge⟩ =
      .ok ((), ⟨e.encode ++ rest, charged⟩) := by
    rw [refund, Nat.add_sub_cancel]
  have hcontent := (charges_text hname).bind
    (f := fun name => do return Entry.mk name (← byteString))
    ((charges_byteString hbytes).map (Entry.mk e.name))
  unfold entry
  rw [bind_of_ok hrefund]
  exact hcontent rest charged hcharged

/-- How far the account rises while entries are charged for ahead and then read. -/
def peak : List Entry → Nat
  | [] => 0
  | e :: others => max (entryCharge * (others.length + 1)) (entryCost e + peak others)

/-- It rises at least as far as the charge made ahead. -/
theorem entryCharge_mul_le_peak (list : List Entry) : entryCharge * list.length ≤ peak list := by
  cases list with
  | nil => exact Nat.le_refl 0
  | cons e others => exact Nat.le_max_left _ _

/-- With fewer entries it rises no further. -/
theorem peak_le_of_sublist {part list : List Entry} (h : part.Sublist list) :
    peak part ≤ peak list := by
  induction h with
  | slnil => exact Nat.le_refl 0
  | cons e _ ih =>
    rw [peak]
    omega
  | @cons_cons part list e hpart ih =>
    have hahead : entryCharge * (part.length + 1) ≤ entryCharge * (list.length + 1) :=
      Nat.mul_le_mul_left _ (Nat.succ_le_succ hpart.length_le)
    rw [peak, peak]
    omega

/-- Entries are read one after the other if the account has room for their peak. -/
theorem entries_eq {list : List Entry}
    (hname : ∀ e ∈ list, Text.byteLength e.name.toList < UInt64.size)
    (hbytes : ∀ e ∈ list, e.bytes.length < UInt64.size) {charged : Nat}
    (hcharged : charged + entryCharge * list.length ≤ limit) (rest : List UInt8) :
    entries list.length ⟨list.flatMap Entry.encode ++ rest, charged + entryCharge * list.length⟩ =
      if charged + peak list ≤ limit then
        .ok (list, ⟨rest, charged + (list.map entryCost).sum⟩)
      else .error .limitExceeded := by
  induction list generalizing charged with
  | nil =>
    -- Nothing is read, so nothing is charged.
    have hroom : charged + peak [] ≤ limit := hcharged
    rw [if_pos hroom]
    rfl
  | cons e others ih =>
    obtain ⟨hname, hnames⟩ := List.forall_mem_cons.1 hname
    obtain ⟨hbytes, hothers⟩ := List.forall_mem_cons.1 hbytes
    have hahead := entryCharge_mul_le_peak others
    rw [List.length_cons, Nat.mul_succ] at hcharged
    -- The first entry gives its charge back, and the charge for the others is left.
    have hfirst := entry_eq hname hbytes
      (show charged + entryCharge * others.length ≤ limit by omega)
      (others.flatMap Entry.encode ++ rest)
    have hleft : charged + entryCharge * others.length + entryCost e =
        charged + entryCost e + entryCharge * others.length := by omega
    rw [hleft] at hfirst
    rw [List.length_cons, List.flatMap_cons, List.append_assoc, Nat.mul_succ, ← Nat.add_assoc, peak,
      Nat.mul_succ, List.map_cons, List.sum_cons, ← Nat.add_assoc charged]
    unfold entries
    by_cases hroom : charged + entryCost e + entryCharge * others.length ≤ limit
    · rw [if_pos hroom] at hfirst
      rw [bind_of_ok hfirst]
      have hbehind := ih hnames hothers hroom
      by_cases hpeak : charged + entryCost e + peak others ≤ limit
      · rw [if_pos hpeak] at hbehind
        rw [bind_of_ok hbehind, if_pos (by omega)]
        rfl
      · rw [if_neg hpeak] at hbehind
        rw [bind_of_error hbehind, if_neg (by omega)]
    · rw [if_neg hroom] at hfirst
      rw [bind_of_error hfirst, if_neg (by omega)]

end Decoder

/-! ## The whole archive -/

/-- The lengths in an archive can be written: they are numbers of 64 bits. -/
structure Writable (list : List Entry) : Prop where
  /-- The number of entries. -/
  count : list.length < UInt64.size
  /-- The length of each name. -/
  name : ∀ e ∈ list, Text.byteLength e.name.toList < UInt64.size
  /-- The length of the bytes behind each name. -/
  bytes : ∀ e ∈ list, e.bytes.length < UInt64.size

namespace Decoder

/-- What the version and the number of entries are charged for. -/
def bodyCharge : Nat := 12

/-- The version and the entries are read back if the account has room for the peak of the entries,
and else the account stops the decoder. -/
theorem body_eq {list : List Entry} (h : Writable list) (rest : List UInt8) :
    body ⟨encodeBody list ++ rest, 0⟩ =
      if bodyCharge + peak list ≤ limit then
        .ok ((formatVersion, list), ⟨rest, bodyCharge + (list.map entryCost).sum⟩)
      else .error .limitExceeded := by
  have hlimit : bodyCharge ≤ limit := by decide
  have hahead := entryCharge_mul_le_peak list
  -- The version and the number of entries charge twelve before the first entry.
  have hversion := reads_integer32 (show formatVersion ≤ largestByte by decide)
    (encodeInteger list.length ++ (list.flatMap Entry.encode ++ rest)) 0 (by decide)
  have hcount := reads_integer64 h.count (list.flatMap Entry.encode ++ rest) (0 + 4) hlimit
  unfold body encodeBody
  rw [List.append_assoc, List.append_assoc, bind_of_ok hversion, bind_of_ok hcount]
  change (charge (entryCharge * list.length) >>= _) ⟨_, bodyCharge⟩ = _
  by_cases hcharge : bodyCharge + entryCharge * list.length ≤ limit
  · rw [bind_of_ok (charge_of_le hcharge _)]
    have hentries := entries_eq h.name h.bytes hcharge rest
    by_cases hpeak : bodyCharge + peak list ≤ limit
    · rw [if_pos hpeak] at hentries ⊢
      rw [bind_of_ok hentries]
      rfl
    · rw [if_neg hpeak] at hentries ⊢
      exact bind_of_error hentries
  · rw [if_neg (by omega)]
    exact bind_of_error (if_neg hcharge)

end Decoder

/-- What was written is decoded if the account has room for it. -/
theorem decodeBody_encodeBody {list : List Entry} (h : Writable list) :
    decodeBody (encodeBody list) =
      if Decoder.bodyCharge + Decoder.peak list ≤ Decoder.limit then .ok (formatVersion, list)
      else .error .limitExceeded := by
  have hbody := Decoder.body_eq h []
  rw [List.append_nil] at hbody
  unfold decodeBody
  rw [show Decoder.body.run ⟨encodeBody list, 0⟩ = _ from hbody]
  split <;> rfl

end UnitLoader.Archive
