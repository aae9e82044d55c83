import Mathlib.Data.List.Flatten
import UnitLoader.Proofs.Archive.RoundTrip

/-!
# What keeps an archive from being opened

Nothing but the two limits keeps a written archive from being opened: if the file is not too large
and decoding it is not charged too much (`WithinLimits`), every name stands for the bytes of its
first entry (`ofFile_of_withinLimits`). This reaches a little further than `ofFile_encodeFile`,
whose bound leaves room for the charges that are given back. Of an archive within the limits every
part is within them too.
-/

namespace UnitLoader.Archive

/-- A file is not too large, and decoding it is not charged too much. -/
structure WithinLimits (content : List UInt8) : Prop where
  /-- The file is not too large. -/
  size : content.length ≤ largestFile
  /-- The account does not pass its limit. -/
  charge : decodeBody (content.drop mark.length) ≠ .error .limitExceeded

variable {part list : List Entry}

/-- What was written is within the limits if the file is not too large and the account has room for
the highest that it gets. -/
theorem withinLimits_iff : WithinLimits (encodeFile list) ↔
    (encodeFile list).length ≤ largestFile ∧
      Decoder.bodyCharge + Decoder.peak list ≤ Decoder.limit := by
  have hdrop : (encodeFile list).drop mark.length = encodeBody list := List.drop_left
  constructor
  · rintro ⟨hsize, hcharge⟩
    rw [hdrop, decodeBody_encodeBody (writable_of_size hsize)] at hcharge
    refine ⟨hsize, ?_⟩
    by_contra hroom
    rw [if_neg hroom] at hcharge
    exact hcharge rfl
  · rintro ⟨hsize, hroom⟩
    refine ⟨hsize, ?_⟩
    rw [hdrop, decodeBody_encodeBody (writable_of_size hsize), if_pos hroom]
    exact fun hfault => by cases hfault

/-- Entries that count for no more than a file may have are within the limits. -/
theorem withinLimits_of_weight (h : weight list ≤ largestFile) :
    WithinLimits (encodeFile list) := by
  have hsize : (encodeFile list).length ≤ largestFile := (length_encodeFile_le list).trans h
  have hroom : Decoder.bodyCharge + Decoder.peak list ≤ Decoder.limit :=
    (Decoder.peak_le_weight list).trans h
  exact withinLimits_iff.2 ⟨hsize, hroom⟩

/-- A written archive within the limits is opened, and its index is that of the entries. -/
theorem ofFile_eq_of_withinLimits (location : String) (h : WithinLimits (encodeFile list)) :
    ofFile location (.ok (encodeFile list)) = .ok ⟨location, index list⟩ := by
  obtain ⟨hsize, hroom⟩ := withinLimits_iff.1 h
  refine ofFile_of_decodeBody location hsize ?_
  rw [decodeBody_encodeBody (writable_of_size hsize), if_pos hroom]

/-- A written archive within the limits is opened: every name stands for the bytes of its first
entry. -/
theorem ofFile_of_withinLimits (location : String) (h : WithinLimits (encodeFile list)) :
    ∃ a, ofFile location (.ok (encodeFile list)) = .ok a ∧
      ∀ name, a.get? name = (list.find? (·.name = name)).map Entry.bytes :=
  ⟨_, ofFile_eq_of_withinLimits location h, get?_index list⟩

/-! ## Parts -/

/-- A larger number takes no fewer bytes. -/
theorem length_encodeInteger_mono {m n : Nat} (h : m ≤ n) :
    (encodeInteger m).length ≤ (encodeInteger n).length := by
  have hlength (n : Nat) : (encodeInteger n).length =
      if n ≤ largestByte then 1 else if n < UInt16.size then 3 else
        if n < UInt32.size then 5 else 9 := by
    unfold encodeInteger
    repeat' split
    all_goals simp [Bytes.length_lowFirst]
  have hbounds : largestByte < UInt16.size ∧ UInt16.size < UInt32.size := by decide
  rw [hlength, hlength]
  split_ifs <;> omega

/-- Fewer entries make no larger file. -/
theorem length_encodeFile_le_of_sublist (h : part.Sublist list) :
    (encodeFile part).length ≤ (encodeFile list).length := by
  have hcount := length_encodeInteger_mono h.length_le
  have hentries : (part.flatMap Entry.encode).length ≤ (list.flatMap Entry.encode).length :=
    (h.flatMap Entry.encode).length_le
  unfold encodeFile encodeBody
  rw [List.length_append, List.length_append, List.length_append, List.length_append,
    List.length_append, List.length_append]
  omega

/-- A part of what is within the limits is within them. -/
theorem WithinLimits.of_sublist (h : WithinLimits (encodeFile list)) (hpart : part.Sublist list) :
    WithinLimits (encodeFile part) := by
  obtain ⟨hsize, hroom⟩ := withinLimits_iff.1 h
  have hpeak := Decoder.peak_le_of_sublist hpart
  have hfile := length_encodeFile_le_of_sublist hpart
  exact withinLimits_iff.2 ⟨by omega, by omega⟩

end UnitLoader.Archive
