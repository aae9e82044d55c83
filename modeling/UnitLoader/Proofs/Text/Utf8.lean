import UnitLoader.Text.Position
import UnitLoader.Text.Utf8

/-!
# UTF-8 is read back as it was written

`sequence_encodeChar` reads one character back from its bytes, whatever follows them, by one case
for each of the four widths. `decode_encode` follows by going through the text.

The other way round, a character is read from no other bytes than its own
(`eq_encodeChar_append_of_sequence`): the ranges of `secondRange?` leave out whatever a shorter
sequence writes. So the bytes that are accepted are those of the text that they are read as
(`decode_eq_ok_iff`).
-/

namespace UnitLoader.Text.Utf8

theorem toNat_byte {n : Nat} (h : n < 256) : (byte n).toNat = n :=
  UInt8.toNat_ofNat_of_lt' h

/-- The value of a character is no surrogate and below the end of the code space. -/
theorem toNat_valid (c : Char) : c.toNat < 0xD800 ∨ 0xDFFF < c.toNat ∧ c.toNat < 0x110000 := c.valid

/-- A character has as many bytes as its width says. -/
theorem length_encodeChar (c : Char) : (encodeChar c).length = c.utf8Size := by
  have hone : c.val ≤ 0x7F ↔ c.toNat < 0x80 := UInt32.le_iff_toNat_le.trans Nat.lt_succ_iff.symm
  have htwo : c.val ≤ 0x7FF ↔ c.toNat < 0x800 := UInt32.le_iff_toNat_le.trans Nat.lt_succ_iff.symm
  have hthree : c.val ≤ 0xFFFF ↔ c.toNat < 0x10000 :=
    UInt32.le_iff_toNat_le.trans Nat.lt_succ_iff.symm
  unfold encodeChar
  dsimp only
  split
  · exact (if_pos (hone.2 ‹_›)).symm
  refine Eq.trans ?_ (if_neg (fun h => ‹¬ c.toNat < 0x80› (hone.1 h))).symm
  split
  · exact (if_pos (htwo.2 ‹_›)).symm
  refine Eq.trans ?_ (if_neg (fun h => ‹¬ c.toNat < 0x800› (htwo.1 h))).symm
  split
  · exact (if_pos (hthree.2 ‹_›)).symm
  · exact (if_neg (fun h => ‹¬ c.toNat < 0x10000› (hthree.1 h))).symm

/-- The bytes of two texts stand behind each other. -/
theorem encode_append (text text' : List Char) :
    encode (text ++ text') = encode text ++ encode text' := List.flatMap_append

/-- The bytes of a text are as many as its length in bytes says. -/
theorem length_encode (text : List Char) : (encode text).length = byteLength text := by
  induction text with
  | nil => rfl
  | cons c rest ih =>
    rw [encode, List.flatMap_cons, List.length_append, ← encode, ih, length_encodeChar]
    rfl

/-! ## One character -/

/-- A byte that is written behind the first one continues a character. -/
theorem isContinuation_byte (n : Nat) : isContinuation (byte (0x80 + n % 64)) = true := by
  have hn : n % 64 < 64 := Nat.mod_lt n (by decide)
  rw [isContinuation, toNat_byte (by omega)]
  simp only [Bool.and_eq_true, decide_eq_true_eq]
  omega

/-- The second byte of a character of two bytes is one that may follow the first. -/
theorem secondRange?_two {n : Nat} (hlow : 0x80 ≤ n) (hhigh : n < 0x800) :
    secondRange? (0xC0 + n / 64) = some (0x80, 0xBF) := by
  unfold secondRange?
  rw [if_neg (by omega), if_pos (by omega)]

/-- The second byte of a character of three bytes is one that may follow the first: it is large
enough for the character to need three bytes, and the character is no surrogate. -/
theorem secondRange?_three {n : Nat} (hlow : 0x800 ≤ n) (hhigh : n < 0x10000)
    (hvalid : n < 0xD800 ∨ 0xDFFF < n) :
    ∃ low high, secondRange? (0xE0 + n / 4096) = some (low, high) ∧
      low ≤ 0x80 + n / 64 % 64 ∧ 0x80 + n / 64 % 64 ≤ high := by
  unfold secondRange?
  rw [if_neg (by omega), if_neg (by omega)]
  split
  · exact ⟨0xA0, 0xBF, rfl, by omega, by omega⟩
  · split
    · exact ⟨0x80, 0x9F, rfl, by omega, by omega⟩
    · rw [if_pos (by omega)]
      exact ⟨0x80, 0xBF, rfl, by omega, by omega⟩

/-- The second byte of a character of four bytes is one that may follow the first: it is large
enough for the character to need four bytes, and small enough for the code space. -/
theorem secondRange?_four {n : Nat} (hlow : 0x10000 ≤ n) (hhigh : n < 0x110000) :
    ∃ low high, secondRange? (0xF0 + n / 262144) = some (low, high) ∧
      low ≤ 0x80 + n / 4096 % 64 ∧ 0x80 + n / 4096 % 64 ≤ high := by
  unfold secondRange?
  rw [if_neg (by omega), if_neg (by omega), if_neg (by omega), if_neg (by omega),
    if_neg (by omega)]
  split
  · exact ⟨0x90, 0xBF, rfl, by omega, by omega⟩
  · split
    · exact ⟨0x80, 0xBF, rfl, by omega, by omega⟩
    · rw [if_pos (by omega)]
      exact ⟨0x80, 0x8F, rfl, by omega, by omega⟩

section

variable {b0 b1 b2 b3 : UInt8} {low high : Nat}

theorem sequence_one (h0 : b0.toNat < 0x80) (rest : List UInt8) :
    sequence (b0 :: rest) = .char (Char.ofNat b0.toNat) 1 := by
  unfold sequence
  exact if_pos h0

theorem sequence_two (h0 : 0x80 ≤ b0.toNat) (hrange : secondRange? b0.toNat = some (low, high))
    (h1 : low ≤ b1.toNat ∧ b1.toNat ≤ high) (hwidth : b0.toNat < 0xE0) (rest : List UInt8) :
    sequence (b0 :: b1 :: rest) =
      .char (Char.ofNat ((b0.toNat - 0xC0) * 64 + (b1.toNat - 0x80))) 2 := by
  unfold sequence
  dsimp only
  rw [if_neg (by omega), hrange]
  dsimp only
  rw [if_neg (by omega), if_pos hwidth]

theorem sequence_three (h0 : 0xE0 ≤ b0.toNat) (hrange : secondRange? b0.toNat = some (low, high))
    (h1 : low ≤ b1.toNat ∧ b1.toNat ≤ high) (h2 : isContinuation b2 = true)
    (hwidth : b0.toNat < 0xF0) (rest : List UInt8) :
    sequence (b0 :: b1 :: b2 :: rest) =
      .char (Char.ofNat
        ((b0.toNat - 0xE0) * 4096 + (b1.toNat - 0x80) * 64 + (b2.toNat - 0x80))) 3 := by
  unfold sequence
  dsimp only
  rw [if_neg (by omega), hrange]
  dsimp only
  rw [if_neg (by omega), if_neg (by omega), h2, if_neg (by decide), if_pos hwidth]

theorem sequence_four (h0 : 0xF0 ≤ b0.toNat) (hrange : secondRange? b0.toNat = some (low, high))
    (h1 : low ≤ b1.toNat ∧ b1.toNat ≤ high) (h2 : isContinuation b2 = true)
    (h3 : isContinuation b3 = true) (rest : List UInt8) :
    sequence (b0 :: b1 :: b2 :: b3 :: rest) =
      .char (Char.ofNat ((b0.toNat - 0xF0) * 262144 + (b1.toNat - 0x80) * 4096 +
        (b2.toNat - 0x80) * 64 + (b3.toNat - 0x80))) 4 := by
  unfold sequence
  dsimp only
  rw [if_neg (by omega), hrange]
  dsimp only
  rw [if_neg (by omega), if_neg (by omega), h2, if_neg (by decide), if_neg (by omega), h3,
    if_neg (by decide)]

end

/-- A character is read back from its bytes, whatever follows them. -/
theorem sequence_encodeChar (c : Char) (rest : List UInt8) :
    sequence (encodeChar c ++ rest) = .char c (encodeChar c).length := by
  have hvalid := toNat_valid c
  have hchar : Char.ofNat c.toNat = c := Char.ofNat_toNat c
  unfold encodeChar
  dsimp only
  split
  · -- One byte.
    rename_i hone
    have h0 := toNat_byte (show c.toNat < 256 by omega)
    rw [List.singleton_append, sequence_one (by omega), h0, hchar]
    rfl
  split
  · -- Two bytes.
    rename_i hone htwo
    have h0 := toNat_byte (show 0xC0 + c.toNat / 64 < 256 by omega)
    have h1 := toNat_byte (show 0x80 + c.toNat % 64 < 256 by omega)
    have hrange := secondRange?_two (by omega) htwo
    rw [← h0] at hrange
    rw [List.cons_append, List.singleton_append,
      sequence_two (by omega) hrange (by omega) (by omega), h0, h1]
    have hvalue : (0xC0 + c.toNat / 64 - 0xC0) * 64 + (0x80 + c.toNat % 64 - 0x80) = c.toNat := by
      omega
    rw [hvalue, hchar]
    rfl
  split
  · -- Three bytes.
    rename_i htwo hthree
    have h0 := toNat_byte (show 0xE0 + c.toNat / 4096 < 256 by omega)
    have h1 := toNat_byte (show 0x80 + c.toNat / 64 % 64 < 256 by omega)
    have h2 := toNat_byte (show 0x80 + c.toNat % 64 < 256 by omega)
    obtain ⟨low, high, hrange, hlow, hhigh⟩ :=
      secondRange?_three (by omega) hthree (hvalid.imp_right (·.1))
    rw [← h0] at hrange
    rw [List.cons_append, List.cons_append, List.singleton_append,
      sequence_three (by omega) hrange (by omega) (isContinuation_byte _) (by omega), h0, h1, h2]
    have hvalue : (0xE0 + c.toNat / 4096 - 0xE0) * 4096 + (0x80 + c.toNat / 64 % 64 - 0x80) * 64 +
        (0x80 + c.toNat % 64 - 0x80) = c.toNat := by omega
    rw [hvalue, hchar]
    rfl
  · -- Four bytes.
    rename_i hthree
    have h0 := toNat_byte (show 0xF0 + c.toNat / 262144 < 256 by omega)
    have h1 := toNat_byte (show 0x80 + c.toNat / 4096 % 64 < 256 by omega)
    have h2 := toNat_byte (show 0x80 + c.toNat / 64 % 64 < 256 by omega)
    have h3 := toNat_byte (show 0x80 + c.toNat % 64 < 256 by omega)
    obtain ⟨low, high, hrange, hlow, hhigh⟩ :=
      secondRange?_four (show 0x10000 ≤ c.toNat by omega) (by omega)
    rw [← h0] at hrange
    rw [List.cons_append, List.cons_append, List.cons_append, List.singleton_append,
      sequence_four (by omega) hrange (by omega) (isContinuation_byte _) (isContinuation_byte _),
      h0, h1, h2, h3]
    have hvalue : (0xF0 + c.toNat / 262144 - 0xF0) * 262144 +
        (0x80 + c.toNat / 4096 % 64 - 0x80) * 4096 + (0x80 + c.toNat / 64 % 64 - 0x80) * 64 +
        (0x80 + c.toNat % 64 - 0x80) = c.toNat := by omega
    rw [hvalue, hchar]
    rfl

/-! ## A text -/

/-- Bytes that belong to a character that was read are passed over. -/
theorem decodeFrom_append (done : Nat) (read rest : List UInt8) :
    decodeFrom done read.length (read ++ rest) = decodeFrom (done + read.length) 0 rest := by
  induction read generalizing done with
  | nil => rfl
  | cons b read ih =>
    rw [List.cons_append, List.length_cons, decodeFrom, ih]
    congr 1
    omega

/-- Reading goes on behind the bytes of a character. -/
theorem decodeFrom_encodeChar (done : Nat) (c : Char) (rest : List UInt8) :
    decodeFrom done 0 (encodeChar c ++ rest) =
      (decodeFrom (done + (encodeChar c).length) 0 rest).map (c :: ·) := by
  have hsequence := sequence_encodeChar c rest
  cases hbytes : encodeChar c with
  | nil =>
    -- No character is written with no bytes.
    have hlength := length_encodeChar c
    rw [hbytes] at hlength
    exact absurd hlength.symm (Nat.ne_of_gt c.utf8Size_pos)
  | cons b read =>
    rw [hbytes, List.cons_append] at hsequence
    rw [List.cons_append, decodeFrom, hsequence]
    dsimp only
    rw [List.length_cons, Nat.add_sub_cancel, decodeFrom_append]
    congr 2
    omega

/-- **The bytes of a text are read back as the text.** -/
theorem decode_encode (text : List Char) : decode (encode text) = .ok text := by
  -- The number of bytes that were read is told only in a fault, so it is free.
  suffices h : ∀ done, decodeFrom done 0 (encode text) = .ok text from h 0
  induction text with
  | nil => exact fun _ => rfl
  | cons c rest ih =>
    intro done
    rw [encode, List.flatMap_cons, ← encode, decodeFrom_encodeChar, ih]
    rfl

/-! ## No other bytes are read -/

/-- The character of a value that is no surrogate and in the code space. -/
theorem toNat_ofNat {n : Nat} (h : n < 0xD800 ∨ 0xDFFF < n ∧ n < 0x110000) :
    (Char.ofNat n).toNat = n := by
  have hvalid : n.isValidChar := h
  rw [Char.ofNat, dif_pos hvalid]
  rfl

/-- A byte is the one with its value. -/
theorem byte_eq {b : UInt8} {n : Nat} (h : n = b.toNat) : byte n = b := by
  rw [h]
  exact UInt8.ofNat_toNat

/-- What a first byte and the range of the byte behind it are: the first byte starts a sequence of
two to four bytes, the second one continues it, and four first bytes leave a narrower range. -/
structure SecondRange (first low high : Nat) : Prop where
  first_ge : 0xC2 ≤ first
  first_le : first ≤ 0xF4
  low_ge : 0x80 ≤ low
  high_le : high ≤ 0xBF
  /-- Three bytes write nothing that two could write. -/
  three : first = 0xE0 → 0xA0 ≤ low
  /-- Three bytes write no surrogate. -/
  surrogate : first = 0xED → high ≤ 0x9F
  /-- Four bytes write nothing that three could write. -/
  four : first = 0xF0 → 0x90 ≤ low
  /-- Four bytes write nothing beyond the code space. -/
  last : first = 0xF4 → high ≤ 0x8F

theorem secondRange_of_eq_some {first low high : Nat}
    (h : secondRange? first = some (low, high)) : SecondRange first low high := by
  unfold secondRange? at h
  repeat' split at h
  all_goals simp only [Option.some.injEq, Prod.mk.injEq, reduceCtorEq] at h
  all_goals constructor <;> omega

theorem isContinuation_iff {b : UInt8} :
    isContinuation b = true ↔ 0x80 ≤ b.toNat ∧ b.toNat < 0xC0 := by
  rw [isContinuation, Bool.and_eq_true, decide_eq_true_eq, decide_eq_true_eq]

section

variable {b0 b1 b2 b3 : UInt8} {low high : Nat}

/-- The character of one byte is written as this byte. -/
theorem encodeChar_one (h0 : b0.toNat < 0x80) : encodeChar (Char.ofNat b0.toNat) = [b0] := by
  have hvalue := toNat_ofNat (n := b0.toNat) (by omega)
  unfold encodeChar
  dsimp only
  rw [hvalue, if_pos h0, byte_eq rfl]

/-- The character of two bytes is written as these bytes. -/
theorem encodeChar_two (h : SecondRange b0.toNat low high)
    (h1 : low ≤ b1.toNat ∧ b1.toNat ≤ high) (hwidth : b0.toNat < 0xE0) :
    encodeChar (Char.ofNat ((b0.toNat - 0xC0) * 64 + (b1.toNat - 0x80))) = [b0, b1] := by
  have hfirst := h.first_ge
  have hlow := h.low_ge
  have hhigh := h.high_le
  generalize hn : (b0.toNat - 0xC0) * 64 + (b1.toNat - 0x80) = n
  have hvalue := toNat_ofNat (n := n) (by omega)
  unfold encodeChar
  dsimp only
  rw [hvalue, if_neg (by omega), if_pos (by omega), byte_eq (b := b0) (by omega),
    byte_eq (b := b1) (by omega)]

/-- The character of three bytes is written as these bytes. -/
theorem encodeChar_three (h : SecondRange b0.toNat low high)
    (h1 : low ≤ b1.toNat ∧ b1.toNat ≤ high) (h2 : isContinuation b2 = true)
    (hfirst : 0xE0 ≤ b0.toNat) (hwidth : b0.toNat < 0xF0) :
    encodeChar (Char.ofNat
      ((b0.toNat - 0xE0) * 4096 + (b1.toNat - 0x80) * 64 + (b2.toNat - 0x80))) = [b0, b1, b2] := by
  have hlow := h.low_ge
  have hhigh := h.high_le
  have hthree := h.three
  have hsurrogate := h.surrogate
  rw [isContinuation_iff] at h2
  generalize hn : (b0.toNat - 0xE0) * 4096 + (b1.toNat - 0x80) * 64 + (b2.toNat - 0x80) = n
  have hvalue := toNat_ofNat (n := n) (by omega)
  unfold encodeChar
  dsimp only
  rw [hvalue, if_neg (by omega), if_neg (by omega), if_pos (by omega),
    byte_eq (b := b0) (by omega), byte_eq (b := b1) (by omega), byte_eq (b := b2) (by omega)]

/-- The character of four bytes is written as these bytes. -/
theorem encodeChar_four (h : SecondRange b0.toNat low high)
    (h1 : low ≤ b1.toNat ∧ b1.toNat ≤ high) (h2 : isContinuation b2 = true)
    (h3 : isContinuation b3 = true) (hfirst : 0xF0 ≤ b0.toNat) :
    encodeChar (Char.ofNat ((b0.toNat - 0xF0) * 262144 + (b1.toNat - 0x80) * 4096 +
      (b2.toNat - 0x80) * 64 + (b3.toNat - 0x80))) = [b0, b1, b2, b3] := by
  have hlow := h.low_ge
  have hhigh := h.high_le
  have hlast := h.first_le
  have hfour := h.four
  have hend := h.last
  rw [isContinuation_iff] at h2 h3
  generalize hn : (b0.toNat - 0xF0) * 262144 + (b1.toNat - 0x80) * 4096 +
    (b2.toNat - 0x80) * 64 + (b3.toNat - 0x80) = n
  have hvalue := toNat_ofNat (n := n) (by omega)
  unfold encodeChar
  dsimp only
  rw [hvalue, if_neg (by omega), if_neg (by omega), if_neg (by omega),
    byte_eq (b := b0) (by omega), byte_eq (b := b1) (by omega), byte_eq (b := b2) (by omega),
    byte_eq (b := b3) (by omega)]

end

/-- A character is read from no other bytes than those it is written as. -/
theorem eq_encodeChar_append_of_sequence {bytes : List UInt8} {c : Char} {length : Nat}
    (h : sequence bytes = .char c length) : ∃ rest, bytes = encodeChar c ++ rest := by
  cases bytes with
  | nil => contradiction
  | cons b0 bytes =>
    unfold sequence at h
    dsimp only at h
    split at h
    · -- One byte.
      rename_i hone
      obtain ⟨rfl, -⟩ := Sequence.char.inj h
      exact ⟨bytes, by rw [encodeChar_one hone, List.singleton_append]⟩
    split at h
    · contradiction
    · contradiction
    rename_i low high b1 bytes hrange
    split at h
    · contradiction
    rename_i h1
    have hsecond := secondRange_of_eq_some hrange
    split at h
    · -- Two bytes.
      rename_i hwidth
      obtain ⟨rfl, -⟩ := Sequence.char.inj h
      exact ⟨bytes, by rw [encodeChar_two hsecond (by omega) hwidth]; rfl⟩
    rename_i htwo
    split at h
    · contradiction
    rename_i b2 bytes
    split at h
    · contradiction
    rename_i h2
    rw [Bool.not_eq_true', Bool.not_eq_false] at h2
    split at h
    · -- Three bytes.
      rename_i hwidth
      obtain ⟨rfl, -⟩ := Sequence.char.inj h
      exact ⟨bytes, by
        rw [encodeChar_three hsecond (by omega) h2 (Nat.not_lt.1 htwo) hwidth]; rfl⟩
    rename_i hthree
    split at h
    · contradiction
    rename_i b3 bytes
    split at h
    · contradiction
    -- Four bytes.
    rename_i h3
    rw [Bool.not_eq_true', Bool.not_eq_false] at h3
    obtain ⟨rfl, -⟩ := Sequence.char.inj h
    exact ⟨bytes, by rw [encodeChar_four hsecond (by omega) h2 h3 (Nat.not_lt.1 hthree)]; rfl⟩

/-- What is read from bytes that are not empty is a character and what is read behind it. -/
theorem decodeFrom_cons_eq_ok {done : Nat} {b : UInt8} {bytes : List UInt8} {text : List Char}
    (h : decodeFrom done 0 (b :: bytes) = .ok text) :
    ∃ c rest text', b :: bytes = encodeChar c ++ rest ∧ text = c :: text' ∧
      decodeFrom (done + (encodeChar c).length) 0 rest = .ok text' := by
  obtain ⟨c, length, hsequence⟩ : ∃ c length, sequence (b :: bytes) = .char c length := by
    rw [decodeFrom] at h
    split at h
    · exact ⟨_, _, ‹_›⟩
    · contradiction
    · contradiction
  obtain ⟨rest, hbytes⟩ := eq_encodeChar_append_of_sequence hsequence
  rw [hbytes, decodeFrom_encodeChar] at h
  cases hrest : decodeFrom (done + (encodeChar c).length) 0 rest with
  | error failure =>
    rw [hrest] at h
    contradiction
  | ok text' =>
    rw [hrest] at h
    exact ⟨c, rest, text', hbytes, (Except.ok.inj h).symm, hrest⟩

/-- Bytes are read as a text exactly if they are the bytes of the text. -/
theorem decode_eq_ok_iff {bytes : List UInt8} {text : List Char} :
    decode bytes = .ok text ↔ encode text = bytes := by
  refine ⟨fun h => ?_, fun h => h ▸ decode_encode text⟩
  -- Again the number of bytes that were read is free.
  suffices hread : ∀ done, decodeFrom done 0 bytes = .ok text → encode text = bytes from hread 0 h
  clear h
  induction text generalizing bytes with
  | nil =>
    intro done h
    cases bytes with
    | nil => rfl
    | cons b bytes =>
      obtain ⟨c, rest, text', -, htext, -⟩ := decodeFrom_cons_eq_ok h
      contradiction
  | cons c text ih =>
    intro done h
    cases bytes with
    | nil => exact absurd (Except.ok.inj h) (by simp)
    | cons b bytes =>
      obtain ⟨c', rest, text', hbytes, htext, hrest⟩ := decodeFrom_cons_eq_ok h
      obtain ⟨rfl, rfl⟩ := List.cons.inj htext
      rw [hbytes, encode, List.flatMap_cons, ← encode, ih _ hrest]

end UnitLoader.Text.Utf8
