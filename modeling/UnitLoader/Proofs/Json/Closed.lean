import UnitLoader.Proofs.Json.Text

/-!
# Strings that are closed

`Closes bytes n` says that bytes behind an opening quote close the string, and how many of them
belong to it, by the parts that a string has. Those are the strings that are passed over
(`closes_of_skipText`, `Closes.skips`), and every string that is read is one of them
(`closes_of_readBytes`), although what is read takes two numeric escapes at once where they stand
for one character.

Whether a string is closed, and what it holds, does not depend on the bytes behind it
(`Closes.append`, `Closes.readBytes_append`), and a byte that is no quote closes none
(`Closes.of_append`).
-/

namespace UnitLoader.Json

open UnitLoader.Text

variable {bytes : List UInt8} {n : Nat} {w : UInt8}

/-! ## The parts of a string -/

/-- The bytes behind an opening quote close the string, and so many of them belong to it. Its parts
are bytes that stand for themselves, escapes of one letter and escapes of four digits. -/
inductive Closes : List UInt8 → Nat → Prop
  | quote (rest : List UInt8) : Closes (ascii '"' :: rest) 1
  | plain {b : UInt8} {rest : List UInt8} {n : Nat} (hquote : b ≠ ascii '"')
      (hlow : 0x20 ≤ b.toNat) (hslash : b ≠ ascii '\\') (h : Closes rest n) :
      Closes (b :: rest) (n + 1)
  | letter {e value : UInt8} {rest : List UInt8} {n : Nat} (hu : e ≠ ascii 'u')
      (he : escapedByte? e = some value) (h : Closes rest n) :
      Closes (ascii '\\' :: e :: rest) (n + 2)
  | digits {bytes : List UInt8} {value n : Nat} (hfour : hexFour bytes = .ok value)
      (h : Closes (bytes.drop 4) n) : Closes (ascii '\\' :: ascii 'u' :: bytes) (n + 6)

/-- Four digits are four bytes, and those behind them do not matter. -/
theorem hexFour_eq_ok {value : Nat} (h : hexFour bytes = .ok value) :
    ∃ a b c d rest, bytes = a :: b :: c :: d :: rest ∧
      ∀ more, hexFour (a :: b :: c :: d :: more) = .ok value := by
  unfold hexFour at h
  split at h
  · exact ⟨_, _, _, _, _, rfl, fun _ => h⟩
  · contradiction

theorem not_closes_nil : ¬ Closes [] n := fun h => by cases h

/-- A numeric escape has four digits, and behind them the string goes on. -/
theorem Closes.behind_digits (h : Closes (ascii '\\' :: ascii 'u' :: bytes) n) :
    ∃ value m, hexFour bytes = .ok value ∧ Closes (bytes.drop 4) m ∧ n = m + 6 := by
  generalize hall : ascii '\\' :: ascii 'u' :: bytes = all at h
  cases h with
  | quote rest => exact absurd (List.cons.inj hall).1 (by decide)
  | plain hquote hlow hslash h => exact absurd (List.cons.inj hall).1.symm hslash
  | letter hu he h => exact absurd (List.cons.inj (List.cons.inj hall).2).1.symm hu
  | digits hfour h =>
    obtain rfl := (List.cons.inj (List.cons.inj hall).2).2
    exact ⟨_, _, hfour, h, rfl⟩

/-- Behind the bytes that are already read the string goes on. -/
theorem skipText_drop {skip : Nat} (h : skipText skip bytes = .ok n) :
    ∃ m, skipText 0 (bytes.drop skip) = .ok m ∧ n = m + skip := by
  induction skip generalizing bytes n with
  | zero => exact ⟨n, h, rfl⟩
  | succ skip ih =>
    cases bytes with
    | nil => contradiction
    | cons b rest =>
      rw [skipText] at h
      cases hrest : skipText skip rest with
      | error fault =>
        rw [hrest] at h
        contradiction
      | ok k =>
        rw [hrest] at h
        obtain rfl := Except.ok.inj h
        obtain ⟨m, hm, rfl⟩ := ih hrest
        exact ⟨m, hm, Nat.add_assoc ..⟩

/-- A string that is passed over is closed. -/
theorem closes_of_skipText (h : skipText 0 bytes = .ok n) : Closes bytes n := by
  induction hlength : bytes.length using Nat.strongRecOn generalizing bytes n with
  | ind length ih =>
    cases bytes with
    | nil => contradiction
    | cons b rest =>
      rw [skipText.eq_def] at h
      dsimp only at h
      -- What was passed over behind the first part closes the string there.
      have hbehind {skip k : Nat} (h : (skipText skip rest).map (· + 1) = .ok k) :
          ∃ m, Closes (rest.drop skip) m ∧ k = m + skip + 1 := by
        cases hrest : skipText skip rest with
        | error fault =>
          rw [hrest] at h
          contradiction
        | ok j =>
          rw [hrest] at h
          obtain rfl := Except.ok.inj h
          obtain ⟨m, hm, rfl⟩ := skipText_drop hrest
          refine ⟨m, ih (rest.drop skip).length ?_ hm rfl, rfl⟩
          rw [← hlength, List.length_drop, List.length_cons]
          omega
      split at h
      · -- The quote closes the string.
        rename_i hquote
        obtain rfl := beq_iff_eq.1 hquote
        obtain rfl := Except.ok.inj h
        exact .quote rest
      split at h
      · contradiction
      split at h
      · -- An escape is passed over with what belongs to it: four digits, or a letter.
        rename_i hslash
        obtain rfl := beq_iff_eq.1 hslash
        split at h
        · contradiction
        split at h
        · rename_i hu
          obtain rfl := beq_iff_eq.1 hu
          split at h
          · contradiction
          · rename_i hfour
            obtain ⟨m, hm, rfl⟩ := hbehind h
            exact .digits hfour hm
        split at h
        · rename_i hu he
          obtain ⟨value, he⟩ := Option.isSome_iff_exists.1 he
          obtain ⟨m, hm, rfl⟩ := hbehind h
          exact .letter (fun heq => hu (beq_iff_eq.2 heq)) he hm
        · contradiction
      · -- Any other byte is passed over by itself.
        rename_i hquote hlow hslash
        obtain ⟨m, hm, rfl⟩ := hbehind h
        exact .plain (fun heq => hquote (beq_iff_eq.2 heq)) (Nat.not_lt.1 hlow)
          (fun heq => hslash (beq_iff_eq.2 heq)) hm

/-- And one that is closed is passed over. -/
theorem Closes.skips (h : Closes bytes n) : skipText 0 bytes = .ok n := by
  induction h with
  | quote rest => exact if_pos rfl
  | plain hquote hlow hslash _ ih =>
    have hskip := (holds_byte hquote hslash hlow).skip
    rw [← List.singleton_append, hskip, ih]
    rfl
  | letter hu he _ ih =>
    have hskip := (holds_letter hu he).skip
    exact (hskip _).trans (by rw [ih]; rfl)
  | @digits bytes value n hfour _ ih =>
    obtain ⟨a, b, c, d, rest, rfl, -⟩ := hexFour_eq_ok hfour
    rw [skipText, if_neg (by decide), if_neg (by decide), if_pos (by decide),
      if_pos (by decide), hfour]
    dsimp only [skipText]
    change skipText 0 rest = _ at ih
    rw [ih]
    rfl

/-- More bytes behind a string that is closed do not matter. -/
theorem Closes.append (h : Closes bytes n) (more : List UInt8) : Closes (bytes ++ more) n := by
  induction h with
  | quote rest => exact .quote (rest ++ more)
  | plain hquote hlow hslash _ ih => exact .plain hquote hlow hslash ih
  | letter hu he _ ih => exact .letter hu he ih
  | digits hfour _ ih =>
    obtain ⟨a, b, c, d, rest, rfl, hmore⟩ := hexFour_eq_ok hfour
    exact .digits (hmore (rest ++ more)) ih

/-- A string is not closed by what is no quote. -/
theorem Closes.of_append (hw : w ≠ ascii '"') (h : Closes (bytes ++ [w]) n) : Closes bytes n := by
  -- There is something behind each of the parts, so the byte stands behind it.
  have hbehind (first : List UInt8) {bytes rest : List UInt8} {n : Nat} (h : Closes rest n)
      (hall : bytes ++ [w] = first ++ rest) :
      ∃ rest', rest' ++ [w] = rest ∧ bytes = first ++ rest' := by
    rcases List.append_eq_append_iff.1 hall with ⟨between, rfl, hlast⟩ | ⟨rest', rfl, rfl⟩
    · cases between with
      | nil => exact ⟨[], hlast, by rw [List.append_nil, List.append_nil]⟩
      | cons b between =>
        obtain ⟨-, hnil⟩ := List.append_eq_nil_iff.1 (List.cons.inj hlast).2.symm
        exact absurd (hnil ▸ h) not_closes_nil
    · exact ⟨rest', rfl, rfl⟩
  generalize hall : bytes ++ [w] = all at h
  induction h generalizing bytes with
  | quote rest =>
    -- The byte is no quote, so the closing one is in front of it.
    cases bytes with
    | nil => exact absurd (List.cons.inj hall).1 hw
    | cons b bytes =>
      obtain ⟨rfl, -⟩ := List.cons.inj hall
      exact .quote bytes
  | @plain b _ _ hquote hlow hslash h ih =>
    obtain ⟨rest', hrest, rfl⟩ := hbehind [b] h hall
    exact .plain hquote hlow hslash (ih hrest)
  | @letter e _ _ _ hu he h ih =>
    obtain ⟨rest', hrest, rfl⟩ := hbehind [ascii '\\', e] h hall
    exact .letter hu he (ih hrest)
  | digits hfour h ih =>
    obtain ⟨a, b, c, d, rest, rfl, hmore⟩ := hexFour_eq_ok hfour
    obtain ⟨rest', hrest, rfl⟩ :=
      hbehind [ascii '\\', ascii 'u', a, b, c, d] h hall
    exact .digits (hmore rest') (ih hrest)

/-! ## What a string holds -/

/-- What a numeric escape stands for takes four digits, or two escapes of four digits. -/
theorem unicodeEscape_eq_ok {c : Char} {length : Nat} (h : unicodeEscape bytes = .ok (c, length)) :
    ∃ value, hexFour bytes = .ok value ∧ (length = 4 ∨
      ∃ hex value', bytes.drop 4 = ascii '\\' :: ascii 'u' :: hex ∧ hexFour hex = .ok value' ∧
        length = 10) := by
  unfold unicodeEscape at h
  split at h
  · contradiction
  · rename_i value hfour
    refine ⟨value, hfour, ?_⟩
    split at h
    · contradiction
    split at h
    · -- It is no surrogate, so the four digits are all.
      exact .inl (Prod.mk.inj (Except.ok.inj h)).2.symm
    -- A leading surrogate was read, and a second escape follows.
    split at h
    · contradiction
    rename_i b rest hdrop
    split at h
    · contradiction
    rename_i hslash
    split at h
    · contradiction
    rename_i u hex
    split at h
    · contradiction
    rename_i hu
    split at h
    · contradiction
    rename_i value' hfour'
    split at h
    · contradiction
    obtain rfl : b = ascii '\\' := by simpa using hslash
    obtain rfl : u = ascii 'u' := by simpa using hu
    exact .inr ⟨hex, value', hdrop, hfour', (Prod.mk.inj (Except.ok.inj h)).2.symm⟩

/-- Numeric escapes are passed over one by one, also where two of them stand for one character. -/
theorem Closes.of_unicodeEscape {c : Char} {length : Nat}
    (hescape : unicodeEscape bytes = .ok (c, length)) (h : Closes (bytes.drop length) n) :
    ∃ m, Closes (ascii '\\' :: ascii 'u' :: bytes) m := by
  obtain ⟨value, hfour, rfl | ⟨hex, value', hdrop, hfour', rfl⟩⟩ := unicodeEscape_eq_ok hescape
  · exact ⟨n + 6, .digits hfour h⟩
  · have hhex : bytes.drop 10 = hex.drop 4 := by
      rw [← List.drop_drop (i := 6) (j := 4), hdrop]
      rfl
    rw [hhex] at h
    refine ⟨n + 6 + 6, .digits hfour ?_⟩
    rw [hdrop]
    exact .digits hfour' h

/-- Behind what a numeric escape takes the string goes on. -/
theorem Closes.behind_unicodeEscape {c : Char} {length : Nat}
    (h : Closes (ascii '\\' :: ascii 'u' :: bytes) n)
    (hescape : unicodeEscape bytes = .ok (c, length)) :
    length ≤ bytes.length ∧ ∃ m, m < n ∧ Closes (bytes.drop length) m := by
  obtain ⟨value, m, hfour, hdigits, rfl⟩ := h.behind_digits
  obtain ⟨a, b, c', d, rest, rfl, -⟩ := hexFour_eq_ok hfour
  obtain ⟨-, -, rfl | ⟨hex, value', hdrop, hfour', rfl⟩⟩ := unicodeEscape_eq_ok hescape
  · exact ⟨Nat.le_add_left .., m, Nat.lt_add_of_pos_right (by decide), hdigits⟩
  · rw [hdrop] at hdigits
    obtain ⟨-, m', -, hbehind, rfl⟩ := hdigits.behind_digits
    obtain ⟨a', b', c'', d', rest', rfl, -⟩ := hexFour_eq_ok hfour'
    obtain rfl : rest = _ := hdrop
    exact ⟨Nat.le_add_left .., m', by omega, hbehind⟩

/-- And bytes behind a string that is closed do not change what its escapes stand for. -/
theorem Closes.unicodeEscape_append (h : Closes (ascii '\\' :: ascii 'u' :: bytes) n)
    (more : List UInt8) : unicodeEscape (bytes ++ more) = unicodeEscape bytes := by
  obtain ⟨value, m, hfour, hdigits, rfl⟩ := h.behind_digits
  obtain ⟨a, b, c, d, rest, rfl, hmore⟩ := hexFour_eq_ok hfour
  change Closes rest m at hdigits
  unfold unicodeEscape
  rw [List.cons_append, List.cons_append, List.cons_append, List.cons_append, hmore, hmore]
  dsimp only
  split
  · rfl
  split
  · rfl
  -- Only a second escape is read further.
  cases hdigits with
  | quote rest => rfl
  | plain hquote hlow hslash h =>
    simp only [List.cons_append, List.drop_succ_cons, List.drop_zero, bne_iff_ne.2 hslash]
    rfl
  | letter hu he h =>
    simp only [List.cons_append, List.drop_succ_cons, List.drop_zero, bne_iff_ne.2 hu]
    rfl
  | digits hfour' h =>
    obtain ⟨a', b', c', d', rest', rfl, hmore'⟩ := hexFour_eq_ok hfour'
    simp only [List.cons_append, List.drop_succ_cons, List.drop_zero, hmore']

/-- Bytes that belong to an escape are passed over. -/
theorem readBytes_drop (skip : Nat) (bytes : List UInt8) :
    readBytes skip bytes = readBytes 0 (bytes.drop skip) := by
  induction skip generalizing bytes with
  | zero => rfl
  | succ skip ih =>
    cases bytes with
    | nil => rfl
    | cons b rest => exact ih rest

/-- A string that is read is closed. -/
theorem closes_of_readBytes {held : List UInt8} (h : readBytes 0 bytes = .ok held) :
    ∃ n, Closes bytes n := by
  induction hlength : bytes.length using Nat.strongRecOn generalizing bytes held with
  | ind length ih =>
    cases bytes with
    | nil => contradiction
    | cons b rest =>
      rw [readBytes.eq_def] at h
      dsimp only at h
      -- What was read behind the first part closes the string there.
      have hbehind {skip : Nat} {held : List UInt8} {add : List UInt8 → List UInt8}
          (h : (readBytes skip rest).map add = .ok held) : ∃ m, Closes (rest.drop skip) m := by
        cases hrest : readBytes skip rest with
        | error fault =>
          rw [hrest] at h
          contradiction
        | ok held =>
          rw [readBytes_drop] at hrest
          refine ih (rest.drop skip).length ?_ hrest rfl
          rw [← hlength, List.length_drop, List.length_cons]
          omega
      split at h
      · rename_i hquote
        obtain rfl := beq_iff_eq.1 hquote
        exact ⟨1, .quote rest⟩
      split at h
      · contradiction
      split at h
      · -- An escape: two of them may make one character, and both stand in the string.
        rename_i hslash
        obtain rfl := beq_iff_eq.1 hslash
        split at h
        · contradiction
        split at h
        · rename_i hu
          obtain rfl := beq_iff_eq.1 hu
          split at h
          · contradiction
          · rename_i hescape
            obtain ⟨m, hm⟩ := hbehind h
            exact hm.of_unicodeEscape hescape
        rename_i hu
        split at h
        · contradiction
        · rename_i value he
          obtain ⟨m, hm⟩ := hbehind h
          exact ⟨m + 2, .letter (fun heq => hu (beq_iff_eq.2 heq)) he hm⟩
      · -- Any other byte stands for itself.
        rename_i hquote hlow hslash
        obtain ⟨m, hm⟩ := hbehind h
        exact ⟨m + 1, .plain (fun heq => hquote (beq_iff_eq.2 heq)) (Nat.not_lt.1 hlow)
          (fun heq => hslash (beq_iff_eq.2 heq)) hm⟩

/-- Behind an escape with four digits the string goes on. -/
theorem readBytes_unicodeEscape {c : Char} {length : Nat}
    (h : unicodeEscape bytes = .ok (c, length)) :
    readBytes 0 (ascii '\\' :: ascii 'u' :: bytes) =
      (readBytes 0 (bytes.drop length)).map (Utf8.encodeChar c ++ ·) := by
  rw [readBytes, if_neg (by decide), if_neg (by decide), if_pos (by decide), if_pos (by decide), h]
  exact congrArg (Except.map _) (readBytes_drop _ _)

/-- Unless the escape stands for no character. -/
theorem readBytes_unicodeEscape_error {fault : Fault} (h : unicodeEscape bytes = .error fault) :
    readBytes 0 (ascii '\\' :: ascii 'u' :: bytes) = .error fault := by
  rw [readBytes, if_neg (by decide), if_neg (by decide), if_pos (by decide), if_pos (by decide), h]

/-- What a closed string holds does not depend on the bytes behind it. -/
theorem Closes.readBytes_append (h : Closes bytes n) (more : List UInt8) :
    readBytes 0 (bytes ++ more) = readBytes 0 bytes := by
  induction n using Nat.strongRecOn generalizing bytes with
  | ind n ih =>
    cases h with
    | quote rest => rfl
    | @plain b rest n hquote hlow hslash h =>
      have hread := (holds_byte hquote hslash hlow).read
      have hrest := ih n (Nat.lt_succ_self n) h
      calc readBytes 0 (b :: rest ++ more)
          = (readBytes 0 (rest ++ more)).map ([b] ++ ·) := hread (rest ++ more)
        _ = (readBytes 0 rest).map ([b] ++ ·) := by rw [hrest]
        _ = readBytes 0 (b :: rest) := (hread rest).symm
    | @letter e value rest n hu he h =>
      have hread := (holds_letter hu he).read
      have hrest := ih n (Nat.lt_add_of_pos_right (by decide)) h
      calc readBytes 0 (ascii '\\' :: e :: rest ++ more)
          = (readBytes 0 (rest ++ more)).map ([value] ++ ·) := hread (rest ++ more)
        _ = (readBytes 0 rest).map ([value] ++ ·) := by rw [hrest]
        _ = readBytes 0 (ascii '\\' :: e :: rest) := (hread rest).symm
    | @digits bytes value n hfour h =>
      have hall : Closes (ascii '\\' :: ascii 'u' :: bytes) (n + 6) := .digits hfour h
      have hescape := hall.unicodeEscape_append more
      rw [List.cons_append, List.cons_append]
      -- The four digits may need the next escape to make a character, and both stand in the string.
      cases hcase : unicodeEscape bytes with
      | error fault =>
        rw [readBytes_unicodeEscape_error hcase,
          readBytes_unicodeEscape_error (hescape.trans hcase)]
      | ok p =>
        obtain ⟨hlength, m, hm, hbehind⟩ := hall.behind_unicodeEscape hcase
        rw [readBytes_unicodeEscape hcase, readBytes_unicodeEscape (hescape.trans hcase),
          List.drop_append_of_le_length hlength, ih m hm hbehind]

/-- So a string that is not closed is neither read nor passed over. -/
theorem closes_of_readText {text : List Char} (h : readText bytes = .ok text) :
    ∃ n, Closes bytes n := by
  unfold readText at h
  split at h
  · contradiction
  · rename_i hread
    exact closes_of_readBytes hread

theorem Closes.readText_append (h : Closes bytes n) (more : List UInt8) :
    readText (bytes ++ more) = readText bytes := by
  rw [readText, h.readBytes_append more, readText]

end UnitLoader.Json
