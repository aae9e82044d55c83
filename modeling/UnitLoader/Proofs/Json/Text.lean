import UnitLoader.Json.Lexeme
import UnitLoader.Json.Writer
import UnitLoader.Proofs.Text.Utf8

/-!
# Strings and numbers are read as they are written

A string is written character by character, so it is enough to see what the bytes of one character
stand for inside a string: an escape of one letter, an escape of four digits, or the character
itself (`escape_cases`). `Holds bytes held` says that bytes inside a string stand for others, both
for a reader that wants them and for one that passes over them; it is composed along the text, and
the closing quote ends it (`readText_quotedBytes`, `skipText_quotedBytes`).

Of a number only the digits are written. They are all digits and the first one is no zero in front
of others, so they have the shape of a whole number (`numberShape_digitBytes`), whose value is the
number.
-/

namespace UnitLoader.Json

open UnitLoader.Text

/-! ## One character -/

/-- An ASCII character is one byte. -/
theorem encodeChar_of_ascii {c : Char} (h : c.toNat < 0x80) : Utf8.encodeChar c = [ascii c] :=
  if_pos h

theorem toNat_ascii {c : Char} (h : c.toNat < 0x80) : (ascii c).toNat = c.toNat :=
  Utf8.toNat_byte (Nat.lt_trans h (by decide))

/-- ASCII characters are told apart by their bytes. -/
theorem ascii_inj {c d : Char} (hc : c.toNat < 0x80) (hd : d.toNat < 0x80)
    (h : ascii c = ascii d) : c = d := by
  have hvalue : c.toNat = d.toNat := by rw [← toNat_ascii hc, h, toNat_ascii hd]
  rw [← Char.ofNat_toNat c, hvalue, Char.ofNat_toNat]

/-- The digits of a number of two places. -/
theorem toDigits_two {b n : Nat} (hb : 1 < b) (hlow : b ≤ n) (hhigh : n < b * b) :
    Nat.toDigits b n = [Nat.digitChar (n / b), Nat.digitChar (n % b)] := by
  have hquotient : n / b < b := Nat.div_lt_of_lt_mul hhigh
  rw [Nat.toDigits_of_base_le hb hlow, Nat.toDigits_of_lt_base hquotient]
  rfl

/-- A character stands inside a string as an escape of one letter, as an escape of four digits, or
as itself. -/
theorem escape_cases (c : Char) :
    (∃ e b, escape c = ['\\', e] ∧ e.toNat < 0x80 ∧ ascii e ≠ ascii 'u' ∧
      escapedByte? (ascii e) = some b ∧ Utf8.encodeChar c = [b]) ∨
    (c.toNat < 0x20 ∧ escape c =
      ['\\', 'u', '0', '0', Nat.digitChar (c.toNat / 16), Nat.digitChar (c.toNat % 16)]) ∨
    (0x20 ≤ c.toNat ∧ c ≠ '"' ∧ c ≠ '\\' ∧ escape c = [c]) := by
  unfold escape
  split
  case h_1 => exact .inl ⟨'"', _, rfl, by decide, by decide, rfl, rfl⟩
  case h_2 => exact .inl ⟨'\\', _, rfl, by decide, by decide, rfl, rfl⟩
  case h_3 => exact .inl ⟨'n', _, rfl, by decide, by decide, rfl, rfl⟩
  case h_4 => exact .inl ⟨'r', _, rfl, by decide, by decide, rfl, rfl⟩
  case h_5 => exact .inl ⟨'t', _, rfl, by decide, by decide, rfl, rfl⟩
  case h_6 => exact .inl ⟨'b', _, rfl, by decide, by decide, rfl, rfl⟩
  case h_7 => exact .inl ⟨'f', _, rfl, by decide, by decide, rfl, rfl⟩
  case h_8 hquote hslash _ _ _ _ _ =>
    split
    · -- Below 16 there is one digit, and a zero is put in front of it.
      rename_i hsmall
      refine .inr (.inl ⟨by omega, ?_⟩)
      rw [Nat.toDigits_of_lt_base hsmall, Nat.div_eq_of_lt hsmall, Nat.mod_eq_of_lt hsmall]
      rfl
    split
    · rename_i hlarge hsmall
      refine .inr (.inl ⟨hsmall, ?_⟩)
      rw [toDigits_two (by decide) (by omega) (by omega)]
      rfl
    · exact .inr (.inr ⟨by omega, hquote, hslash, rfl⟩)

/-! ## Inside a string -/

/-- Bytes inside a string stand for others, whatever follows them. -/
structure Holds (bytes held : List UInt8) : Prop where
  /-- They are passed over. -/
  skip : ∀ more, skipText 0 (bytes ++ more) = (skipText 0 more).map (· + bytes.length)
  /-- They are read as what they stand for. -/
  read : ∀ more, readBytes 0 (bytes ++ more) = (readBytes 0 more).map (held ++ ·)

theorem holds_nil : Holds [] [] where
  skip more := by
    rw [List.nil_append]
    cases skipText 0 more <;> rfl
  read more := by
    rw [List.nil_append]
    cases readBytes 0 more <;> rfl

theorem Holds.append {bytes held bytes' held' : List UInt8} (h : Holds bytes held)
    (h' : Holds bytes' held') : Holds (bytes ++ bytes') (held ++ held') where
  skip more := by
    rw [List.append_assoc, h.skip, h'.skip, List.length_append]
    cases skipText 0 more with
    | error fault => rfl
    | ok n => exact congrArg Except.ok (by dsimp only; omega)
  read more := by
    rw [List.append_assoc, h.read, h'.read]
    cases readBytes 0 more with
    | error fault => rfl
    | ok held'' => exact congrArg Except.ok (List.append_assoc held held' held'').symm

/-- A byte that ends no string, starts no escape and is no control character stands for itself. -/
theorem holds_byte {b : UInt8} (hquote : b ≠ ascii '"') (hslash : b ≠ ascii '\\')
    (hlow : 0x20 ≤ b.toNat) : Holds [b] [b] where
  skip more := by
    rw [List.singleton_append, skipText.eq_def]
    dsimp only
    rw [if_neg (by simpa using hquote),
      if_neg (Nat.not_lt.2 hlow), if_neg (by simpa using hslash)]
    rfl
  read more := by
    rw [List.singleton_append, readBytes.eq_def]
    dsimp only
    rw [if_neg (by simpa using hquote),
      if_neg (Nat.not_lt.2 hlow), if_neg (by simpa using hslash)]
    rfl

/-- So do bytes that are no ASCII. -/
theorem holds_of_high {bytes : List UInt8} (h : ∀ b ∈ bytes, 0x80 ≤ b.toNat) :
    Holds bytes bytes := by
  induction bytes with
  | nil => exact holds_nil
  | cons b rest ih =>
    have hb : 0x80 ≤ b.toNat := h b List.mem_cons_self
    have hascii (c : Char) (hc : (ascii c).toNat < 0x80) : b ≠ ascii c := by
      rintro rfl
      omega
    have hfirst : Holds [b] [b] :=
      holds_byte (hascii '"' (by decide)) (hascii '\\' (by decide)) (by omega)
    exact hfirst.append (ih fun b' hb' => h b' (List.mem_cons_of_mem b hb'))

/-- An escape of one letter stands for its byte. -/
theorem holds_letter {e b : UInt8} (hu : e ≠ ascii 'u') (hb : escapedByte? e = some b) :
    Holds [ascii '\\', e] [b] where
  skip more := by
    change skipText 0 (ascii '\\' :: e :: more) = _
    rw [skipText, if_neg (by decide), if_neg (by decide), if_pos (by decide),
      if_neg (by simpa using hu), hb, if_pos Option.isSome_some, skipText]
    cases skipText 0 more <;> rfl
  read more := by
    change readBytes 0 (ascii '\\' :: e :: more) = _
    rw [readBytes, if_neg (by decide), if_neg (by decide), if_pos (by decide),
      if_neg (by simpa using hu), hb]
    rfl

/-- The value of a digit of the base is what it is the digit of. -/
theorem hexValue?_digitChar {k : Nat} (h : k < 16) :
    hexValue? (ascii (Nat.digitChar k)) = some k := by
  have hall : ∀ k : Fin 16, hexValue? (ascii (Nat.digitChar k)) = some k.val := by decide
  exact hall ⟨k, h⟩

/-- An escape of four digits stands for the character of their value, if that is small. -/
theorem holds_control {n : Nat} (h : n < 0x20) :
    Holds [ascii '\\', ascii 'u', ascii '0', ascii '0', ascii (Nat.digitChar (n / 16)),
      ascii (Nat.digitChar (n % 16))] (Utf8.encodeChar (Char.ofNat n)) := by
  -- The four digits have the value of the last two.
  have hfour (more : List UInt8) : hexFour (ascii '0' :: ascii '0' ::
      ascii (Nat.digitChar (n / 16)) :: ascii (Nat.digitChar (n % 16)) :: more) = .ok n := by
    have hzero : hexValue? (ascii '0') = some 0 := by decide
    rw [hexFour, hzero, hexValue?_digitChar (by omega), hexValue?_digitChar (by omega)]
    dsimp only
    exact congrArg Except.ok (by omega)
  constructor
  case skip =>
    intro more
    change skipText 0 (ascii '\\' :: ascii 'u' :: ascii '0' :: ascii '0' :: _ :: _ :: more) = _
    rw [skipText, if_neg (by decide), if_neg (by decide), if_pos (by decide),
      if_pos (by decide), hfour]
    dsimp only [skipText]
    cases skipText 0 more <;> rfl
  -- The value is below the surrogates, so it is one character.
  case read =>
    intro more
    change readBytes 0 (ascii '\\' :: ascii 'u' :: ascii '0' :: ascii '0' :: _ :: _ :: more) = _
    have hescape := unicodeEscape.eq_def (ascii '0' :: ascii '0' ::
      ascii (Nat.digitChar (n / 16)) :: ascii (Nat.digitChar (n % 16)) :: more)
    rw [hfour] at hescape
    dsimp only at hescape
    rw [if_neg (by omega), if_pos (by omega)] at hescape
    rw [readBytes, if_neg (by decide), if_neg (by decide), if_pos (by decide),
      if_pos (by decide), hescape]
    rfl

/-- The bytes of a character that is no ASCII are none either. -/
theorem high_of_mem_encodeChar {c : Char} (h : 0x80 ≤ c.toNat) :
    ∀ b ∈ Utf8.encodeChar c, 0x80 ≤ b.toNat := by
  have hvalid := Utf8.toNat_valid c
  have hbyte {n : Nat} (hlow : 0x80 ≤ n) (hhigh : n < 256) : 0x80 ≤ (Utf8.byte n).toNat := by
    rwa [Utf8.toNat_byte hhigh]
  unfold Utf8.encodeChar
  dsimp only
  rw [if_neg (Nat.not_lt.2 h)]
  split
  · simp only [List.forall_mem_cons, List.not_mem_nil, false_implies, implies_true, and_true]
    exact ⟨hbyte (by omega) (by omega), hbyte (by omega) (by omega)⟩
  split
  · simp only [List.forall_mem_cons, List.not_mem_nil, false_implies, implies_true, and_true]
    exact ⟨hbyte (by omega) (by omega), hbyte (by omega) (by omega), hbyte (by omega) (by omega)⟩
  · simp only [List.forall_mem_cons, List.not_mem_nil, false_implies, implies_true, and_true]
    exact ⟨hbyte (by omega) (by omega), hbyte (by omega) (by omega), hbyte (by omega) (by omega),
      hbyte (by omega) (by omega)⟩

/-- The bytes of a character as it is written stand for the bytes of the character. -/
theorem holds_escape (c : Char) : Holds (Utf8.encode (escape c)) (Utf8.encodeChar c) := by
  rcases escape_cases c with ⟨e, b, hescape, hascii, hu, hbyte, hchar⟩ | ⟨hlow, hescape⟩ |
    ⟨hlow, hquote, hslash, hescape⟩
  · -- One letter behind the backslash.
    have hencode : Utf8.encode ['\\', e] = [ascii '\\', ascii e] := by
      rw [Utf8.encode, List.flatMap_cons, List.flatMap_cons, encodeChar_of_ascii hascii]
      rfl
    rw [hescape, hencode, hchar]
    exact holds_letter hu hbyte
  · -- Every byte of such an escape is an ASCII character.
    have hdigit (k : Nat) (hk : k < 16) : (Nat.digitChar k).toNat < 0x80 := by
      have hall : ∀ k : Fin 16, (Nat.digitChar k).toNat < 0x80 := by decide
      exact hall ⟨k, hk⟩
    rw [hescape]
    have hencode : Utf8.encode ['\\', 'u', '0', '0', Nat.digitChar (c.toNat / 16),
        Nat.digitChar (c.toNat % 16)] = [ascii '\\', ascii 'u', ascii '0', ascii '0',
        ascii (Nat.digitChar (c.toNat / 16)), ascii (Nat.digitChar (c.toNat % 16))] := by
      unfold Utf8.encode
      simp only [List.flatMap_cons, List.flatMap_nil]
      rw [encodeChar_of_ascii (hdigit (c.toNat / 16) (by omega)),
        encodeChar_of_ascii (hdigit (c.toNat % 16) (by omega))]
      rfl
    have hcontrol := holds_control hlow
    rw [Char.ofNat_toNat] at hcontrol
    rw [hencode]
    exact hcontrol
  · -- The character itself.
    have hencode : Utf8.encode [c] = Utf8.encodeChar c := List.flatMap_singleton ..
    rw [hescape, hencode]
    -- Outside of ASCII all bytes are high, and none of them ends a string.
    by_cases hascii : c.toNat < 0x80
    · rw [encodeChar_of_ascii hascii]
      refine holds_byte (fun h => hquote ?_) (fun h => hslash ?_) ?_
      · exact ascii_inj hascii (by decide) h
      · exact ascii_inj hascii (by decide) h
      · rwa [toNat_ascii hascii]
    · exact holds_of_high (high_of_mem_encodeChar (Nat.not_lt.1 hascii))

/-! ## A string -/

/-- So do those of a text. -/
theorem holds_text (text : List Char) :
    Holds (Utf8.encode (text.flatMap escape)) (Utf8.encode text) := by
  induction text with
  | nil => exact holds_nil
  | cons c rest ih =>
    have hbytes : Utf8.encode ((c :: rest).flatMap escape) =
        Utf8.encode (escape c) ++ Utf8.encode (rest.flatMap escape) := List.flatMap_append
    have hheld : Utf8.encode (c :: rest) = Utf8.encodeChar c ++ Utf8.encode rest :=
      List.flatMap_cons
    rw [hbytes, hheld]
    exact (holds_escape c).append ih

/-- The bytes of a string, behind the opening quote. -/
def quotedBytes (text : List Char) : List UInt8 :=
  Utf8.encode (text.flatMap escape) ++ [ascii '"']

/-- It is passed over with its closing quote. -/
theorem skipText_quotedBytes (text : List Char) (rest : List UInt8) :
    skipText 0 (quotedBytes text ++ rest) = .ok (quotedBytes text).length := by
  have hquote : skipText 0 ([ascii '"'] ++ rest) = .ok 1 := by
    rw [List.singleton_append, skipText.eq_def]
    rfl
  rw [quotedBytes, List.append_assoc, (holds_text text).skip, hquote, List.length_append,
    List.length_singleton]
  exact congrArg Except.ok (Nat.add_comm ..)

/-- It is read as the text that was written. -/
theorem readText_quotedBytes (text : List Char) (rest : List UInt8) :
    readText (quotedBytes text ++ rest) = .ok text := by
  have hquote : readBytes 0 ([ascii '"'] ++ rest) = .ok [] := by
    rw [List.singleton_append, readBytes.eq_def]
    rfl
  have hread : readBytes 0 (quotedBytes text ++ rest) = .ok (Utf8.encode text) := by
    rw [quotedBytes, List.append_assoc, (holds_text text).read, hquote]
    exact congrArg Except.ok (List.append_nil _)
  rw [readText, hread]
  dsimp only
  rw [Utf8.decode_encode]

/-! ## A number -/

/-- A text of ASCII characters is one byte for each of them. -/
theorem encode_of_ascii {text : List Char} (h : ∀ c ∈ text, c.toNat < 0x80) :
    Utf8.encode text = text.map ascii := by
  induction text with
  | nil => rfl
  | cons c rest ih =>
    have hrest : Utf8.encode rest = rest.map ascii :=
      ih fun c' hc' => h c' (List.mem_cons_of_mem c hc')
    rw [Utf8.encode, List.flatMap_cons, ← Utf8.encode, hrest,
      encodeChar_of_ascii (h c List.mem_cons_self)]
    rfl

/-- The bytes of a number. -/
def digitBytes (n : Nat) : List UInt8 := (Nat.toDigits 10 n).map ascii

/-- A digit is one of ten characters. -/
theorem toNat_digit {n : Nat} {c : Char} (h : c ∈ Nat.toDigits 10 n) :
    0x30 ≤ c.toNat ∧ c.toNat ≤ 0x39 := by
  have hdigit := Nat.isDigit_of_mem_toDigits (by decide) (by decide) h
  simp only [Char.isDigit, Bool.and_eq_true, decide_eq_true_eq] at hdigit
  exact hdigit

theorem encode_toDigits (n : Nat) : Utf8.encode (Nat.toDigits 10 n) = digitBytes n := by
  refine encode_of_ascii fun c hc => ?_
  have hdigit := toNat_digit hc
  omega

/-- Every byte of it is a digit. -/
theorem isDigit_of_mem_digitBytes {n : Nat} {b : UInt8} (h : b ∈ digitBytes n) :
    isDigit b = true := by
  obtain ⟨c, hc, rfl⟩ := List.mem_map.1 h
  obtain ⟨hlow, hhigh⟩ := toNat_digit hc
  rw [isDigit, toNat_ascii (by omega), Char.ofNat_toNat, Charset.isAsciiDigit, Bool.and_eq_true]
  exact ⟨decide_eq_true hlow, decide_eq_true hhigh⟩

/-- The value of the digits is the number. -/
theorem digitsValue_digitBytes (n : Nat) : digitsValue (digitBytes n) = n := by
  have hfold (digits : List Char) (hdigits : ∀ c ∈ digits, c.toNat < 0x80) (start : Nat) :
      (digits.map ascii).foldl (fun n b => n * 10 + (b.toNat - 48)) start =
        Nat.ofDigitChars 10 digits start := by
    induction digits generalizing start with
    | nil => rfl
    | cons c rest ih =>
      rw [List.map_cons, List.foldl_cons, ih fun c' hc' => hdigits c' (List.mem_cons_of_mem c hc'),
        toNat_ascii (hdigits c List.mem_cons_self), Nat.ofDigitChars_cons, Nat.mul_comm]
      rfl
  have hascii (c : Char) (hc : c ∈ Nat.toDigits 10 n) : c.toNat < 0x80 := by
    have hdigit := toNat_digit hc
    omega
  rw [digitsValue, digitBytes, hfold _ hascii, Nat.ofDigitChars_toDigits (by decide) (by decide)]

/-- No zero stands in front of others. -/
theorem head?_toDigits {n : Nat} (h : 0 < n) : (Nat.toDigits 10 n).head? ≠ some '0' := by
  induction n using Nat.strongRecOn with
  | _ n ih =>
    by_cases hsmall : n < 10
    · rw [Nat.toDigits_of_lt_base hsmall]
      have hall : ∀ k : Fin 10, 0 < k.val → [Nat.digitChar k].head? ≠ some '0' := by decide
      exact hall ⟨n, hsmall⟩ h
    · have hfront := ih (n / 10) (by omega) (by omega)
      rw [Nat.toDigits_of_base_le (by decide) (Nat.not_lt.1 hsmall)]
      rwa [List.head?_append, Option.or_of_isSome (List.isSome_head?.2 Nat.toDigits_ne_nil)]

/-- What follows a number cannot go on with it. -/
def EndsNumber (rest : List UInt8) : Prop :=
  ∀ b ∈ rest.head?, isDigit b = false ∧ b ≠ ascii '.' ∧ b ≠ ascii 'e' ∧ b ≠ ascii 'E'

/-- A number of one digit may be a zero, and others do not start with one. -/
theorem digitBytes_zero (n : Nat) :
    (digitBytes n).head? = some (ascii '0') → (digitBytes n).length = 1 := by
  intro hhead
  rcases Nat.eq_zero_or_pos n with rfl | hpos
  · rfl
  · rw [digitBytes, List.head?_map, Option.map_eq_some_iff] at hhead
    obtain ⟨c, hc, heq⟩ := hhead
    have hdigit := toNat_digit (List.mem_of_mem_head? hc)
    rw [ascii_inj (by omega) (by decide) heq] at hc
    exact absurd hc (head?_toDigits hpos)

/-- A number has the shape of its digits. -/
theorem numberShape_digitBytes (n : Nat) {rest : List UInt8} (h : EndsNumber rest) :
    numberShape (digitBytes n ++ rest) =
      ⟨false, digitBytes n, none, none, (digitBytes n).length, none⟩ := by
  have hne : digitBytes n ≠ [] := fun hnil => Nat.toDigits_ne_nil (List.map_eq_nil_iff.1 hnil)
  -- A digit is no sign.
  have hminus : ((digitBytes n ++ rest).head? == some (ascii '-')) = false := by
    rw [List.head?_append, Option.or_of_isSome (List.isSome_head?.2 hne)]
    refine beq_false_of_ne fun hhead => ?_
    have hdigit := isDigit_of_mem_digitBytes (List.mem_of_mem_head? hhead)
    revert hdigit
    decide
  -- The digits end where the number does.
  have hrest : rest.takeWhile isDigit = [] := by
    cases rest with
    | nil => rfl
    | cons b more =>
      refine List.takeWhile_cons_of_neg ?_
      rw [(h b rfl).1]
      exact Bool.false_ne_true
  have htake : (digitBytes n ++ rest).takeWhile isDigit = digitBytes n := by
    rw [List.takeWhile_append_of_pos fun b => isDigit_of_mem_digitBytes, hrest, List.append_nil]
  -- A zero in front stands alone.
  have hzero : ((digitBytes n).head? == some (ascii '0') &&
      decide ((digitBytes n).length > 1)) = false := by
    refine Bool.and_eq_false_iff.2 ?_
    by_cases hhead : (digitBytes n).head? = some (ascii '0')
    · have hlength := digitBytes_zero n hhead
      exact .inr (decide_eq_false (by omega))
    · exact .inl (beq_false_of_ne hhead)
  -- And nothing of the number stands behind them.
  have hpoint : (rest.head? == some (ascii '.')) = false :=
    beq_false_of_ne fun hhead => (h _ hhead).2.1 rfl
  have hexponent : exponentOf rest = none := by
    cases rest with
    | nil => rfl
    | cons b more =>
      obtain ⟨-, -, he, hE⟩ := h b rfl
      refine if_neg ?_
      rw [beq_false_of_ne he, beq_false_of_ne hE]
      exact Bool.false_ne_true
  unfold numberShape
  simp only [hminus, htake, hzero, hpoint, List.drop_left, hexponent,
    List.isEmpty_eq_false_iff.2 hne, Bool.false_eq_true, if_false, Bool.false_and, Nat.zero_add,
    Nat.add_zero]

end UnitLoader.Json
