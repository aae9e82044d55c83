import Mathlib.Data.List.TakeWhile
import UnitLoader.Syntax.Literal

/-!
# Where a number ends

How far a number goes is told by what stands behind it: a point, the sign of an exponent or a
character of a name may belong to it. `IsNumber` says of a text that it is a number from its first
character to its last. The front of a text that is measured as a number is one by itself
(`isNumber_of_append`), and in front of a character that no number goes on with it is measured again
(`Ends.numberLength?_append`).
-/

namespace UnitLoader.Syntax

open UnitLoader.Text

/-- What holds of the characters of a list is decided along the list. -/
instance (priority := high) decidableOfMem {p : Char → Prop} [DecidablePred p] (l : List Char) :
    Decidable (∀ c ∈ l, p c) := List.decidableBAll p l

/-! ## What may follow -/

/-- The characters that end whatever word or number stands in front of them. -/
def endMarks : List Char := [' ', '(', ')', '[', ']', '\x7d', '<', '>', ',', ';', ':', '&']

/-- A word or a number in front of the text ends there. -/
def Ends (rest : List Char) : Prop := ∀ c ∈ rest.head?, c ∈ endMarks

section

variable {rest text : List Char} {c : Char}

/-- None of these characters is part of a name or a number. -/
theorem isIdentifierContinue_of_mem_endMarks :
    ∀ c ∈ endMarks, Charset.isIdentifierContinue c = false := by decide

theorem isNameStart_of_mem_endMarks : ∀ c ∈ endMarks, isNameStart c = false := by decide

theorem isDigitPart_of_mem_endMarks : ∀ c ∈ endMarks, isDigitPart c = false := by decide

theorem digitValue?_of_mem_endMarks : ∀ c ∈ endMarks, digitValue? c = none := by decide

theorem not_exponent_of_mem_endMarks :
    ∀ c ∈ endMarks, (c == '+' || c == '-') = false ∧ (c == 'e') = false ∧ (c == 'E') = false ∧
      c ≠ '.' ∧ c ≠ 'x' ∧ c ≠ 'o' ∧ c ≠ 'b' ∧ (c == '_') = false := by decide

/-- What a test takes off the front ends at a character that fails it. -/
theorem takeWhile_append_of_head? {p : Char → Bool} (h : ∀ c ∈ rest.head?, p c = false) :
    (text ++ rest).takeWhile p = text.takeWhile p := by
  cases rest with
  | nil => rw [List.append_nil]
  | cons c rest =>
    have hc : p c = false := h c rfl
    rw [List.takeWhile_append]
    split
    · rename_i hall
      rw [List.takeWhile_cons_of_neg (Bool.eq_false_iff.1 hc), List.append_nil]
      exact ((List.takeWhile_prefix p).eq_of_length hall).symm
    · rfl

theorem dropWhile_append_of_head? {p : Char → Bool} (h : ∀ c ∈ rest.head?, p c = false) :
    (text ++ rest).dropWhile p = text.dropWhile p ++ rest := by
  induction text with
  | nil =>
    cases rest with
    | nil => rfl
    | cons c rest => exact List.dropWhile_cons_of_neg (Bool.eq_false_iff.1 (h c rfl))
  | cons c text ih =>
    rw [List.cons_append, List.dropWhile_cons, List.dropWhile_cons]
    split
    · exact ih
    · rfl

/-- Behind what it takes off stands a character that fails it. -/
theorem head?_dropWhile {p : Char → Bool} : ∀ c ∈ (text.dropWhile p).head?, p c = false := by
  intro c hc
  have hstop := List.head?_dropWhile_not p text
  rw [hc] at hstop
  simpa using hstop

/-- What it takes off the front of a text and what is behind is the same as from the text alone, if
it is no more than the text. -/
theorem length_takeWhile_of_le {p : Char → Bool}
    (h : ((text ++ rest).takeWhile p).length ≤ text.length) :
    (text.takeWhile p).length = ((text ++ rest).takeWhile p).length := by
  rw [List.takeWhile_append] at h ⊢
  split
  · rename_i hall
    rw [if_pos hall, List.length_append] at h
    rw [List.length_append]
    omega
  · rfl

/-- A name ends there. -/
theorem Ends.nameLength_append (h : Ends rest) (text : List Char) :
    nameLength (text ++ rest) = nameLength text := by
  cases text with
  | nil =>
    cases rest with
    | nil => rfl
    | cons c rest =>
      have hc := isNameStart_of_mem_endMarks c (h c rfl)
      rw [List.nil_append, nameLength.eq_2, hc, if_neg Bool.false_ne_true, nameLength]
  | cons c text =>
    have hstop : ∀ c ∈ rest.head?, Charset.isIdentifierContinue c = false := fun c hc =>
      isIdentifierContinue_of_mem_endMarks c (h c hc)
    rw [List.cons_append, nameLength, nameLength, takeWhile_append_of_head? hstop]

theorem ends_nil : Ends [] := fun _ hc => absurd hc (by simp)

/-- An identifier starts with no digit. -/
theorem isAsciiDigit_of_isNameStart (h : isNameStart c = true) :
    Charset.isAsciiDigit c = false := by
  refine Bool.eq_false_iff.2 fun hdigit => ?_
  simp only [Charset.isAsciiDigit, Bool.and_eq_true, decide_eq_true_eq, Char.le_def,
    UInt32.le_iff_toNat_le] at hdigit
  have hlow : 48 ≤ c.toNat := hdigit.1
  have hhigh : c.toNat ≤ 57 := hdigit.2
  have hdigits : ∀ n < 58, 48 ≤ n → isNameStart (Char.ofNat n) = false := by decide
  have hstart := hdigits c.toNat (by omega) hlow
  rw [Char.ofNat_toNat, h] at hstart
  contradiction

/-- An identifier is as long as a text exactly if it is the text. -/
theorem nameLength_of_isName (h : isName text = true) :
    nameLength text = text.length := by
  cases text with
  | nil => rfl
  | cons c rest =>
    obtain ⟨hstart, hrest⟩ := Bool.and_eq_true_iff.1 h
    rw [nameLength, if_pos hstart, List.takeWhile_eq_self_iff.2 (List.all_eq_true.1 hrest),
      Nat.add_comm, List.length_cons]

/-- A name in front of what ends it is read to its last character. -/
theorem nameAt?_append (h : isName text = true) (hrest : Ends rest) (raw : Bool) :
    nameAt? (text ++ rest) raw =
      some ⟨String.ofList text, raw, by rw [String.toList_ofList]; exact h⟩ := by
  have hlength : nameLength (text ++ rest) = text.length := by
    rw [hrest.nameLength_append, nameLength_of_isName h]
  have hne : nameLength (text ++ rest) ≠ 0 := by
    rw [hlength]
    rintro hzero
    rw [List.length_eq_zero_iff.1 hzero] at h
    contradiction
  rw [nameAt?, dif_neg hne]
  congr 2
  rw [hlength, List.take_left]

/-! ## Exponents -/

variable {hasSign hasDigit found : Bool} {base n : Nat}

theorem Ends.exponentLength?_append (h : Ends rest) (text : List Char) :
    exponentLength? hasSign hasDigit (text ++ rest) = exponentLength? hasSign hasDigit text := by
  induction text generalizing hasSign hasDigit with
  | nil =>
    cases rest with
    | nil => rfl
    | cons c rest =>
      have hc := h c rfl
      obtain ⟨hsign, -, -, -, -, -, -, hline⟩ := not_exponent_of_mem_endMarks c hc
      have hdigit : Charset.isAsciiDigit c = false :=
        (Bool.or_eq_false_iff.1 (isDigitPart_of_mem_endMarks c hc)).1
      rw [List.nil_append, exponentLength?.eq_2, hsign, hdigit, hline]
      rfl
  | cons c text ih => simp only [List.cons_append, exponentLength?, ih]

/-- An exponent that ends within a text is one of the text. -/
theorem exponentLength?_of_append
    (h : exponentLength? hasSign hasDigit (text ++ rest) = some n) (hn : n ≤ text.length) :
    exponentLength? hasSign hasDigit text = some n := by
  induction text generalizing hasSign hasDigit n with
  | nil =>
    obtain rfl := Nat.le_zero.1 hn
    cases rest with
    | nil => exact h
    | cons c rest =>
      cases hasDigit with
      | true => rfl
      | false =>
        rw [List.nil_append, exponentLength?] at h
        grind [Option.map_eq_some_iff]
  | cons c text ih =>
    rw [List.cons_append, exponentLength?] at h
    rw [exponentLength?]
    grind [Option.map_eq_some_iff]

/-- In front of something that is no digit an exponent goes on no further. -/
theorem exponentLength?_append (h : exponentLength? hasSign hasDigit text = some n)
    (hrest : ∀ c ∈ rest.head?, isDigitPart c = false) :
    exponentLength? hasSign hasDigit (text ++ rest) = some n := by
  induction text generalizing hasSign hasDigit n with
  | nil =>
    cases rest with
    | nil => exact h
    | cons c rest =>
      have hc := hrest c rfl
      rw [List.nil_append, exponentLength?]
      rw [exponentLength?] at h
      unfold isDigitPart at hc
      grind
  | cons c text ih =>
    rw [exponentLength?] at h
    rw [List.cons_append, exponentLength?]
    grind [Option.map_eq_some_iff]

/-! ## Digits -/

theorem Ends.digitsLength?_append (h : Ends rest) (text : List Char) :
    digitsLength? base found (text ++ rest) = digitsLength? base found text := by
  induction text generalizing found with
  | nil =>
    cases rest with
    | nil => rfl
    | cons c rest =>
      have hc := h c rfl
      obtain ⟨-, -, -, -, -, -, -, hline⟩ := not_exponent_of_mem_endMarks c hc
      rw [List.nil_append, digitsLength?.eq_2, hline, digitValue?_of_mem_endMarks c hc]
      rfl
  | cons c text ih => simp only [List.cons_append, digitsLength?, ih]

/-- Digits that end within a text are those of the text. -/
theorem digitsLength?_of_append (h : digitsLength? base found (text ++ rest) = some n)
    (hn : n ≤ text.length) : digitsLength? base found text = some n := by
  induction text generalizing found n with
  | nil =>
    obtain rfl := Nat.le_zero.1 hn
    cases rest with
    | nil => exact h
    | cons c rest =>
      cases found with
      | true => rfl
      | false =>
        rw [List.nil_append, digitsLength?] at h
        grind [Option.map_eq_some_iff]
  | cons c text ih =>
    rw [List.cons_append, digitsLength?] at h
    rw [digitsLength?]
    grind [Option.map_eq_some_iff]

theorem digitsLength?_le (h : digitsLength? base found text = some n) : n ≤ text.length := by
  induction text generalizing found n with
  | nil =>
    rw [digitsLength?] at h
    grind
  | cons c text ih =>
    rw [digitsLength?] at h
    grind [Option.map_eq_some_iff]

theorem exponentLength?_le (h : exponentLength? hasSign hasDigit text = some n) :
    n ≤ text.length := by
  induction text generalizing hasSign hasDigit n with
  | nil =>
    rw [exponentLength?] at h
    grind
  | cons c text ih =>
    rw [exponentLength?] at h
    grind [Option.map_eq_some_iff]

theorem digitValue?_of_isAsciiDigit (h : Charset.isAsciiDigit c = true) :
    ∃ digit, digitValue? c = some digit ∧ digit < 10 := by
  simp only [Charset.isAsciiDigit, Bool.and_eq_true, decide_eq_true_eq] at h
  refine ⟨c.toNat - '0'.toNat, if_pos h, ?_⟩
  have hhigh : c.toNat ≤ '9'.toNat := h.2
  simp only [Char.reduceToNat] at hhigh ⊢
  omega

theorem ten_le_of_digitValue? {digit : Nat} (hc : Charset.isAsciiDigit c = false)
    (h : digitValue? c = some digit) : 10 ≤ digit := by
  unfold digitValue? at h
  unfold Charset.isAsciiDigit at hc
  split at h
  · simp_all
  · split at h
    · obtain rfl := Option.some.inj h
      omega
    · split at h
      · obtain rfl := Option.some.inj h
        omega
      · contradiction

/-- Decimal digits go on up to the first other character. -/
theorem digitsLength?_ten {digits behind : List Char} (hdigits : ∀ c ∈ digits, isDigitPart c = true)
    (hbehind : ∀ c ∈ behind.head?, isDigitPart c = false)
    (h : digitsLength? 10 found (digits ++ behind) = some n) : n = digits.length := by
  induction digits generalizing found n with
  | nil =>
    cases behind with
    | nil =>
      rw [List.nil_append, digitsLength?] at h
      grind
    | cons c behind =>
      obtain ⟨hdigit, hline⟩ := Bool.or_eq_false_iff.1 (hbehind c rfl)
      have hvalue : ∀ digit, digitValue? c = some digit → 10 ≤ digit := fun _ =>
        ten_le_of_digitValue? hdigit
      rw [List.nil_append, digitsLength?.eq_2, hline] at h
      grind
  | cons c digits ih =>
    obtain ⟨hc, hdigits⟩ := List.forall_mem_cons.1 hdigits
    rw [List.cons_append, digitsLength?] at h
    -- A digit of base ten or an underscore is passed over.
    rcases Bool.or_eq_true_iff.1 hc with hc | hc
    · obtain ⟨digit, hvalue, hlt⟩ := digitValue?_of_isAsciiDigit hc
      rw [hvalue] at h
      grind [Option.map_eq_some_iff]
    · grind [Option.map_eq_some_iff]

/-! ## What stands behind the digits -/

/-- The length of an exponent with its letter. -/
def exponentBehind? : List Char → Option Nat
  | c :: rest =>
    if c == 'e' || c == 'E' then (exponentLength? false false rest).map (· + 1) else none
  | [] => none

/-- The point in front of this text is no part of a number. -/
def isBlocked : List Char → Bool
  | next :: _ => next == '.' || isNameStart next
  | [] => false

/-- The length of what follows the first digits of a number with a point or an exponent. -/
def behindDigits? : List Char → Option Nat
  | '.' :: rest =>
    if isBlocked rest then none
    else
      let fraction := (rest.takeWhile isDigitPart).length
      some (fraction + 1 + (exponentBehind? (rest.drop fraction)).getD 0)
  | behind => exponentBehind? behind

/-- A number with a point or an exponent is its first digits and what stands behind them. -/
theorem fractionalLength?_append {digits behind : List Char}
    (hdigits : ∀ c ∈ digits, isDigitPart c = true)
    (hbehind : ∀ c ∈ behind.head?, isDigitPart c = false) :
    fractionalLength? (digits ++ behind) = (behindDigits? behind).map (· + digits.length) := by
  have hwhole : ((digits ++ behind).takeWhile isDigitPart).length = digits.length := by
    rw [takeWhile_append_of_head? hbehind, List.takeWhile_eq_self_iff.2 hdigits]
  simp only [fractionalLength?, hwhole, List.drop_left]
  split
  · -- A point, with the digits behind it and perhaps an exponent.
    rename_i rest
    rw [behindDigits?]
    dsimp only
    generalize rest.drop (rest.takeWhile isDigitPart).length = others
    unfold isBlocked
    cases others with
    | nil => grind [exponentBehind?]
    | cons c others => grind [exponentBehind?]
  · -- No point, so there must be an exponent.
    rename_i hpoint
    rw [behindDigits?.eq_2 behind hpoint]
    cases behind with
    | nil => rfl
    | cons c rest =>
      rw [exponentBehind?, List.head?_cons, List.drop_one, List.tail_cons]
      split
      · rename_i hletter
        rw [if_pos (by simpa using hletter), Option.map_map]
        refine congrArg (Option.map · _) (funext fun n => ?_)
        exact Nat.add_right_comm n digits.length 1
      · rename_i hletter
        rw [if_neg (by simpa using hletter), Option.map_none]

theorem Ends.exponentBehind?_append (h : Ends rest) (text : List Char) :
    exponentBehind? (text ++ rest) = exponentBehind? text := by
  cases text with
  | nil =>
    cases rest with
    | nil => rfl
    | cons c rest =>
      obtain ⟨-, hlower, hupper, -⟩ := not_exponent_of_mem_endMarks c (h c rfl)
      rw [List.nil_append, exponentBehind?, hlower, hupper]
      rfl
  | cons c text => rw [List.cons_append, exponentBehind?, exponentBehind?, h.exponentLength?_append]

theorem exponentBehind?_of_append (h : exponentBehind? (text ++ rest) = some n)
    (hn : n ≤ text.length) : exponentBehind? text = some n := by
  cases text with
  | nil =>
    obtain rfl := Nat.le_zero.1 hn
    cases rest with
    | nil => exact h
    | cons c rest =>
      rw [List.nil_append, exponentBehind?] at h
      grind [Option.map_eq_some_iff]
  | cons c text =>
    rw [List.cons_append, exponentBehind?] at h
    rw [exponentBehind?]
    split at h
    · rename_i hletter
      obtain ⟨m, hm, rfl⟩ := Option.map_eq_some_iff.1 h
      rw [if_pos hletter, exponentLength?_of_append hm (Nat.le_of_succ_le_succ hn)]
      rfl
    · contradiction

theorem exponentBehind?_append (h : exponentBehind? text = some n)
    (hrest : ∀ c ∈ rest.head?, isDigitPart c = false) :
    exponentBehind? (text ++ rest) = some n := by
  cases text with
  | nil => contradiction
  | cons c text =>
    rw [exponentBehind?] at h
    rw [List.cons_append, exponentBehind?]
    split at h
    · rename_i hletter
      obtain ⟨m, hm, rfl⟩ := Option.map_eq_some_iff.1 h
      rw [if_pos hletter, exponentLength?_append hm hrest]
      rfl
    · contradiction

theorem exponentBehind?_le (h : exponentBehind? text = some n) : n ≤ text.length := by
  cases text with
  | nil => contradiction
  | cons c text =>
    rw [exponentBehind?] at h
    split at h
    · obtain ⟨m, hm, rfl⟩ := Option.map_eq_some_iff.1 h
      exact Nat.succ_le_succ (exponentLength?_le hm)
    · contradiction

theorem Ends.not_isDigitPart (h : Ends rest) : ∀ c ∈ rest.head?, isDigitPart c = false :=
  fun c hc => isDigitPart_of_mem_endMarks c (h c hc)

/-- What is behind the front that a test takes off a text. -/
theorem drop_takeWhile_append (p : Char → Bool) (text rest : List Char) :
    (text ++ rest).drop (text.takeWhile p).length = text.drop (text.takeWhile p).length ++ rest :=
  List.drop_append_of_le_length (List.takeWhile_prefix p).length_le

theorem behindDigits?_of_ne (hc : c ≠ '.') :
    behindDigits? (c :: rest) = exponentBehind? (c :: rest) :=
  behindDigits?.eq_2 _ fun _ hpoint => hc (List.cons.inj hpoint).1

theorem Ends.ne_point (h : Ends (c :: rest)) : c ≠ '.' := by
  obtain ⟨-, -, -, hpoint, -⟩ := not_exponent_of_mem_endMarks c (h c rfl)
  exact hpoint

theorem Ends.isBlocked_append (h : Ends rest) (text : List Char) :
    isBlocked (text ++ rest) = isBlocked text := by
  cases text with
  | cons c text => rfl
  | nil =>
    cases rest with
    | nil => rfl
    | cons c rest => simp [isBlocked, h.ne_point, isNameStart_of_mem_endMarks c (h c rfl)]

theorem isBlocked_of_append (h : isBlocked (text ++ rest) = false) : isBlocked text = false := by
  cases text with
  | nil => rfl
  | cons c text => exact h

theorem Ends.behindDigits?_append (h : Ends rest) (text : List Char) :
    behindDigits? (text ++ rest) = behindDigits? text := by
  cases text with
  | nil =>
    cases rest with
    | nil => rfl
    | cons c rest =>
      rw [List.nil_append, behindDigits?_of_ne h.ne_point]
      exact h.exponentBehind?_append []
  | cons c text =>
    by_cases hc : c = '.'
    · subst hc
      simp only [List.cons_append, behindDigits?, h.isBlocked_append,
        takeWhile_append_of_head? h.not_isDigitPart, drop_takeWhile_append,
        h.exponentBehind?_append]
    · rw [behindDigits?_of_ne hc, List.cons_append, behindDigits?_of_ne hc, ← List.cons_append,
        h.exponentBehind?_append]

/-- What stands behind the digits and ends within a text is measured in the text alone. -/
theorem behindDigits?_of_append (h : behindDigits? (text ++ rest) = some n) (hn : n ≤ text.length)
    (hrest : ∀ c ∈ rest.head?, isDigitPart c = false) : behindDigits? text = some n := by
  cases text with
  | nil =>
    -- Nothing of the text is left, so nothing of what is measured may be left either.
    cases rest with
    | nil => exact h
    | cons c rest =>
      by_cases hc : c = '.'
      · subst hc
        rw [List.nil_append, behindDigits?] at h
        grind
      · rw [List.nil_append, behindDigits?_of_ne hc] at h
        have hnone : exponentBehind? [] = some n := exponentBehind?_of_append h hn
        contradiction
  | cons c text =>
    by_cases hc : c = '.'
    · subst hc
      have hlength := (List.takeWhile_prefix isDigitPart (l := text)).length_le
      simp only [List.cons_append, behindDigits?, takeWhile_append_of_head? hrest,
        drop_takeWhile_append] at h ⊢
      generalize htail : text.drop (text.takeWhile isDigitPart).length = tail at h ⊢
      have htail := congrArg List.length htail
      rw [List.length_drop] at htail
      split at h
      · contradiction
      · rename_i hblocked
        rw [if_neg (by rw [isBlocked_of_append (Bool.eq_false_iff.2 hblocked)]; simp)]
        -- An exponent that ends behind the text would make the number longer than the text.
        cases hexponent : exponentBehind? (tail ++ rest) with
        | some k =>
          rw [hexponent, Option.getD_some] at h
          rw [List.length_cons] at hn
          rw [exponentBehind?_of_append hexponent (by grind), Option.getD_some, h]
        | none =>
          have hnone : exponentBehind? tail = none := by
            refine Option.eq_none_iff_forall_not_mem.2 fun k hk => ?_
            rw [exponentBehind?_append hk hrest] at hexponent
            contradiction
          rw [hnone]
          rwa [hexponent] at h
    · -- Without a point it is the exponent alone that is measured.
      rw [behindDigits?_of_ne hc]
      rw [List.cons_append, behindDigits?_of_ne hc, ← List.cons_append] at h
      exact exponentBehind?_of_append h hn

theorem behindDigits?_le (h : behindDigits? text = some n) : n ≤ text.length := by
  cases text with
  | nil => contradiction
  | cons c text =>
    by_cases hc : c = '.'
    · subst hc
      have hlength := (List.takeWhile_prefix isDigitPart (l := text)).length_le
      simp only [behindDigits?] at h
      split at h
      · contradiction
      · cases hexponent : exponentBehind? (text.drop (text.takeWhile isDigitPart).length) with
        | some k =>
          have hk := exponentBehind?_le hexponent
          rw [List.length_drop] at hk
          grind
        | none => grind
    · rw [behindDigits?_of_ne hc] at h
      exact exponentBehind?_le h

/-! ## Whole numbers -/

/-- The base that the front of a number tells, and how many characters tell it. -/
def baseAhead : List Char → Nat × Nat
  | '0' :: 'x' :: _ => (16, 2)
  | '0' :: 'o' :: _ => (8, 2)
  | '0' :: 'b' :: _ => (2, 2)
  | _ => (10, 0)

/-- A whole number is digits of its base behind what tells the base. -/
theorem wholeLength?_eq (text : List Char) :
    wholeLength? text = (digitsLength? (baseAhead text).1 false (text.drop (baseAhead text).2)).map
      (· + (baseAhead text).2) := by
  unfold wholeLength? baseAhead
  split
  case h_4 => simp
  all_goals rfl

/-- Two characters tell the base, and so does one in front of something that is no name. -/
theorem Ends.baseAhead_append (h : Ends rest) (hne : text ≠ []) :
    baseAhead (text ++ rest) = baseAhead text := by
  match text, hne with
  | [d], _ =>
    cases rest with
    | nil => rfl
    | cons c rest =>
      obtain ⟨-, -, -, -, hx, ho, hb, -⟩ := not_exponent_of_mem_endMarks c (h c rfl)
      unfold baseAhead
      grind
  | d :: e :: text, _ =>
    unfold baseAhead
    grind

theorem baseAhead_append (h : 2 ≤ text.length) : baseAhead (text ++ rest) = baseAhead text := by
  match text, h with
  | d :: e :: text, _ =>
    unfold baseAhead
    grind

theorem baseAhead_le (text : List Char) : (baseAhead text).2 ≤ text.length := by
  unfold baseAhead
  grind

theorem baseAhead_of_lt (h : (baseAhead text).2 < 2) : baseAhead text = (10, 0) := by
  unfold baseAhead at h ⊢
  grind

theorem Ends.wholeLength?_append (h : Ends rest) (hne : text ≠ []) :
    wholeLength? (text ++ rest) = wholeLength? text := by
  rw [wholeLength?_eq, wholeLength?_eq, h.baseAhead_append hne,
    List.drop_append_of_le_length (baseAhead_le text), h.digitsLength?_append]

theorem wholeLength?_of_append (h : wholeLength? (text ++ rest) = some n) (hn : n ≤ text.length) :
    wholeLength? text = some n := by
  rw [wholeLength?_eq] at h ⊢
  obtain ⟨m, hm, rfl⟩ := Option.map_eq_some_iff.1 h
  have hbase : baseAhead (text ++ rest) = baseAhead text := by
    by_cases hlength : 2 ≤ text.length
    · exact baseAhead_append hlength
    · have hle := baseAhead_le text
      rw [baseAhead_of_lt (by omega), baseAhead_of_lt (by omega)]
  rw [hbase, List.drop_append_of_le_length (baseAhead_le text)] at hm
  rw [hbase] at hn ⊢
  rw [digitsLength?_of_append hm (by grind)]
  rfl

theorem wholeLength?_le (h : wholeLength? text = some n) : n ≤ text.length := by
  rw [wholeLength?_eq] at h
  obtain ⟨m, hm, rfl⟩ := Option.map_eq_some_iff.1 h
  have hle := digitsLength?_le hm
  have hbase := baseAhead_le text
  rw [List.length_drop] at hle
  omega

/-! ## Numbers with their suffixes -/

theorem nameLength_le (text : List Char) : nameLength text ≤ text.length := by
  cases text with
  | nil => exact Nat.le_refl 0
  | cons c text =>
    have hle := (List.takeWhile_prefix Charset.isIdentifierContinue (l := text)).length_le
    rw [nameLength]
    grind

/-- A name that ends with a text is one of the text. -/
theorem nameLength_of_append (h : nameLength (text ++ rest) = text.length) :
    nameLength text = text.length := by
  cases text with
  | nil => rfl
  | cons c text =>
    rw [List.cons_append, nameLength] at h
    rw [nameLength]
    split at h
    · rename_i hstart
      rw [List.length_cons, Nat.add_comm] at h
      have hfront : ((text ++ rest).takeWhile Charset.isIdentifierContinue).length = text.length :=
        Nat.succ.inj h
      rw [if_pos hstart, length_takeWhile_of_le (Nat.le_of_eq hfront), hfront, List.length_cons,
        Nat.add_comm]
    · exact absurd h (by simp)

theorem Ends.withSuffix?_append (h : Ends rest) (hn : n ≤ text.length) :
    withSuffix? (text ++ rest) n = withSuffix? text n := by
  have hname := nameLength_le (text.drop n)
  rw [List.length_drop] at hname
  have htotal : n + nameLength (text.drop n) ≤ text.length := by omega
  simp only [withSuffix?, List.drop_append_of_le_length hn, h.nameLength_append,
    List.drop_append_of_le_length htotal]
  generalize text.drop (n + nameLength (text.drop n)) = behind
  cases behind with
  | cons c behind => rfl
  | nil =>
    cases rest with
    | nil => rfl
    | cons c rest => simp [isIdentifierContinue_of_mem_endMarks c (h c rfl)]

/-- Behind its digits and its suffix a number ends, and no character of a name follows. -/
theorem withSuffix?_eq_some_iff {total : Nat} : withSuffix? text n = some total ↔
    total = n + nameLength (text.drop n) ∧
      ∀ c ∈ (text.drop total).head?, Charset.isIdentifierContinue c = false := by
  simp only [withSuffix?]
  constructor
  · intro h
    split at h
    · -- What stands behind the suffix does not go on with it.
      rename_i next behind hdrop
      split at h
      · contradiction
      · rename_i hnext
        obtain rfl := Option.some.inj h
        refine ⟨rfl, fun c hc => ?_⟩
        rw [hdrop] at hc
        obtain rfl := Option.some.inj hc
        exact Bool.eq_false_iff.2 hnext
    · rename_i hdrop
      obtain rfl := Option.some.inj h
      exact ⟨rfl, fun c hc => by rw [hdrop] at hc; contradiction⟩
  · rintro ⟨rfl, h⟩
    split
    · rename_i next behind hdrop
      rw [h next (by rw [hdrop]; rfl), if_neg Bool.false_ne_true]
    · rfl

/-- A number that ends with a text ends there in the text alone. -/
theorem withSuffix?_of_append (h : withSuffix? (text ++ rest) n = some text.length) :
    n ≤ text.length ∧ nameLength (text.drop n) = (text.drop n).length ∧
      ∀ c ∈ rest.head?, Charset.isIdentifierContinue c = false := by
  obtain ⟨htotal, hstop⟩ := withSuffix?_eq_some_iff.1 h
  have hn : n ≤ text.length := by omega
  rw [List.drop_append_of_le_length hn] at htotal
  rw [List.drop_left] at hstop
  have hname : nameLength (text.drop n ++ rest) = (text.drop n).length := by
    rw [List.length_drop]
    omega
  exact ⟨hn, nameLength_of_append hname, hstop⟩

theorem withSuffix?_eq_length (hn : n ≤ text.length)
    (h : nameLength (text.drop n) = (text.drop n).length) :
    withSuffix? text n = some text.length := by
  rw [List.length_drop] at h
  refine withSuffix?_eq_some_iff.2 ⟨by omega, fun c hc => ?_⟩
  rw [List.drop_length] at hc
  contradiction

/-! ## Numbers -/

theorem fractionalLength?_eq (text : List Char) :
    fractionalLength? text = (behindDigits? (text.dropWhile isDigitPart)).map
      (· + (text.takeWhile isDigitPart).length) := by
  rw [← fractionalLength?_append (List.all_eq_true.1 List.all_takeWhile) head?_dropWhile,
    List.takeWhile_append_dropWhile]

theorem length_takeWhile_add_length_dropWhile (p : Char → Bool) (text : List Char) :
    (text.takeWhile p).length + (text.dropWhile p).length = text.length := by
  rw [← List.length_append, List.takeWhile_append_dropWhile]

theorem fractionalLength?_le (h : fractionalLength? text = some n) : n ≤ text.length := by
  rw [fractionalLength?_eq] at h
  obtain ⟨m, hm, rfl⟩ := Option.map_eq_some_iff.1 h
  have hsum := length_takeWhile_add_length_dropWhile isDigitPart text
  have hle := behindDigits?_le hm
  omega

theorem Ends.fractionalLength?_append (h : Ends rest) (text : List Char) :
    fractionalLength? (text ++ rest) = fractionalLength? text := by
  rw [fractionalLength?_eq, fractionalLength?_eq, takeWhile_append_of_head? h.not_isDigitPart,
    dropWhile_append_of_head? h.not_isDigitPart, h.behindDigits?_append]

theorem fractionalLength?_of_append (h : fractionalLength? (text ++ rest) = some n)
    (hn : n ≤ text.length) (hrest : ∀ c ∈ rest.head?, isDigitPart c = false) :
    fractionalLength? text = some n := by
  rw [fractionalLength?_eq, takeWhile_append_of_head? hrest, dropWhile_append_of_head? hrest] at h
  obtain ⟨m, hm, rfl⟩ := Option.map_eq_some_iff.1 h
  have hsum := length_takeWhile_add_length_dropWhile isDigitPart text
  rw [fractionalLength?_eq, behindDigits?_of_append hm (by omega) hrest]
  rfl

/-- The text is a number from its first character to its last. -/
def IsNumber (text : List Char) : Prop := numberLength? text = some text.length

/-- A number is one with a point or an exponent, or else a whole one. -/
theorem numberLength?_of_isAsciiDigit (h : Charset.isAsciiDigit c = true) (text : List Char) :
    numberLength? (c :: text) =
      ((fractionalLength? (c :: text)).bind (withSuffix? (c :: text))).or
        ((wholeLength? (c :: text)).bind (withSuffix? (c :: text))) := by
  rw [numberLength?, if_pos h]
  cases (fractionalLength? (c :: text)).bind (withSuffix? (c :: text)) <;> rfl

/-- A number starts with a digit. -/
theorem isAsciiDigit_of_numberLength? (h : numberLength? (c :: text) = some n) :
    Charset.isAsciiDigit c = true := by
  rw [numberLength?] at h
  split at h
  · assumption
  · contradiction

theorem IsNumber.ne_nil (h : IsNumber text) : text ≠ [] := by
  rintro rfl
  contradiction

theorem Ends.bind_withSuffix?_append {length? : Option Nat} (h : Ends rest)
    (hle : ∀ n, length? = some n → n ≤ text.length) :
    length?.bind (withSuffix? (text ++ rest)) = length?.bind (withSuffix? text) := by
  cases length? with
  | none => rfl
  | some n => exact h.withSuffix?_append (hle n rfl)

/-- In front of a character that no number goes on with, a number is measured as by itself. -/
theorem Ends.numberLength?_append (h : Ends rest) (hne : text ≠ []) :
    numberLength? (text ++ rest) = numberLength? text := by
  obtain ⟨c, text, rfl⟩ := List.exists_cons_of_ne_nil hne
  by_cases hc : Charset.isAsciiDigit c = true
  · rw [List.cons_append, numberLength?_of_isAsciiDigit hc, numberLength?_of_isAsciiDigit hc,
      ← List.cons_append, h.fractionalLength?_append, h.wholeLength?_append hne,
      h.bind_withSuffix?_append fun n => fractionalLength?_le,
      h.bind_withSuffix?_append fun n => wholeLength?_le]
  · rw [List.cons_append, numberLength?, numberLength?, if_neg hc, if_neg hc]

theorem withSuffix?_le {total : Nat} (h : withSuffix? text n = some total) (hn : n ≤ text.length) :
    total ≤ text.length := by
  obtain ⟨rfl, -⟩ := withSuffix?_eq_some_iff.1 h
  have hname := nameLength_le (text.drop n)
  rw [List.length_drop] at hname
  omega

/-- A number is a fraction or a whole number, and its suffix. -/
theorem numberLength?_cases (h : numberLength? text = some n) :
    ∃ m, (fractionalLength? text = some m ∨ wholeLength? text = some m) ∧
      withSuffix? text m = some n := by
  cases text with
  | nil => contradiction
  | cons c text =>
    rw [numberLength?_of_isAsciiDigit (isAsciiDigit_of_numberLength? h)] at h
    rcases Option.or_eq_some_iff.1 h with hfraction | ⟨-, hwhole⟩
    · obtain ⟨m, hm, hsuffix⟩ := Option.bind_eq_some_iff.1 hfraction
      exact ⟨m, .inl hm, hsuffix⟩
    · obtain ⟨m, hm, hsuffix⟩ := Option.bind_eq_some_iff.1 hwhole
      exact ⟨m, .inr hm, hsuffix⟩

theorem numberLength?_le (h : numberLength? text = some n) : n ≤ text.length := by
  obtain ⟨m, hfraction | hwhole, hsuffix⟩ := numberLength?_cases h
  · exact withSuffix?_le hsuffix (fractionalLength?_le hfraction)
  · exact withSuffix?_le hsuffix (wholeLength?_le hwhole)

theorem isIdentifierContinue_of_isDigitPart (h : isDigitPart c = true) :
    Charset.isIdentifierContinue c = true := by
  rcases Bool.or_eq_true_iff.1 h with hdigit | hline
  · have hascii : Charset.isAscii c = true := by
      simp only [Charset.isAsciiDigit, Bool.and_eq_true, decide_eq_true_eq] at hdigit
      have hhigh : c.toNat ≤ '9'.toNat := hdigit.2
      simp only [Char.reduceToNat] at hhigh
      exact decide_eq_true (by omega)
    rw [Charset.isIdentifierContinue, if_pos hascii, hdigit, Bool.or_true, Bool.true_or]
  · obtain rfl := eq_of_beq hline
    decide

theorem behindDigits?_pos (h : behindDigits? text = some n) : 0 < n := by
  cases text with
  | nil => contradiction
  | cons c text =>
    by_cases hc : c = '.'
    · subst hc
      rw [behindDigits?] at h
      grind
    · rw [behindDigits?_of_ne hc, exponentBehind?] at h
      grind [Option.map_eq_some_iff]

/-- A number has a digit. -/
theorem numberLength?_pos (h : numberLength? text = some n) : 0 < n := by
  obtain ⟨m, hmeasured, hsuffix⟩ := numberLength?_cases h
  obtain ⟨rfl, -⟩ := withSuffix?_eq_some_iff.1 hsuffix
  suffices hm : 0 < m from Nat.add_pos_left hm _
  rcases hmeasured with hfraction | hwhole
  · rw [fractionalLength?_eq] at hfraction
    obtain ⟨k, hk, rfl⟩ := Option.map_eq_some_iff.1 hfraction
    exact Nat.add_pos_left (behindDigits?_pos hk) _
  · refine Nat.pos_of_ne_zero ?_
    rintro rfl
    have hnone : wholeLength? [] = some 0 := wholeLength?_of_append hwhole (Nat.le_refl 0)
    contradiction

theorem isIdentifierContinue_of_nameLength (h : nameLength (c :: text) = text.length + 1) :
    ∀ d ∈ text, Charset.isIdentifierContinue d = true := by
  rw [nameLength] at h
  split at h
  · have hall : (text.takeWhile Charset.isIdentifierContinue).length = text.length := by omega
    exact List.takeWhile_eq_self_iff.1 ((List.takeWhile_prefix _).eq_of_length hall)
  · exact absurd h.symm (Nat.succ_ne_zero _)

/-- Where a text is a whole number with a suffix and its front could be one with an exponent, the
letter of the exponent starts the suffix. -/
theorem isIdentifierContinue_behind {m : Nat} (hwhole : wholeLength? text = some n)
    (hname : nameLength (text.drop n) = (text.drop n).length)
    (hfraction : fractionalLength? text = some m) :
    ∀ c ∈ text.drop m, Charset.isIdentifierContinue c = true := by
  rw [fractionalLength?_eq] at hfraction
  obtain ⟨k, hk, rfl⟩ := Option.map_eq_some_iff.1 hfraction
  have hbase : baseAhead text = (10, 0) := by
    unfold baseAhead
    split
    case h_4 => rfl
    -- No exponent starts with the letter of a base.
    all_goals contradiction
  rw [wholeLength?_eq, hbase] at hwhole
  obtain ⟨digits, hdigits, rfl⟩ := Option.map_eq_some_iff.1 hwhole
  have hparts := List.takeWhile_append_dropWhile (p := isDigitPart) (l := text)
  generalize hfront : text.takeWhile isDigitPart = front at hparts ⊢
  generalize hback : text.dropWhile isDigitPart = back at hparts hk
  have hdigit : ∀ c ∈ front, isDigitPart c = true :=
    hfront ▸ List.all_eq_true.1 List.all_takeWhile
  have hstop : ∀ c ∈ back.head?, isDigitPart c = false := hback ▸ head?_dropWhile
  rw [← hparts] at hdigits hname ⊢
  obtain rfl := digitsLength?_ten hdigit hstop hdigits
  rw [Nat.add_zero, List.drop_left] at hname
  rw [Nat.add_comm, List.drop_length_add_append]
  -- All that is behind the digits is a suffix of the whole number, and the fraction ends within it.
  cases back with
  | nil => contradiction
  | cons c back =>
    obtain ⟨k, rfl⟩ := Nat.exists_eq_add_one.2 (behindDigits?_pos hk)
    rw [List.drop_succ_cons]
    exact fun d hd => isIdentifierContinue_of_nameLength hname d (List.mem_of_mem_drop hd)

/-- What is measured as a number is one by itself. -/
theorem isNumber_of_append (h : numberLength? (text ++ rest) = some text.length) :
    IsNumber text := by
  have hpos := numberLength?_pos h
  obtain ⟨c, text, rfl⟩ := List.exists_cons_of_length_pos hpos
  have hc := isAsciiDigit_of_numberLength? h
  unfold IsNumber
  rw [List.cons_append, numberLength?_of_isAsciiDigit hc, ← List.cons_append] at h
  rw [numberLength?_of_isAsciiDigit hc]
  generalize c :: text = text at h ⊢
  -- It was read with a fraction or an exponent, or as a whole number.
  rcases Option.or_eq_some_iff.1 h with hfraction | ⟨-, hwhole⟩
  · obtain ⟨n, hn, hsuffix⟩ := Option.bind_eq_some_iff.1 hfraction
    obtain ⟨hle, hname, hstop⟩ := withSuffix?_of_append hsuffix
    have hdigit : ∀ c ∈ rest.head?, isDigitPart c = false := fun c hc =>
      Bool.eq_false_iff.2 fun hpart =>
        Bool.eq_false_iff.1 (hstop c hc) (isIdentifierContinue_of_isDigitPart hpart)
    rw [fractionalLength?_of_append hn hle hdigit, Option.bind_some,
      withSuffix?_eq_length hle hname, Option.some_or]
  · obtain ⟨n, hn, hsuffix⟩ := Option.bind_eq_some_iff.1 hwhole
    obtain ⟨hle, hname, -⟩ := withSuffix?_of_append hsuffix
    have hwhole := wholeLength?_of_append hn hle
    rw [hwhole, Option.bind_some, withSuffix?_eq_length hle hname]
    -- If the text alone could be read as a number with an exponent too, that one would be as long.
    cases hfraction : (fractionalLength? text).bind (withSuffix? text) with
    | none => rfl
    | some total =>
      obtain ⟨m, hm, hend⟩ := Option.bind_eq_some_iff.1 hfraction
      obtain ⟨htotal, hnext⟩ := withSuffix?_eq_some_iff.1 hend
      have hbehind := isIdentifierContinue_behind hwhole hname hm
      have hm := fractionalLength?_le hm
      have hlength := nameLength_le (text.drop m)
      rw [List.length_drop] at hlength
      have hall : text.length ≤ total := by
        refine Nat.le_of_not_lt fun hlt => ?_
        have hmem : text[total] ∈ text.drop m :=
          List.mem_drop_iff_getElem.2 ⟨total - m, by omega, by simp [htotal]⟩
        have hhead := hnext text[total] (by rw [List.drop_eq_getElem_cons hlt]; rfl)
        exact Bool.eq_false_iff.1 hhead (hbehind _ hmem)
      rw [Option.some_or, Nat.le_antisymm (by omega) hall]

/-- No character that ends a number stands in one. -/
theorem IsNumber.not_mem (h : IsNumber text) : ∀ c ∈ text, c ∉ endMarks := by
  intro c hmem hc
  obtain ⟨front, rest, rfl⟩ := List.append_of_mem hmem
  have hends : Ends (c :: rest) := by
    intro d hd
    obtain rfl := Option.some.inj hd
    exact hc
  rw [IsNumber] at h
  cases front with
  | nil =>
    have hdigit := isAsciiDigit_of_numberLength? h
    have hnone : ∀ d ∈ endMarks, Charset.isAsciiDigit d = false := by decide
    rw [hnone c hc] at hdigit
    contradiction
  | cons d front =>
    rw [hends.numberLength?_append (List.cons_ne_nil d front)] at h
    have hle := numberLength?_le h
    simp only [List.length_append, List.length_cons] at hle
    omega

theorem digitsLength?_of_isAsciiDigit (h : ∀ c ∈ text, Charset.isAsciiDigit c = true)
    (hfound : found = true ∨ text ≠ []) : digitsLength? 10 found text = some text.length := by
  induction text generalizing found with
  | nil =>
    obtain rfl := hfound.resolve_right (absurd rfl)
    rfl
  | cons c text ih =>
    obtain ⟨hc, htext⟩ := List.forall_mem_cons.1 h
    obtain ⟨digit, hvalue, hlt⟩ := digitValue?_of_isAsciiDigit hc
    have hline : (c == '_') = false := by
      refine Bool.eq_false_iff.2 fun hline => ?_
      obtain rfl := eq_of_beq hline
      exact absurd hc (by decide)
    rw [digitsLength?, hline, if_neg Bool.false_ne_true, hvalue]
    dsimp only
    rw [if_pos hlt, ih htext (.inl rfl)]
    rfl

/-- Decimal digits are a number. -/
theorem isNumber_of_isAsciiDigit (hne : text ≠ [])
    (h : ∀ c ∈ text, Charset.isAsciiDigit c = true) : IsNumber text := by
  have hdigits : ∀ c ∈ text, isDigitPart c = true := fun c hc => by
    rw [isDigitPart, h c hc, Bool.true_or]
  -- Digits alone have no fraction and no exponent, no base in front and no suffix behind.
  have hfraction : fractionalLength? text = none := by
    rw [fractionalLength?_eq, List.dropWhile_eq_nil_iff.2 hdigits]
    rfl
  have hbase : baseAhead text = (10, 0) := by
    unfold baseAhead
    split
    case h_4 => rfl
    all_goals
      simp only [List.forall_mem_cons] at h
      exact absurd h.2.1 (by decide)
  have hwhole : wholeLength? text = some text.length := by
    rw [wholeLength?_eq, hbase, List.drop_zero, digitsLength?_of_isAsciiDigit h (.inr hne)]
    rfl
  have hsuffix : withSuffix? text text.length = some text.length :=
    withSuffix?_eq_length (Nat.le_refl _) (by rw [List.drop_length]; rfl)
  obtain ⟨c, text, rfl⟩ := List.exists_cons_of_ne_nil hne
  rw [IsNumber, numberLength?_of_isAsciiDigit (h c List.mem_cons_self), hfraction, hwhole]
  exact hsuffix

end

end UnitLoader.Syntax
