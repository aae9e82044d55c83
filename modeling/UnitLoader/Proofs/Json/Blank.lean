import UnitLoader.Proofs.Json.Closed
import UnitLoader.Proofs.Json.Usable

/-!
# Blank bytes behind a value

A blank byte behind a text ends no string, goes on with no number and completes no word, so the
lexemes stay what they are, unless there is one that is of no use (`lexemesFrom_append_blank`).
Where there is one, no value is read, so the values that can be read are the same
(`run_append_blank`).
-/

namespace UnitLoader.Json

open UnitLoader.Text

/-- Two things are the same, or both are of no use. -/
def Alike {α : Type} (useful : α → Prop) (a b : α) : Prop := a = b ∨ ¬ useful a ∧ ¬ useful b

variable {bytes : List UInt8} {w : UInt8}

/-! ## Numbers -/

/-- A blank byte is none that is not blank. -/
theorem ne_of_isBlank (hw : isBlank w = true) {b : UInt8} (hb : isBlank b = false) : w ≠ b := by
  rintro rfl
  rw [hw] at hb
  contradiction

/-- It is no digit. -/
theorem not_isDigit_of_isBlank (hw : isBlank w = true) : ¬ isDigit w = true := fun hdigit => by
  rw [isBlank_of_isDigit hdigit] at hw
  contradiction

/-- It is not taken for another byte. -/
theorem head?_append_blank (hw : isBlank w = true) {b : UInt8} (hb : isBlank b = false)
    (bytes : List UInt8) : ((bytes ++ [w]).head? == some b) = (bytes.head? == some b) := by
  cases bytes with
  | nil => exact beq_false_of_ne fun h => ne_of_isBlank hw hb (Option.some.inj h)
  | cons c rest => rfl

/-- The digits in front of it end where they did. -/
theorem takeWhile_append_blank (hw : isBlank w = true) (bytes : List UInt8) :
    (bytes ++ [w]).takeWhile isDigit = bytes.takeWhile isDigit := by
  induction bytes with
  | nil => exact List.takeWhile_cons_of_neg (not_isDigit_of_isBlank hw)
  | cons b rest ih => rw [List.cons_append, List.takeWhile_cons, List.takeWhile_cons, ih]

/-- What stands behind a byte that is in front still does. -/
theorem drop_append_of_head? {b : UInt8} (h : bytes.head? = some b) (more : List UInt8) :
    (bytes ++ more).drop 1 = bytes.drop 1 ++ more := by
  cases bytes with
  | nil => contradiction
  | cons c rest => rfl

/-- It goes on with no exponent. -/
theorem exponentOf_append_blank (hw : isBlank w = true) (bytes : List UInt8) :
    exponentOf (bytes ++ [w]) = exponentOf bytes := by
  cases bytes with
  | nil =>
    -- A blank byte is no letter of an exponent.
    refine if_neg ?_
    rw [beq_false_of_ne (ne_of_isBlank hw rfl), beq_false_of_ne (ne_of_isBlank hw rfl)]
    exact Bool.false_ne_true
  | cons b rest =>
    cases rest with
    | nil =>
      -- It is no sign and no digit either.
      have hsign : (w == ascii '+' || w == ascii '-') = false := by
        rw [beq_false_of_ne (ne_of_isBlank hw rfl), beq_false_of_ne (ne_of_isBlank hw rfl)]
        rfl
      have hnegative : ([w].head? == some (ascii '-')) = false := head?_append_blank hw rfl []
      have hdigits : [w].takeWhile isDigit = [] := takeWhile_append_blank hw []
      unfold exponentOf
      simp only [List.singleton_append, hsign, hnegative, hdigits, Bool.false_eq_true, if_false]
      rfl
    | cons s rest =>
      -- Behind a sign, or without one, the digits are the same.
      have hdigits : (if (s == ascii '+' || s == ascii '-') = true then (s :: rest ++ [w]).drop 1
          else s :: rest ++ [w]).takeWhile isDigit =
          (if (s == ascii '+' || s == ascii '-') = true then (s :: rest).drop 1
          else s :: rest).takeWhile isDigit := by
        split
        · exact takeWhile_append_blank hw rest
        · exact takeWhile_append_blank hw (s :: rest)
      unfold exponentOf
      dsimp only [List.cons_append] at hdigits ⊢
      rw [hdigits]
      rfl

/-- It goes on with no number. A number that goes wrong at the end of the bytes goes wrong at the
blank byte then. -/
theorem numberShape_append_blank (hw : isBlank w = true) (bytes : List UInt8) :
    Alike (·.broken = none) (numberShape (bytes ++ [w])) (numberShape bytes) := by
  unfold numberShape
  rw [head?_append_blank hw rfl]
  -- The sign is the same, and the blank byte stays behind what follows it.
  have hbody : (if (bytes.head? == some (ascii '-')) = true then (bytes ++ [w]).drop 1
      else bytes ++ [w]) = (if (bytes.head? == some (ascii '-')) = true then bytes.drop 1
      else bytes) ++ [w] := by
    split
    · rename_i hminus
      exact drop_append_of_head? (beq_iff_eq.1 hminus) [w]
    · rfl
  dsimp only
  rw [hbody, takeWhile_append_blank hw]
  generalize (bytes.head? == some (ascii '-')) = negative
  generalize (if negative = true then bytes.drop 1 else bytes) = body
  split
  · exact .inr ⟨Option.some_ne_none _, Option.some_ne_none _⟩
  split
  · exact .inr ⟨Option.some_ne_none _, Option.some_ne_none _⟩
  -- So are the digits in front of the point.
  rw [List.drop_append_of_le_length (List.takeWhile_prefix isDigit).length_le,
    head?_append_blank hw rfl]
  generalize body.drop (body.takeWhile isDigit).length = rest
  -- So are those behind it.
  have hfraction : (if (rest.head? == some (ascii '.')) = true then
      ((rest ++ [w]).drop 1).takeWhile isDigit else []) =
      if (rest.head? == some (ascii '.')) = true then (rest.drop 1).takeWhile isDigit else [] := by
    split
    · rename_i hpoint
      rw [drop_append_of_head? (beq_iff_eq.1 hpoint), takeWhile_append_blank hw]
    · rfl
  rw [hfraction]
  generalize hdigits : (if (rest.head? == some (ascii '.')) = true then
    (rest.drop 1).takeWhile isDigit else []) = fraction
  -- And the exponent starts behind the same bytes.
  have hrest : (if (rest.head? == some (ascii '.')) = true then
      (rest ++ [w]).drop (1 + fraction.length) else rest ++ [w]) =
      (if (rest.head? == some (ascii '.')) = true then rest.drop (1 + fraction.length)
      else rest) ++ [w] := by
    split
    · rename_i hpoint
      rw [if_pos hpoint] at hdigits
      subst hdigits
      rw [← List.drop_drop, drop_append_of_head? (beq_iff_eq.1 hpoint),
        List.drop_append_of_le_length (List.takeWhile_prefix isDigit).length_le, List.drop_drop]
    · rfl
  rw [hrest, exponentOf_append_blank hw]
  split
  · exact .inr ⟨Option.some_ne_none _, Option.some_ne_none _⟩
  split
  · exact .inl rfl
  · rename_i exponent _ _
    by_cases hempty : exponent.isEmpty = true
    · rw [if_pos hempty, if_pos hempty]
      exact .inr ⟨Option.some_ne_none _, Option.some_ne_none _⟩
    · rw [if_neg hempty, if_neg hempty]
      exact .inl rfl

/-- A number that goes wrong is of no use. -/
theorem not_isUsable_of_broken {s : NumberShape} (h : s.broken ≠ none) :
    ¬ (Lexeme.number s.read s.skip).IsUsable := by
  obtain ⟨atEnd, hbroken⟩ := Option.ne_none_iff_exists'.1 h
  rintro (⟨value, hread⟩ | hskip)
  · rw [NumberShape.read, hbroken] at hread
    contradiction
  · rw [NumberShape.skip, hbroken] at hskip
    contradiction

/-! ## Words -/

/-- It completes no word. -/
theorem wordLexeme_append_blank (hw : isBlank w = true) {word : String} (value : Lexeme)
    (hword : (word.toList.map ascii).all (!isBlank ·) = true) (bytes : List UInt8) :
    Alike (·.1.IsUsable) (wordLexeme word value (bytes ++ [w])) (wordLexeme word value bytes) := by
  unfold wordLexeme
  dsimp only
  by_cases hstarts : word.toList.map ascii <+: bytes
  · have hmore := hstarts.trans (List.prefix_append bytes [w])
    rw [if_pos (List.isPrefixOf_iff_prefix.2 hstarts), if_pos (List.isPrefixOf_iff_prefix.2 hmore)]
    exact .inl rfl
  · have hmore : ¬ word.toList.map ascii <+: bytes ++ [w] := by
      intro hmore
      -- No word ends with the blank byte, so it was there without it.
      rcases List.prefix_concat_iff.1 hmore with hall | hless
      · have hlast : w ∈ word.toList.map ascii := hall ▸ List.mem_concat_self
        have hnone : (!isBlank w) = true := List.all_eq_true.1 hword w hlast
        rw [hw] at hnone
        contradiction
      · exact hstarts hless
    rw [if_neg (mt List.isPrefixOf_iff_prefix.1 hstarts),
      if_neg (mt List.isPrefixOf_iff_prefix.1 hmore)]
    refine .inr ⟨?_, ?_⟩
    · split <;> exact id
    · split <;> exact id

/-! ## Strings -/

/-- A string that is not closed is of no use. -/
theorem not_isUsable_of_not_closes (h : ∀ n, ¬ Closes bytes n) :
    ¬ (lexeme (ascii '"' :: bytes)).1.IsUsable := by
  have hread (text : List Char) : readText bytes ≠ .ok text := fun hread =>
    (closes_of_readText hread).elim h
  cases hskip : skipText 0 bytes with
  | ok n => exact absurd (closes_of_skipText hskip) (h n)
  | error fault =>
    have hlexeme : (lexeme (ascii '"' :: bytes)).1 = .text (readText bytes) (.error fault) := by
      rw [lexeme, hskip]
      rfl
    rw [hlexeme]
    rintro (⟨text, htext⟩ | hskipped)
    · exact hread text htext
    · contradiction

/-- It closes no string, and what a closed string holds does not change. -/
theorem lexeme_quote_append_blank (hw : isBlank w = true) (bytes : List UInt8) :
    Alike (·.1.IsUsable) (lexeme (ascii '"' :: (bytes ++ [w]))) (lexeme (ascii '"' :: bytes)) := by
  by_cases hcloses : ∃ n, Closes bytes n
  · obtain ⟨n, hcloses⟩ := hcloses
    refine .inl ?_
    rw [lexeme_quote (hcloses.append [w]).skips, lexeme_quote hcloses.skips,
      hcloses.readText_append]
  · have hnone (n : Nat) : ¬ Closes bytes n := fun h => hcloses ⟨n, h⟩
    have hquote : w ≠ ascii '"' := ne_of_isBlank hw rfl
    exact .inr ⟨not_isUsable_of_not_closes fun n h => hnone n (h.of_append hquote),
      not_isUsable_of_not_closes hnone⟩

/-! ## Lexemes -/

/-- So the lexeme at the start of the bytes is the same, unless it is of no use. -/
theorem lexeme_append_blank (hw : isBlank w = true) (b : UInt8) (rest : List UInt8) :
    Alike (·.1.IsUsable) (lexeme (b :: (rest ++ [w]))) (lexeme (b :: rest)) := by
  rw [lexeme.eq_def, lexeme.eq_def]
  dsimp only
  split
  case h_7 => exact wordLexeme_append_blank hw .null (by decide) (b :: rest)
  case h_8 => exact wordLexeme_append_blank hw (.boolean true) (by decide) (b :: rest)
  case h_9 => exact wordLexeme_append_blank hw (.boolean false) (by decide) (b :: rest)
  case h_10 => exact lexeme_quote_append_blank hw rest
  case h_11 =>
    split
    · rcases numberShape_append_blank hw (b :: rest) with hsame | ⟨hmore, hless⟩
      · rw [← List.cons_append, hsame]
        -- A number that goes wrong takes all bytes, but it is of no use.
        by_cases hbroken : (numberShape (b :: rest)).broken = none
        · rw [hbroken]
          exact .inl rfl
        · exact .inr ⟨not_isUsable_of_broken hbroken, not_isUsable_of_broken hbroken⟩
      · exact .inr ⟨not_isUsable_of_broken hmore, not_isUsable_of_broken hless⟩
    · exact .inr ⟨id, id⟩
  all_goals exact .inl rfl

/-- And so are all of them. -/
theorem lexemesFrom_append_blank (hw : isBlank w = true) (skip : Nat) (bytes : List UInt8) :
    Alike Usable (lexemesFrom skip (bytes ++ [w])) (lexemesFrom skip bytes) := by
  induction bytes generalizing skip with
  | nil =>
    refine .inl ?_
    cases skip with
    | zero => exact if_pos hw
    | succ skip => rfl
  | cons b rest ih =>
    cases skip with
    | succ skip => exact ih skip
    | zero =>
      rw [List.cons_append, lexemesFrom, lexemesFrom]
      split
      · exact ih 0
      · -- Either the first lexeme is the same in both, or neither text is of use.
        rcases lexeme_append_blank hw b rest with hsame | ⟨hmore, hless⟩
        · rw [hsame]
          rcases ih ((lexeme (b :: rest)).2 - 1) with hrest | ⟨hmore, hless⟩
          · exact .inl (congrArg (_ :: ·) hrest)
          · exact .inr ⟨fun h => hmore fun l hl => h l (List.mem_cons_of_mem _ hl),
              fun h => hless fun l hl => h l (List.mem_cons_of_mem _ hl)⟩
        · exact .inr ⟨fun h => hmore (h _ List.mem_cons_self),
            fun h => hless (h _ List.mem_cons_self)⟩

/-- **A blank byte behind a text changes no value that can be read.** -/
theorem run_append_blank {α : Type} {r : Reader α} (h : r.Passes) (hw : isBlank w = true)
    {a : α} : r.run (bytes ++ [w]) = .ok a ↔ r.run bytes = .ok a := by
  rcases lexemesFrom_append_blank hw 0 bytes with hsame | ⟨hmore, hless⟩
  · have hlexemes : lexemes (bytes ++ [w]) = lexemes bytes := hsame
    rw [Reader.run, Reader.run, hlexemes]
  · exact ⟨fun hrun => absurd (Reader.usable_of_run h hrun) hmore,
      fun hrun => absurd (Reader.usable_of_run h hrun) hless⟩

end UnitLoader.Json
