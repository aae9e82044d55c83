import Mathlib.Data.List.Infix
import UnitLoader.Outline.Token

/-!
# Where a lexeme ends

The outline of a text is read lexeme by lexeme, so all that is to be known of it follows from how
far a lexeme reaches. It takes at least one character and no more than there are
(`length_lexeme_pos`, `length_lexeme_le`), and a text is its first lexeme and the outline of what is
behind it (`tokens_append_of_lexeme`).

`lexeme_append_newline` says what becomes of a lexeme when the text goes on behind a line feed. It
stays what it is, with one exception: a comment or a literal that does not end in the text yields no
token and may go on. All that looks ahead, the search for the end of a raw literal, the two
characters behind an apostrophe and the character behind a word, is covered by this.
-/

namespace UnitLoader.Outline

open UnitLoader.Text

/-! ## Words -/

/-- What starts a word may stand inside of one. -/
theorem isWordPart_of_isWordStart {c : Char} (h : isWordStart c = true) : isWordPart c = true := by
  unfold isWordStart at h
  unfold isWordPart
  rw [Bool.or_eq_true] at h ⊢
  refine h.imp_right fun halphabetic => ?_
  unfold Charset.isAlphabetic at halphabetic
  unfold Charset.isAlphanumeric
  split at halphabetic
  all_goals simp only [*, if_true, Bool.true_or, Bool.false_eq_true, if_false]

/-- A digit may stand inside of a word. -/
theorem isWordPart_of_isAsciiDigit {c : Char} (h : Charset.isAsciiDigit c = true) :
    isWordPart c = true := by
  have hascii : Charset.isAscii c = true := by
    simp only [Charset.isAsciiDigit, Bool.and_eq_true, decide_eq_true_eq] at h
    have hle : c.toNat ≤ '9'.toNat := h.2
    exact decide_eq_true (Nat.lt_of_le_of_lt hle (by decide))
  simp only [isWordPart, Charset.isAlphanumeric, hascii, h, if_true, Bool.or_true]

theorem length_wordOf_le (text : List Char) : (wordOf text).length ≤ text.length :=
  (List.takeWhile_prefix _).length_le

/-- A text is the word at its start and what stands behind it. -/
theorem wordOf_append_drop (text : List Char) :
    wordOf text ++ text.drop (wordOf text).length = text :=
  List.prefix_iff_eq_append.1 (List.takeWhile_prefix _)

/-- A word that starts is not empty. -/
theorem length_wordOf_pos {c : Char} (h : isWordPart c = true) (rest : List Char) :
    0 < (wordOf (c :: rest)).length := by
  rw [wordOf, List.takeWhile_cons_of_pos h]
  exact Nat.succ_pos _

/-! ## The lexeme that a text starts with -/

theorem lexeme_lineComment (rest : List Char) :
    lexeme ('/' :: '/' :: rest) = (none, 2 + (rest.takeWhile (· != '\n')).length) := rfl

theorem lexeme_blockComment (rest : List Char) :
    lexeme ('/' :: '*' :: rest) = (none, 2 + blockCommentLength 0 rest) := rfl

theorem lexeme_cons_quote (rest : List Char) :
    lexeme ('"' :: rest) = (none, 1 + quotedLength rest) := rfl

theorem lexeme_cons_apostrophe (rest : List Char) :
    lexeme ('\'' :: rest) = (none, 1 + apostropheLength rest) := rfl

/-- A character that opens no comment, no literal and no brace is passed over, begins a number or a
word, or is a mark. -/
theorem lexeme_of_other {c : Char} {rest : List Char}
    (hline : ∀ inner, c = '/' → rest = '/' :: inner → False)
    (hblock : ∀ inner, c = '/' → rest = '*' :: inner → False)
    (hquote : c = '"' → False) (hapostrophe : c = '\'' → False) (hopen : c = '\x7b' → False)
    (hclose : c = '\x7d' → False) :
    lexeme (c :: rest) =
      if Charset.isWhitespace c then (none, 1)
      else if Charset.isAsciiDigit c then (none, (wordOf (c :: rest)).length)
      else if isWordStart c then
        wordLexeme (wordOf (c :: rest)) ((c :: rest).drop (wordOf (c :: rest)).length)
      else (some (.mark c), 1) := by
  unfold lexeme
  split
  all_goals simp_all

/-- The letter of a raw literal takes the literal with it. -/
theorem wordLexeme_raw {behind : List Char} {n : Nat} (h : rawLength? behind = some n) :
    wordLexeme ['r'] behind = (none, 1 + n) :=
  wordLexeme.eq_4 behind n h

/-- A word that is no letter of a literal is one itself, unless it is the two letters of a raw
literal. -/
theorem wordLexeme_of_next {word : List Char} {next : Char} {rest : List Char}
    (hbyte : word = ['b'] → next = '\'' → False) (hbytes : word = ['b'] → next = '"' → False)
    (hc : word = ['c'] → next = '"' → False) (hr : word = ['r'] → False) :
    wordLexeme word (next :: rest) =
      if (word == ['b', 'r'] || word == ['c', 'r']) && (next == '"' || next == '#') then
        (none, word.length + (rawLength? (next :: rest)).getD 0)
      else (some (.word word), word.length) :=
  wordLexeme.eq_7 word next rest hbyte hbytes hc hr

/-- Two letters of a raw literal take the literal with them as well. -/
theorem wordLexeme_rawPair {word : List Char} (hword : word ∈ [['b', 'r'], ['c', 'r']])
    {next : Char} (hnext : next = '"' ∨ next = '#') {rest : List Char} {n : Nat}
    (h : rawLength? (next :: rest) = some n) :
    wordLexeme word (next :: rest) = (none, word.length + n) := by
  simp only [List.mem_cons, List.not_mem_nil, or_false] at hword
  obtain rfl | rfl := hword
  all_goals
    rw [wordLexeme_of_next (by simp) (by simp) (by simp) (by simp), h,
      if_pos (by obtain rfl | rfl := hnext <;> decide), Option.getD_some]

/-- A character between apostrophes is a literal. -/
theorem apostropheLength_character {c : Char} (hc : c ≠ '\\') (rest : List Char) :
    apostropheLength (c :: '\'' :: rest) = 2 :=
  apostropheLength.eq_4 c rest hc

/-- A character that no apostrophe follows begins a lifetime. -/
theorem apostropheLength_lifetime {c : Char} {rest : List Char} (hc : c ≠ '\\')
    (hrest : ∀ tail, rest ≠ '\'' :: tail) :
    apostropheLength (c :: rest) = (wordOf (c :: rest)).length := by
  rw [apostropheLength.eq_5]
  · simp
  · simp [hc]
  · simp [hc]
  · exact fun d tail h => hrest tail (List.cons.inj h).2

/-! ## How far a lexeme reaches -/

theorem blockCommentLength_le (depth : Nat) (text : List Char) :
    blockCommentLength depth text ≤ text.length := by
  fun_induction blockCommentLength depth text <;> simp only [List.length_cons, List.length_nil]
  all_goals omega

theorem quotedLength_le (text : List Char) : quotedLength text ≤ text.length := by
  fun_induction quotedLength text <;> simp only [List.length_cons, List.length_nil]
  all_goals omega

theorem rawBodyLength_le (hashes : Nat) (text : List Char) :
    rawBodyLength hashes text ≤ text.length := by
  induction text with
  | nil => exact Nat.le_refl 0
  | cons c rest ih =>
    rw [rawBodyLength]
    split
    · rename_i hends
      have hlength := (List.isPrefixOf_iff_prefix.1 hends).length_le
      simpa only [List.length_cons, List.length_replicate] using hlength
    · exact Nat.succ_le_succ ih

/-- Hash signs, a quote and a text are a raw literal, of which the body goes to the terminator. -/
theorem rawLength?_replicate (hashes : Nat) (body : List Char) :
    rawLength? (List.replicate hashes '#' ++ '"' :: body) =
      some (hashes + 1 + rawBodyLength hashes body) := by
  have htake : (List.replicate hashes '#' ++ '"' :: body).takeWhile (· == '#') =
      List.replicate hashes '#' := by
    rw [List.takeWhile_append_of_pos fun c hc => by simp [List.eq_of_mem_replicate hc],
      List.takeWhile_cons_of_neg (by decide), List.append_nil]
  unfold rawLength?
  rw [htake, List.length_replicate]
  dsimp only
  rw [List.drop_left' (List.length_replicate ..)]
  rfl

/-- Nothing else is one. -/
theorem eq_replicate_of_rawLength? {text : List Char} {n : Nat} (h : rawLength? text = some n) :
    ∃ hashes body, text = List.replicate hashes '#' ++ '"' :: body := by
  unfold rawLength? at h
  dsimp only at h
  split at h
  · rename_i body hdrop
    refine ⟨(text.takeWhile (· == '#')).length, body, ?_⟩
    have hreplicate : text.takeWhile (· == '#') =
        List.replicate (text.takeWhile (· == '#')).length '#' :=
      List.eq_replicate_of_mem fun c hc => eq_of_beq (List.all_eq_true.1 List.all_takeWhile c hc)
    rw [← hreplicate, ← hdrop, List.prefix_iff_eq_append.1 (List.takeWhile_prefix _)]
  · exact absurd h (by simp)

/-- What is none becomes none, unless one of its characters comes next. -/
theorem rawLength?_append_of_none {text more : List Char} (h : rawLength? text = none)
    (hmore : ∀ c ∈ more.head?, c ≠ '#' ∧ c ≠ '"') : rawLength? (text ++ more) = none := by
  refine Option.eq_none_iff_forall_ne_some.2 fun n hn => ?_
  obtain ⟨hashes, body, hsplit⟩ := eq_replicate_of_rawLength? hn
  obtain ⟨inner, hreplicate, htail⟩ | ⟨inner, htext, htail⟩ := List.append_eq_append_iff.1 hsplit
  · -- What comes next would be one of the hash signs or the quote.
    cases inner with
    | nil => exact (hmore '"' (by rw [htail]; rfl)).2 rfl
    | cons c inner =>
      have hmem : c ∈ List.replicate hashes '#' := by rw [hreplicate]; simp
      exact (hmore c (by rw [htail]; rfl)).1 (List.eq_of_mem_replicate hmem)
  · cases inner with
    | nil => exact (hmore '"' (by rw [← List.nil_append more, ← htail]; rfl)).2 rfl
    | cons c inner =>
      rw [List.cons_append, List.cons.injEq] at htail
      rw [htext, ← htail.1, rawLength?_replicate] at h
      exact absurd h (by simp)

theorem rawLength?_le {text : List Char} {n : Nat} (h : rawLength? text = some n) :
    n ≤ text.length := by
  obtain ⟨hashes, body, rfl⟩ := eq_replicate_of_rawLength? h
  rw [rawLength?_replicate, Option.some.injEq] at h
  have := rawBodyLength_le hashes body
  rw [List.length_append, List.length_replicate, List.length_cons]
  omega

theorem escapedTailLength_le (text : List Char) : escapedTailLength text ≤ text.length := by
  have htail := (List.takeWhile_prefix (l := text) fun c => c != '\'' && c != '\n').length_le
  unfold escapedTailLength
  dsimp only
  split
  · rename_i hquote
    have hlength := congrArg List.length hquote
    rw [List.length_drop, List.length_cons] at hlength
    omega
  · exact htail

theorem apostropheLength_le (text : List Char) : apostropheLength text ≤ text.length := by
  fun_cases apostropheLength text with
  | case1 => exact Nat.le_refl 0
  | case2 => exact Nat.le_refl 1
  | case3 c rest =>
    have := escapedTailLength_le rest
    simp only [List.length_cons]
    omega
  | case4 => simp only [List.length_cons]; omega
  | case5 => exact length_wordOf_le text

theorem length_wordLexeme_le (word behind : List Char) :
    (wordLexeme word behind).2 ≤ word.length + behind.length := by
  fun_cases wordLexeme word behind with
  | case1 rest =>
    have := apostropheLength_le rest
    simp only [List.length_cons, List.length_nil]
    omega
  | case2 rest | case3 rest =>
    have := quotedLength_le rest
    simp only [List.length_cons, List.length_nil]
    omega
  | case4 behind n h =>
    have := rawLength?_le h
    simp only [h, List.length_cons, List.length_nil]
    omega
  | case5 rest h =>
    have := length_wordOf_le rest
    simp only [h, List.length_cons, List.length_nil]
    omega
  | case6 behind h hhash =>
    simp only [h]
    exact Nat.le_add_right 1 _
  | case7 word next rest hraw =>
    -- Where no raw literal is measured, the letters alone are taken.
    have hle : (rawLength? (next :: rest)).getD 0 ≤ (next :: rest).length := by
      cases h : rawLength? (next :: rest) with
      | none => exact Nat.zero_le _
      | some n => exact rawLength?_le h
    rw [if_pos hraw]
    exact Nat.add_le_add_left hle _
  | case8 word next rest hraw =>
    rw [if_neg hraw]
    exact Nat.le_add_right _ _
  | case9 => exact Nat.le_add_right _ _

/-- A word is a part of the lexeme that it starts. -/
theorem length_le_wordLexeme (word behind : List Char) :
    word.length ≤ (wordLexeme word behind).2 := by
  fun_cases wordLexeme word behind with
  | case4 behind n h =>
    simp only [h]
    exact Nat.le_add_right 1 n
  | case5 rest h =>
    simp only [h]
    exact Nat.le_trans (Nat.le_succ 1) (Nat.le_add_right 2 _)
  | case6 behind h hhash =>
    simp only [h]
    exact Nat.le_refl 1
  | case7 word next rest hraw =>
    rw [if_pos hraw]
    exact Nat.le_add_right _ _
  | case8 word next rest hraw =>
    rw [if_neg hraw]
  | case9 => exact Nat.le_refl _
  | _ => exact Nat.le_trans (Nat.le_succ 1) (Nat.le_add_right 2 _)

/-- A lexeme is no longer than the text. -/
theorem length_lexeme_le (text : List Char) : (lexeme text).2 ≤ text.length := by
  fun_cases lexeme text with
  | case1 => exact Nat.le_refl 0
  | case2 rest =>
    have := (List.takeWhile_prefix (l := rest) (· != '\n')).length_le
    simp only [List.length_cons]
    omega
  | case3 rest =>
    have := blockCommentLength_le 0 rest
    simp only [List.length_cons]
    omega
  | case4 rest =>
    have := quotedLength_le rest
    simp only [List.length_cons]
    omega
  | case5 rest =>
    have := apostropheLength_le rest
    simp only [List.length_cons]
    omega
  | case9 c rest => exact length_wordOf_le (c :: rest)
  | case10 c rest =>
    -- What is read behind a word is measured behind it.
    have hbehind := length_wordLexeme_le (wordOf (c :: rest))
      ((c :: rest).drop (wordOf (c :: rest)).length)
    have hword := length_wordOf_le (c :: rest)
    rw [List.length_drop] at hbehind
    exact Nat.le_trans hbehind (by omega)
  | _ => exact Nat.succ_le_succ (Nat.zero_le _)

/-- A lexeme takes at least one character. -/
theorem length_lexeme_pos {text : List Char} (h : text ≠ []) : 0 < (lexeme text).2 := by
  fun_cases lexeme text with
  | case1 => exact absurd rfl h
  | case9 c rest _ _ _ _ _ _ _ hdigit =>
    exact length_wordOf_pos (isWordPart_of_isAsciiDigit hdigit) rest
  | case10 c rest _ _ _ _ _ _ _ _ hstart =>
    exact Nat.lt_of_lt_of_le (length_wordOf_pos (isWordPart_of_isWordStart hstart) rest)
      (length_le_wordLexeme _ _)
  | _ => dsimp only; omega

/-! ## Lexeme by lexeme -/

/-- Passing over characters is reading on behind them. -/
theorem tokensFrom_eq_tokens_drop (skip : Nat) (text : List Char) :
    tokensFrom skip text = tokens (text.drop skip) := by
  induction text generalizing skip with
  | nil => rw [List.drop_nil, tokens, tokensFrom, tokensFrom]
  | cons c rest ih =>
    cases skip with
    | zero => rfl
    | succ skip => exact ih skip

/-- The outline of a text is that of its first lexeme and that of the text behind it. -/
theorem tokens_eq_append {text : List Char} (h : text ≠ []) :
    tokens text = (lexeme text).1.toList ++ tokens (text.drop (lexeme text).2) := by
  cases text with
  | nil => exact absurd rfl h
  | cons c rest =>
    obtain ⟨n, hn⟩ := Nat.exists_eq_succ_of_ne_zero (Nat.ne_of_gt (length_lexeme_pos h))
    rw [tokens, tokensFrom]
    dsimp only
    rw [tokensFrom_eq_tokens_drop, hn, Nat.succ_sub_one, List.drop_succ_cons]

/-- What holds of the empty text, and of every text if it holds behind its first lexeme, holds of
every text. -/
theorem lexeme_induction {motive : List Char → Prop} (nil : motive [])
    (step : ∀ text, text ≠ [] → motive (text.drop (lexeme text).2) → motive text)
    (text : List Char) : motive text := by
  induction hlength : text.length using Nat.strong_induction_on generalizing text with
  | _ n ih =>
    by_cases hne : text = []
    · exact hne ▸ nil
    · have hpos := length_lexeme_pos hne
      have hle := length_lexeme_le text
      refine step text hne (ih _ ?_ _ rfl)
      rw [List.length_drop]
      omega

/-- A lexeme that is known to end before a text leaves the outline of that text as it is. -/
theorem tokens_append_of_lexeme {piece text : List Char} {token : Option Token}
    (h : lexeme (piece ++ text) = (token, piece.length)) :
    tokens (piece ++ text) = token.toList ++ tokens text := by
  by_cases hne : piece ++ text = []
  · obtain ⟨rfl, rfl⟩ := List.append_eq_nil_iff.1 hne
    obtain rfl : none = token := (Prod.mk.inj h).1
    rfl
  · rw [tokens_eq_append hne, h, List.drop_left]

/-! ## When the text goes on -/

/-- Two measures of what a text starts with, the second one taken when the text goes on: they are
the same, or both reach to the end of the text. -/
def SameOrToEnd (length n n' : Nat) : Prop := n' = n ∨ length ≤ n ∧ length ≤ n'

/-- What a text starts with ends in the text, whatever follows, or else it goes on in what
follows. -/
def EndsOrGoesOn (measure : List Char → Nat) (text : List Char) : Prop :=
  (∀ more, measure (text ++ more) = measure text) ∨
    measure text = text.length ∧ ∀ more, more ≠ [] → text.length < measure (text ++ more)

theorem EndsOrGoesOn.sameOrToEnd {measure : List Char → Nat} {text : List Char}
    (h : EndsOrGoesOn measure text) (more : List Char) :
    SameOrToEnd text.length (measure text) (measure (text ++ more)) := by
  obtain hends | ⟨hend, hgoes⟩ := h
  · exact .inl (hends more)
  · by_cases hmore : more = []
    · exact .inl (by rw [hmore, List.append_nil])
    · exact .inr ⟨Nat.le_of_eq hend.symm, Nat.le_of_lt (hgoes more hmore)⟩

/-- If it does not go on in some text, it does not go on in any. -/
theorem EndsOrGoesOn.append_eq {measure : List Char → Nat} {text behind : List Char}
    (h : EndsOrGoesOn measure text) (hbehind : behind ≠ [])
    (hle : measure (text ++ behind) ≤ text.length) (more : List Char) :
    measure (text ++ more) = measure text := by
  obtain hends | ⟨-, hgoes⟩ := h
  · exact hends more
  · exact absurd (hgoes behind hbehind) (Nat.not_lt.2 hle)

/-- Some characters in front that belong to it change nothing. -/
theorem EndsOrGoesOn.cons {measure measure' : List Char → Nat} {text rest : List Char} {n : Nat}
    (h : EndsOrGoesOn measure rest) (hlength : text.length = rest.length + n)
    (hstep : ∀ more, measure' (text ++ more) = measure (rest ++ more) + n) :
    EndsOrGoesOn measure' text := by
  have htext : measure' text = measure rest + n := by simpa using hstep []
  obtain hends | ⟨hend, hgoes⟩ := h
  · exact .inl fun more => by rw [hstep, hends, htext]
  · refine .inr ⟨by rw [htext, hend, hlength], fun more hmore => ?_⟩
    have hlt := hgoes more hmore
    rw [hstep, hlength]
    omega

/-- A pair of characters that is no mark of a comment is passed over by its first character. -/
theorem blockCommentLength_cons {depth : Nat} {c d : Char} (rest : List Char)
    (hopen : ¬ (c = '/' ∧ d = '*')) (hclose : ¬ (c = '*' ∧ d = '/')) :
    blockCommentLength depth (c :: d :: rest) = blockCommentLength depth (d :: rest) + 1 :=
  blockCommentLength.eq_5 depth c (d :: rest)
    (fun _ hc hd => hopen ⟨hc, (List.cons.inj hd).1⟩)
    (fun _ _ hc hd => hclose ⟨hc, (List.cons.inj hd).1⟩)
    (fun _ _ _ hc hd => hclose ⟨hc, (List.cons.inj hd).1⟩)

theorem blockCommentLength_pos {depth : Nat} {text : List Char} (h : text ≠ []) :
    0 < blockCommentLength depth text := by
  fun_cases blockCommentLength depth text with
  | case1 => exact absurd rfl h
  | _ => exact Nat.succ_pos _

/-- One character does not close a comment. -/
theorem one_lt_blockCommentLength {depth : Nat} {text : List Char} (h : 1 < text.length) :
    1 < blockCommentLength depth text := by
  fun_cases blockCommentLength depth text with
  | case1 => exact absurd h (by decide)
  | case3 => exact Nat.lt_succ_self 1
  | case5 depth c rest =>
    have hrest : rest ≠ [] := List.ne_nil_of_length_pos (Nat.lt_of_succ_lt_succ h)
    exact Nat.succ_lt_succ (blockCommentLength_pos hrest)
  | _ => exact Nat.succ_lt_succ (Nat.succ_pos _)

theorem blockCommentLength_endsOrGoesOn (depth : Nat) (text : List Char) :
    EndsOrGoesOn (blockCommentLength depth) text := by
  fun_induction blockCommentLength depth text with
  | case1 => exact .inr ⟨rfl, fun _ => blockCommentLength_pos⟩
  | case2 depth rest ih => exact ih.cons rfl fun _ => rfl
  | case3 => exact .inl fun _ => rfl
  | case4 depth rest ih => exact ih.cons rfl fun _ => rfl
  | case5 depth c rest hopen hclose hclose' ih =>
    cases rest with
    | nil =>
      refine .inr ⟨blockCommentLength.eq_5 depth c [] hopen hclose hclose', fun more hmore => ?_⟩
      exact one_lt_blockCommentLength (Nat.succ_lt_succ (List.length_pos_of_ne_nil hmore))
    | cons d rest =>
      -- Which case applies is told by the first two characters, which are those of the text.
      refine ih.cons rfl fun more => blockCommentLength_cons (rest ++ more) ?_ ?_
      · rintro ⟨rfl, rfl⟩
        exact hopen rest rfl rfl
      · rintro ⟨rfl, rfl⟩
        cases depth with
        | zero => exact hclose rest rfl rfl rfl
        | succ depth => exact hclose' depth rest rfl rfl rfl

theorem quotedLength_pos {text : List Char} (h : text ≠ []) : 0 < quotedLength text := by
  fun_cases quotedLength text with
  | case1 => exact absurd rfl h
  | _ => exact Nat.succ_pos _

/-- A character that is no quote does not close a literal. -/
theorem one_lt_quotedLength {text : List Char} (h : 1 < text.length)
    (hquote : ∀ rest, text ≠ '"' :: rest) : 1 < quotedLength text := by
  fun_cases quotedLength text with
  | case1 => exact absurd h (by decide)
  | case2 => exact Nat.succ_lt_succ (Nat.succ_pos _)
  | case3 rest => exact absurd rfl (hquote rest)
  | case4 c rest =>
    have hrest : rest ≠ [] := List.ne_nil_of_length_pos (Nat.lt_of_succ_lt_succ h)
    exact Nat.succ_lt_succ (quotedLength_pos hrest)

theorem quotedLength_endsOrGoesOn (text : List Char) : EndsOrGoesOn quotedLength text := by
  fun_induction quotedLength text with
  | case1 => exact .inr ⟨rfl, fun _ => quotedLength_pos⟩
  | case2 c rest ih => exact ih.cons rfl fun _ => rfl
  | case3 => exact .inl fun _ => rfl
  | case4 c rest hescape hquote ih =>
    cases rest with
    | nil =>
      refine .inr ⟨quotedLength.eq_4 c [] hescape hquote, fun more hmore => ?_⟩
      refine one_lt_quotedLength (Nat.succ_lt_succ (List.length_pos_of_ne_nil hmore)) ?_
      exact fun rest hrest => hquote (List.cons.inj hrest).1
    | cons d rest =>
      exact ih.cons rfl fun more =>
        quotedLength.eq_4 c (d :: rest ++ more) (fun _ _ hc _ => hescape d rest hc rfl) hquote

/-- A text that is shorter than the terminator is body to its end. -/
theorem rawBodyLength_of_lt {hashes : Nat} {text : List Char} (h : text.length < hashes + 1) :
    rawBodyLength hashes text = text.length := by
  induction text with
  | nil => rfl
  | cons c rest ih =>
    rw [List.length_cons] at h ⊢
    rw [rawBodyLength, if_neg, ih (by omega)]
    intro hends
    have hlength := (List.isPrefixOf_iff_prefix.1 hends).length_le
    simp only [List.length_cons, List.length_replicate] at hlength
    omega

/-- A body is followed by its terminator, unless it goes to the end of the text. -/
theorem le_rawBodyLength (hashes : Nat) (text : List Char) :
    hashes + 1 ≤ rawBodyLength hashes text ∨ rawBodyLength hashes text = text.length := by
  induction text with
  | nil => exact .inr rfl
  | cons c rest ih =>
    rw [rawBodyLength, List.length_cons]
    split
    · exact .inl (Nat.le_refl _)
    · omega

theorem rawBodyLength_endsOrGoesOn (hashes : Nat) (text : List Char) :
    EndsOrGoesOn (rawBodyLength hashes) text := by
  induction text with
  | nil =>
    -- The end of the text is not the end of a raw literal, whatever follows.
    refine .inr ⟨rfl, fun more hmore => ?_⟩
    have hle := le_rawBodyLength hashes more
    have hpos := List.length_pos_of_ne_nil hmore
    rw [List.nil_append, List.length_nil]
    omega
  | cons c rest ih =>
    by_cases hlength : (c :: rest).length < hashes + 1
    · -- The terminator may begin in the text, but it does not end there.
      refine .inr ⟨rawBodyLength_of_lt hlength, fun more hmore => ?_⟩
      have hle := le_rawBodyLength hashes (c :: rest ++ more)
      have hpos := List.length_pos_of_ne_nil hmore
      rw [List.length_append] at hle
      omega
    · -- There is room for the terminator, so the text alone tells whether it starts here.
      have hends (more : List Char) : ('"' :: List.replicate hashes '#').isPrefixOf
          (c :: rest ++ more) = ('"' :: List.replicate hashes '#').isPrefixOf (c :: rest) := by
        rw [Bool.eq_iff_iff, List.isPrefixOf_iff_prefix, List.isPrefixOf_iff_prefix]
        refine ⟨fun h => ?_, fun h => h.trans (List.prefix_append _ _)⟩
        exact List.prefix_of_prefix_length_le h (List.prefix_append _ _) (by simpa using hlength)
      have hbody (more : List Char) : rawBodyLength hashes (c :: rest ++ more) =
          if ('"' :: List.replicate hashes '#').isPrefixOf (c :: rest) then hashes + 1
          else rawBodyLength hashes (rest ++ more) + 1 := by
        rw [← hends more]
        rfl
      by_cases hterminator : ('"' :: List.replicate hashes '#').isPrefixOf (c :: rest) = true
      · refine .inl fun more => ?_
        rw [hbody, if_pos hterminator, rawBodyLength, if_pos hterminator]
      · exact ih.cons rfl fun more => by rw [hbody, if_neg hterminator]

/-! ## When the text goes on behind a line feed -/

/-- A run that no line feed belongs to ends in front of one. -/
theorem takeWhile_append_newline {p : Char → Bool} (h : p '\n' = false) (text more : List Char) :
    (text ++ '\n' :: more).takeWhile p = text.takeWhile p := by
  rw [List.takeWhile_append, List.takeWhile_cons_of_neg (by simp [h]), List.append_nil]
  split
  · rename_i hall
    exact ((List.takeWhile_prefix p).eq_of_length hall).symm
  · rfl

theorem wordOf_append_newline (text more : List Char) :
    wordOf (text ++ '\n' :: more) = wordOf text :=
  takeWhile_append_newline (by decide) text more

theorem escapedTailLength_append_newline (text more : List Char) :
    escapedTailLength (text ++ '\n' :: more) = escapedTailLength text := by
  unfold escapedTailLength
  dsimp only
  rw [takeWhile_append_newline (by decide), List.drop_append_of_le_length
    (List.takeWhile_prefix _).length_le]
  cases text.drop (text.takeWhile fun c => c != '\'' && c != '\n').length with
  | nil => rfl
  | cons c rest =>
    rw [List.cons_append]
    split <;> split <;> simp_all

theorem apostropheLength_append_newline (text more : List Char) :
    SameOrToEnd text.length (apostropheLength text)
      (apostropheLength (text ++ '\n' :: more)) := by
  fun_cases apostropheLength text with
  | case1 => exact .inr ⟨Nat.zero_le _, Nat.zero_le _⟩
  | case2 => exact .inr ⟨Nat.le_refl 1, Nat.le_trans (Nat.le_succ 1) (Nat.le_add_right 2 _)⟩
  | case3 c rest =>
    refine .inl ?_
    rw [List.cons_append, List.cons_append, apostropheLength, escapedTailLength_append_newline]
  | case4 c rest hescape => exact .inl (apostropheLength_character hescape _)
  | case5 text hempty hescape hescaped hquoted =>
    -- Neither of the first two characters is another one, and the line feed is no apostrophe.
    obtain ⟨c, rest, rfl⟩ := List.exists_cons_of_ne_nil hempty
    have hc : c ≠ '\\' := by
      rintro rfl
      cases rest with
      | nil => exact hescape rfl
      | cons d rest => exact hescaped d rest rfl
    have hrest : ∀ tail, rest ++ '\n' :: more ≠ '\'' :: tail := by
      intro tail h
      cases rest with
      | nil => exact absurd (List.cons.inj h).1 (by decide)
      | cons d rest => exact hquoted c rest (by rw [(List.cons.inj h).1])
    refine .inl ?_
    rw [List.cons_append, apostropheLength_lifetime hc hrest, ← List.cons_append,
      wordOf_append_newline]

/-- A raw literal stays one, and nothing else becomes one. -/
theorem rawLength?_append_newline (text more : List Char) :
    rawLength? text = none ∧ rawLength? (text ++ '\n' :: more) = none ∨
      ∃ n n', rawLength? text = some n ∧ rawLength? (text ++ '\n' :: more) = some n' ∧
        '"' ∈ text ∧ SameOrToEnd text.length n n' := by
  cases h : rawLength? text with
  | some n =>
    obtain ⟨hashes, body, rfl⟩ := eq_replicate_of_rawLength? h
    rw [rawLength?_replicate, Option.some.injEq] at h
    refine .inr ⟨n, hashes + 1 + rawBodyLength hashes (body ++ '\n' :: more), rfl, ?_, by simp, ?_⟩
    · rw [List.append_assoc, List.cons_append, rawLength?_replicate]
    · have := (rawBodyLength_endsOrGoesOn hashes body).sameOrToEnd ('\n' :: more)
      simp only [SameOrToEnd, List.length_append, List.length_replicate, List.length_cons]
        at this ⊢
      omega
  | none => exact .inl ⟨rfl, rawLength?_append_of_none h (by simp)⟩

/-- A text in which no comment and no literal starts. -/
structure IsBare (text : List Char) : Prop where
  quote : '"' ∉ text
  apostrophe : '\'' ∉ text
  lineComment : ¬ ['/', '/'] <:+: text
  blockComment : ¬ ['/', '*'] <:+: text

/-- What a lexeme at the start of a text becomes when the text goes on: it stays the same, or it is
a comment or a literal that does not end in the text. -/
def Continues (text : List Char) (first first' : Option Token × Nat) : Prop :=
  first' = first ∨
    ¬ IsBare text ∧ first.1 = none ∧ first'.1 = none ∧
      text.length ≤ first.2 ∧ text.length ≤ first'.2

theorem SameOrToEnd.continues {text : List Char} {length n n' k : Nat}
    (h : SameOrToEnd length n n') (hbare : ¬ IsBare text) (hk : text.length = k + length) :
    Continues text (none, k + n) (none, k + n') := by
  obtain rfl | ⟨hn, hn'⟩ := h
  · exact .inl rfl
  · exact .inr ⟨hbare, rfl, rfl, by dsimp only; omega, by dsimp only; omega⟩

theorem wordLexeme_append_newline (word behind more : List Char) :
    Continues (word ++ behind) (wordLexeme word behind)
      (wordLexeme word (behind ++ '\n' :: more)) := by
  fun_cases wordLexeme word behind with
  | case1 rest =>
    exact (apostropheLength_append_newline rest more).continues
      (fun h => h.apostrophe (by simp)) (by simp; omega)
  | case2 rest | case3 rest =>
    exact ((quotedLength_endsOrGoesOn rest).sameOrToEnd _).continues
      (fun h => h.quote (by simp)) (by simp; omega)
  | case4 behind n h =>
    -- A raw literal stays one, and goes on if its terminator is still to come.
    obtain ⟨hnone, -⟩ | ⟨m, n', hm, hn', hquote, hsame⟩ := rawLength?_append_newline behind more
    · exact absurd (hnone.symm.trans h) (by simp)
    · obtain rfl := Option.some.inj (hm.symm.trans h)
      simp only [h]
      rw [wordLexeme_raw hn']
      exact hsame.continues (fun hbare => hbare.quote (by simp [hquote])) (by simp; omega)
  | case5 rest h =>
    -- What is no raw literal becomes none behind a line feed.
    obtain ⟨-, hnone⟩ | ⟨n, n', hn, -⟩ := rawLength?_append_newline ('#' :: rest) more
    · rw [List.cons_append] at hnone
      simp only [h]
      exact .inl (by rw [List.cons_append, wordLexeme.eq_5 _ hnone, wordOf_append_newline])
    · exact absurd (h.symm.trans hn) (by simp)
  | case6 behind h hhash =>
    -- Nor does a hash sign come to stand behind the letter.
    obtain ⟨-, hnone⟩ | ⟨n, n', hn, -⟩ := rawLength?_append_newline behind more
    · simp only [h]
      refine .inl (wordLexeme.eq_6 _ (fun rest hrest => ?_) hnone)
      cases behind with
      | nil => simp at hrest
      | cons c behind => exact hhash behind (by rw [(List.cons.inj hrest).1])
    · exact absurd (h.symm.trans hn) (by simp)
  | case7 word next rest hraw hb hquoted hc hr =>
    -- The letters of a raw literal with nothing raw behind them stay a word.
    rw [List.cons_append, wordLexeme_of_next hb hquoted hc hr, if_pos hraw, if_pos hraw,
      ← List.cons_append]
    obtain ⟨hnone, hnone'⟩ | ⟨n, n', hn, hn', hquote, hsame⟩ :=
      rawLength?_append_newline (next :: rest) more
    · exact .inl (by rw [hnone, hnone'])
    · rw [hn, hn']
      exact hsame.continues (fun hbare => hbare.quote (by simp [hquote])) (by simp)
  | case8 word next rest hraw hb hquoted hc hr =>
    refine .inl ?_
    rw [List.cons_append, wordLexeme_of_next hb hquoted hc hr, if_neg hraw, if_neg hraw]
  | case9 word hr =>
    refine .inl ?_
    rw [List.nil_append, wordLexeme_of_next (by simp) (by simp) (by simp) hr]
    exact if_neg (by simp)

/-- A slash in front of a line feed opens no comment, so that a lexeme that is neither a comment nor
a literal is told by its first character, a word apart. -/
theorem lexeme_cons_append_newline {c : Char} {rest : List Char}
    (hline : ∀ inner, c = '/' → rest = '/' :: inner → False)
    (hblock : ∀ inner, c = '/' → rest = '*' :: inner → False)
    (hquote : c = '"' → False) (hapostrophe : c = '\'' → False) (hopen : c = '\x7b' → False)
    (hclose : c = '\x7d' → False) (more : List Char) :
    lexeme (c :: rest ++ '\n' :: more) =
      if Charset.isWhitespace c then (none, 1)
      else if Charset.isAsciiDigit c then (none, (wordOf (c :: rest)).length)
      else if isWordStart c then
        wordLexeme (wordOf (c :: rest))
          ((c :: rest).drop (wordOf (c :: rest)).length ++ '\n' :: more)
      else (some (.mark c), 1) := by
  have hslash : ∀ d, d ≠ '\n' → (∀ inner, c = '/' → rest = d :: inner → False) →
      ∀ inner, c = '/' → rest ++ '\n' :: more = d :: inner → False := by
    intro d hd hfirst inner hc hrest
    cases rest with
    | nil => exact hd (List.cons.inj hrest).1.symm
    | cons e rest => exact hfirst rest hc (by rw [(List.cons.inj hrest).1])
  rw [List.cons_append, lexeme_of_other (hslash '/' (by decide) hline)
    (hslash '*' (by decide) hblock) hquote hapostrophe hopen hclose, ← List.cons_append,
    wordOf_append_newline, List.drop_append_of_le_length (length_wordOf_le _)]

/-- What a lexeme becomes when the text goes on behind a line feed. -/
theorem lexeme_append_newline {text : List Char} (h : text ≠ []) (more : List Char) :
    Continues text (lexeme text) (lexeme (text ++ '\n' :: more)) := by
  fun_cases lexeme text with
  | case1 => exact absurd rfl h
  | case2 rest =>
    -- A line comment ends in front of the line feed.
    refine .inl ?_
    rw [List.cons_append, List.cons_append, lexeme_lineComment,
      takeWhile_append_newline (by decide)]
  | case3 rest =>
    exact ((blockCommentLength_endsOrGoesOn 0 rest).sameOrToEnd _).continues
      (fun hbare => hbare.blockComment ⟨[], rest, rfl⟩) (by simp; omega)
  | case4 rest =>
    exact ((quotedLength_endsOrGoesOn rest).sameOrToEnd _).continues
      (fun hbare => hbare.quote (by simp)) (by simp; omega)
  | case5 rest =>
    exact (apostropheLength_append_newline rest more).continues
      (fun hbare => hbare.apostrophe (by simp)) (by simp; omega)
  | case6 => exact .inl rfl
  | case7 => exact .inl rfl
  | case8 c rest hline hblock hquote hapostrophe hopen hclose hspace =>
    -- The first character tells the rest of the cases apart, and it is the same.
    refine .inl ?_
    rw [lexeme_cons_append_newline hline hblock hquote hapostrophe hopen hclose, if_pos hspace]
  | case9 c rest hline hblock hquote hapostrophe hopen hclose hspace hdigit =>
    refine .inl ?_
    rw [lexeme_cons_append_newline hline hblock hquote hapostrophe hopen hclose, if_neg hspace,
      if_pos hdigit]
  | case10 c rest hline hblock hquote hapostrophe hopen hclose hspace hdigit hstart =>
    -- The word is the same, and what it may be the letters of goes on or not as it did.
    rw [lexeme_cons_append_newline hline hblock hquote hapostrophe hopen hclose, if_neg hspace,
      if_neg hdigit, if_pos hstart]
    have happend := wordLexeme_append_newline (wordOf (c :: rest))
      ((c :: rest).drop (wordOf (c :: rest)).length) more
    rwa [wordOf_append_drop] at happend
  | case11 c rest hline hblock hquote hapostrophe hopen hclose hspace hdigit hstart =>
    refine .inl ?_
    rw [lexeme_cons_append_newline hline hblock hquote hapostrophe hopen hclose, if_neg hspace,
      if_neg hdigit, if_neg hstart]

end UnitLoader.Outline
