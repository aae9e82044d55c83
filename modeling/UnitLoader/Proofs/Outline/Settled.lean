import UnitLoader.Proofs.Outline.Lexeme

/-!
# Lexemes that end in front of a word

A lexeme that ends before a word starts does not depend on what the word is, nor on what stands
behind it (`lexeme_settled`). So all that is in front of a place where a word is read is read in the
same way if another word stands there, or nothing at all (`Reached.tokens_append`).

A comment or a literal that ends has all that it depends on inside of itself. A word, a number, a
lifetime and a line comment end where a character follows that does not belong to them, and one that
starts a word belongs to each of them. The rest is told by the next one or two characters or by the
next that is no hash sign, and none of the characters that make a difference there starts a word.
-/

namespace UnitLoader.Outline

open UnitLoader.Text

/-! ## Where a word may stand -/

/-- The text is empty or starts with a character that starts a word. -/
def StartsWord (text : List Char) : Prop := ∀ c ∈ text.head?, isWordStart c = true

section

variable {text rest behind other : List Char}

theorem startsWord_nil : StartsWord [] := nofun

theorem startsWord_cons {c : Char} (hc : isWordStart c = true) : StartsWord (c :: rest) :=
  fun _ h => Option.some.inj h ▸ hc

theorem StartsWord.ne_cons (h : StartsWord behind) {d : Char} (hd : isWordStart d = false)
    (inner : List Char) : behind ≠ d :: inner := by
  rintro rfl
  exact absurd ((h d rfl).symm.trans hd) (by decide)

/-- In front of a word, a text starts with no other character than it does alone. -/
theorem StartsWord.append_ne_cons (h : StartsWord behind) {d : Char} (hd : isWordStart d = false)
    (hrest : ∀ inner, rest = d :: inner → False) (inner : List Char) :
    rest ++ behind ≠ d :: inner := by
  cases rest with
  | nil => exact h.ne_cons hd inner
  | cons e rest => exact fun heq => hrest rest (by rw [(List.cons.inj heq).1])

/-- No character of a raw literal starts a word. -/
theorem StartsWord.not_raw (h : StartsWord behind) : ∀ d ∈ behind.head?, d ≠ '#' ∧ d ≠ '"' :=
  fun d hd =>
    ⟨fun heq => absurd (heq ▸ h d hd) (by decide), fun heq => absurd (heq ▸ h d hd) (by decide)⟩

/-! ## Runs -/

/-- A run that ends in a text ends there whatever follows. -/
theorem takeWhile_append_of_lt {p : Char → Bool} (h : (text.takeWhile p).length < text.length)
    (more : List Char) : (text ++ more).takeWhile p = text.takeWhile p := by
  rw [List.takeWhile_append, if_neg (Nat.ne_of_lt h)]

/-- A run that does not reach beyond a text ends in it, if the next character belongs to the run. -/
theorem length_takeWhile_lt {p : Char → Bool} {c : Char} (hc : p c = true)
    (h : ((text ++ c :: rest).takeWhile p).length ≤ text.length) :
    (text.takeWhile p).length < text.length := by
  refine Nat.lt_of_le_of_ne (List.takeWhile_prefix p).length_le fun hall => ?_
  rw [List.takeWhile_append, if_pos hall, List.takeWhile_cons_of_pos hc, List.length_append,
    List.length_cons] at h
  omega

/-- An escape that ends in a text ends there whatever follows. -/
theorem escapedTailLength_append_of_lt
    (h : (text.takeWhile fun c => c != '\'' && c != '\n').length < text.length)
    (more : List Char) : escapedTailLength (text ++ more) = escapedTailLength text := by
  unfold escapedTailLength
  dsimp only
  rw [takeWhile_append_of_lt h, List.drop_append_of_le_length (Nat.le_of_lt h)]
  cases hdrop : text.drop (text.takeWhile fun c => c != '\'' && c != '\n').length with
  | nil => exact absurd (List.drop_eq_nil_iff.1 hdrop) (Nat.not_le.2 h)
  | cons d inner =>
    rw [List.cons_append]
    split <;> split <;> simp_all

theorem length_takeWhile_le_escapedTailLength (text : List Char) :
    (text.takeWhile fun c => c != '\'' && c != '\n').length ≤ escapedTailLength text := by
  unfold escapedTailLength
  dsimp only
  split <;> omega

theorem rawLength?_settled (hbehind : behind ≠ [])
    (h : ∀ n, rawLength? (text ++ behind) = some n → n ≤ text.length) (hother : StartsWord other) :
    rawLength? (text ++ other) = rawLength? text := by
  cases htext : rawLength? text with
  | none =>
    exact rawLength?_append_of_none htext hother.not_raw
  | some n =>
    obtain ⟨hashes, body, rfl⟩ := eq_replicate_of_rawLength? htext
    have hraw (more : List Char) :
        rawLength? (List.replicate hashes '#' ++ '"' :: body ++ more) =
          some (hashes + 1 + rawBodyLength hashes (body ++ more)) := by
      rw [List.append_assoc, List.cons_append, rawLength?_replicate]
    have hle := h _ (hraw behind)
    rw [List.length_append, List.length_replicate, List.length_cons] at hle
    have hbody : rawBodyLength hashes (body ++ other) = rawBodyLength hashes body :=
      (rawBodyLength_endsOrGoesOn hashes body).append_eq hbehind (by omega) other
    rw [hraw, hbody, ← htext, rawLength?_replicate]

/-! ## Literals and words in front of a word -/

section

variable {c : Char} (hc : isWordStart c = true)
include hc

theorem escapedTailLength_settled (h : escapedTailLength (text ++ c :: rest) ≤ text.length)
    (more : List Char) : escapedTailLength (text ++ more) = escapedTailLength text := by
  have hplain : (c != '\'' && c != '\n') = true := by
    rw [Bool.and_eq_true, bne_iff_ne, bne_iff_ne]
    constructor
    all_goals
      rintro rfl
      exact absurd hc (by decide)
  have hle := Nat.le_trans (length_takeWhile_le_escapedTailLength _) h
  exact escapedTailLength_append_of_lt (length_takeWhile_lt hplain hle) more

theorem wordOf_settled (h : (wordOf (text ++ c :: rest)).length ≤ text.length) :
    (wordOf text).length < text.length ∧ ∀ more, wordOf (text ++ more) = wordOf text := by
  have hlt := length_takeWhile_lt (isWordPart_of_isWordStart hc) h
  exact ⟨hlt, takeWhile_append_of_lt hlt⟩

theorem apostropheLength_pos : 0 < apostropheLength (c :: rest) := by
  have hescape : c ≠ '\\' := by
    rintro rfl
    exact absurd hc (by decide)
  by_cases hrest : ∃ tail, rest = '\'' :: tail
  · obtain ⟨tail, rfl⟩ := hrest
    rw [apostropheLength_character hescape]
    exact Nat.succ_pos 1
  · rw [apostropheLength_lifetime hescape fun tail h => hrest ⟨tail, h⟩]
    exact length_wordOf_pos (isWordPart_of_isWordStart hc) rest

theorem apostropheLength_settled (h : apostropheLength (text ++ c :: rest) ≤ text.length)
    (hother : StartsWord other) : apostropheLength (text ++ other) = apostropheLength text := by
  fun_cases apostropheLength text with
  -- Nothing stands behind the apostrophe, so the word would be a lifetime.
  | case1 => exact absurd h (Nat.not_le.2 (apostropheLength_pos hc))
  | case2 =>
    -- The backslash would escape the first character of the word.
    have hlt : 1 < apostropheLength ('\\' :: c :: rest) := Nat.lt_add_right _ (Nat.lt_succ_self 1)
    exact absurd h (Nat.not_le.2 hlt)
  | case3 d text =>
    have hle : escapedTailLength (text ++ c :: rest) ≤ text.length := by
      have hwhole : 2 + escapedTailLength (text ++ c :: rest) ≤ text.length + 2 := h
      omega
    exact congrArg (2 + ·) (escapedTailLength_settled hc hle other)
  | case4 d text hescape => exact apostropheLength_character hescape _
  | case5 text hempty hescape hescaped hquoted =>
    -- Neither of the first two characters is another one, and what follows is no apostrophe.
    obtain ⟨d, text, rfl⟩ := List.exists_cons_of_ne_nil hempty
    have hd : d ≠ '\\' := by
      rintro rfl
      cases text with
      | nil => exact hescape rfl
      | cons e text => exact hescaped e text rfl
    have hlifetime {next : List Char} (hnext : StartsWord next) :
        apostropheLength (d :: text ++ next) = (wordOf (d :: text ++ next)).length :=
      apostropheLength_lifetime hd (hnext.append_ne_cons (by decide)
        fun inner htext => hquoted d inner (by rw [htext]))
    rw [hlifetime (startsWord_cons hc)] at h
    rw [hlifetime hother, (wordOf_settled hc h).2]

theorem wordLexeme_settled {word : List Char} (htext : text ≠ [])
    (h : (wordLexeme word (text ++ c :: rest)).2 ≤ word.length + text.length)
    (hother : StartsWord other) : wordLexeme word (text ++ other) = wordLexeme word text := by
  fun_cases wordLexeme word text with
  | case1 text =>
    -- The letter apart, the literal ends within the text; so do those below.
    have hle : apostropheLength (text ++ c :: rest) ≤ text.length := by
      have hwhole : 2 + apostropheLength (text ++ c :: rest) ≤ 1 + (text.length + 1) := h
      omega
    exact congrArg (fun n => (none, 2 + n)) (apostropheLength_settled hc hle hother)
  | case2 text | case3 text =>
    have hle : quotedLength (text ++ c :: rest) ≤ text.length := by
      have hwhole : 2 + quotedLength (text ++ c :: rest) ≤ 1 + (text.length + 1) := h
      omega
    exact congrArg (fun n => (none, 2 + n))
      ((quotedLength_endsOrGoesOn text).append_eq (List.cons_ne_nil c rest) hle other)
  | case4 text n hraw =>
    -- A raw literal that was measured ends within the text.
    simp only [hraw]
    refine wordLexeme_raw ((rawLength?_settled (List.cons_ne_nil c rest) ?_ hother).trans hraw)
    intro m hm
    rw [wordLexeme_raw hm] at h
    exact Nat.le_of_add_le_add_left h
  | case5 text hraw =>
    -- What follows is a word, and no quote or hash sign that would make it a raw literal.
    have hnone {next : List Char} (hnext : StartsWord next) :
        rawLength? ('#' :: (text ++ next)) = none :=
      rawLength?_append_of_none hraw hnext.not_raw
    have hle : (wordOf (text ++ c :: rest)).length ≤ text.length := by
      have hwhole : 2 + (wordOf (text ++ c :: rest)).length ≤ 1 + (text.length + 1) := by
        rwa [List.cons_append, wordLexeme.eq_5 _ (hnone (startsWord_cons hc))] at h
      omega
    simp only [hraw]
    rw [List.cons_append, wordLexeme.eq_5 _ (hnone hother), (wordOf_settled hc hle).2]
  | case6 text hraw hhash =>
    -- The letter stands by itself, and what follows cannot change that.
    simp only [hraw]
    have hnone := rawLength?_append_of_none hraw hother.not_raw
    exact wordLexeme.eq_6 _ (hother.append_ne_cons (by decide) hhash) hnone
  | case7 word next text hraw hb hquoted hletter hr =>
    -- The letters of a raw literal: with one behind them or without, the text decides.
    rw [List.cons_append, wordLexeme_of_next hb hquoted hletter hr, if_pos hraw] at h ⊢
    rw [if_pos hraw, ← List.cons_append,
      rawLength?_settled (List.cons_ne_nil c rest) (fun n hn => ?_) hother]
    rw [← List.cons_append, hn] at h
    exact Nat.le_of_add_le_add_left h
  | case8 word next text hraw hb hquoted hletter hr =>
    -- Other words take nothing behind them.
    rw [List.cons_append, wordLexeme_of_next hb hquoted hletter hr, if_neg hraw, if_neg hraw]
  | case9 => exact absurd rfl htext

end

/-! ## Lexemes in front of a word -/

/-- In front of a word a lexeme that is neither a comment nor a literal is told by its first
character, a word apart. -/
theorem lexeme_cons_append_word {d : Char} (hbehind : StartsWord behind)
    (hline : ∀ inner, d = '/' → rest = '/' :: inner → False)
    (hblock : ∀ inner, d = '/' → rest = '*' :: inner → False)
    (hquote : d = '"' → False) (hapostrophe : d = '\'' → False) (hopen : d = '\x7b' → False)
    (hclose : d = '\x7d' → False) :
    lexeme (d :: rest ++ behind) =
      if Charset.isWhitespace d then (none, 1)
      else if Charset.isAsciiDigit d then (none, (wordOf (d :: rest ++ behind)).length)
      else if isWordStart d then
        wordLexeme (wordOf (d :: rest ++ behind))
          ((d :: rest ++ behind).drop (wordOf (d :: rest ++ behind)).length)
      else (some (.mark d), 1) :=
  lexeme_of_other
    (fun inner hd => hbehind.append_ne_cons (by decide) (fun inner => hline inner hd) inner)
    (fun inner hd => hbehind.append_ne_cons (by decide) (fun inner => hblock inner hd) inner)
    hquote hapostrophe hopen hclose

/-- A lexeme that ends in front of a word is the same in front of any other, and at the end of a
text. -/
theorem lexeme_settled {c : Char} (hc : isWordStart c = true)
    (h : (lexeme (text ++ c :: rest)).2 ≤ text.length) (hother : StartsWord other) :
    lexeme (text ++ other) = lexeme text := by
  have hstarts : StartsWord (c :: rest) := startsWord_cons hc
  fun_cases lexeme text with
  -- A lexeme is never empty, so it would take something of the word.
  | case1 => exact absurd h (Nat.not_le.2 (length_lexeme_pos (List.cons_ne_nil c rest)))
  | case2 text =>
    -- The line feed that ends the comment is none of the characters of a word.
    have hfeed : (c != '\n') = true := by
      refine bne_iff_ne.2 ?_
      rintro rfl
      exact absurd hc (by decide)
    have hle : ((text ++ c :: rest).takeWhile (· != '\n')).length ≤ text.length := by
      have hwhole : 2 + ((text ++ c :: rest).takeWhile (· != '\n')).length ≤
          text.length + 1 + 1 := h
      omega
    have hlt := length_takeWhile_lt (p := (· != '\n')) hfeed hle
    have hrun := takeWhile_append_of_lt hlt other
    exact congrArg (fun run => (none, 2 + run.length)) hrun
  | case3 text =>
    -- This and the next two go on to the end of the text if they do not end within it, and then
    -- they would take the word.
    have hle : blockCommentLength 0 (text ++ c :: rest) ≤ text.length := by
      have hwhole : 2 + blockCommentLength 0 (text ++ c :: rest) ≤ text.length + 1 + 1 := h
      omega
    exact congrArg (fun n => (none, 2 + n))
      ((blockCommentLength_endsOrGoesOn 0 text).append_eq (List.cons_ne_nil c rest) hle other)
  | case4 text =>
    have hle : quotedLength (text ++ c :: rest) ≤ text.length := by
      have hwhole : 1 + quotedLength (text ++ c :: rest) ≤ text.length + 1 := h
      omega
    exact congrArg (fun n => (none, 1 + n))
      ((quotedLength_endsOrGoesOn text).append_eq (List.cons_ne_nil c rest) hle other)
  | case5 text =>
    have hle : apostropheLength (text ++ c :: rest) ≤ text.length := by
      have hwhole : 1 + apostropheLength (text ++ c :: rest) ≤ text.length + 1 := h
      omega
    exact congrArg (fun n => (none, 1 + n)) (apostropheLength_settled hc hle hother)
  | case6 => rfl
  | case7 => rfl
  | case8 d text hline hblock hquote hapostrophe hopen hclose hspace =>
    -- From here on the first character decides, and it is in the text.
    rw [lexeme_cons_append_word hother hline hblock hquote hapostrophe hopen hclose, if_pos hspace]
  | case9 d text hline hblock hquote hapostrophe hopen hclose hspace hdigit =>
    -- A number ends in front of the word, as a word would.
    rw [lexeme_cons_append_word hstarts hline hblock hquote hapostrophe hopen hclose,
      if_neg hspace, if_pos hdigit] at h
    rw [lexeme_cons_append_word hother hline hblock hquote hapostrophe hopen hclose,
      if_neg hspace, if_pos hdigit, (wordOf_settled hc h).2]
  | case10 d text hline hblock hquote hapostrophe hopen hclose hspace hdigit hstart =>
    rw [lexeme_cons_append_word hstarts hline hblock hquote hapostrophe hopen hclose,
      if_neg hspace, if_neg hdigit, if_pos hstart] at h
    rw [lexeme_cons_append_word hother hline hblock hquote hapostrophe hopen hclose,
      if_neg hspace, if_neg hdigit, if_pos hstart]
    -- The word ends in the text, and something of the text stands behind it.
    obtain ⟨hlt, hword⟩ := wordOf_settled hc (Nat.le_trans (length_le_wordLexeme _ _) h)
    have hbehind : (d :: text).drop (wordOf (d :: text)).length ≠ [] := fun hnil =>
      absurd (List.drop_eq_nil_iff.1 hnil) (Nat.not_le.2 hlt)
    have hsplit (more : List Char) : (d :: text ++ more).drop (wordOf (d :: text)).length =
        (d :: text).drop (wordOf (d :: text)).length ++ more :=
      List.drop_append_of_le_length (Nat.le_of_lt hlt)
    rw [hword, hsplit] at h ⊢
    refine wordLexeme_settled hc hbehind (Nat.le_trans h ?_) hother
    rw [List.length_drop]
    omega
  | case11 d text hline hblock hquote hapostrophe hopen hclose hspace hdigit hstart =>
    rw [lexeme_cons_append_word hother hline hblock hquote hapostrophe hopen hclose,
      if_neg hspace, if_neg hdigit, if_neg hstart]

/-! ## The text in front of a word -/

/-- Reading a text lexeme by lexeme arrives at the place between `before` and `behind`. -/
inductive Reached : (before behind : List Char) → Prop
  | start (behind : List Char) : Reached [] behind
  | next {piece before behind : List Char}
      (ends : (lexeme (piece ++ (before ++ behind))).2 = piece.length)
      (reached : Reached before behind) : Reached (piece ++ before) behind

/-- **What is in front of a word is read for itself.** If a place is reached where a word starts, it
is reached with any other text there that starts with a word, and the outline is that of the text in
front followed by that of the other text. -/
theorem Reached.tokens_append {before : List Char} {c : Char} (hc : isWordStart c = true)
    (h : Reached before (c :: rest)) (hother : StartsWord other) :
    Reached before other ∧ tokens (before ++ other) = tokens before ++ tokens other := by
  generalize hplace : c :: rest = place at h
  induction h with
  | start => exact ⟨.start other, rfl⟩
  | @next piece before place ends reached ih =>
    subst hplace
    obtain ⟨hreached, htokens⟩ := ih rfl
    have hle : (lexeme (piece ++ before ++ c :: rest)).2 ≤ (piece ++ before).length := by
      rw [List.append_assoc, ends, List.length_append]
      exact Nat.le_add_right _ _
    -- The first lexeme is the same in front of both texts and at the end.
    have hsettled {next : List Char} (hnext : StartsWord next) :
        lexeme (piece ++ (before ++ next)) = lexeme (piece ++ before) := by
      rw [← List.append_assoc]
      exact lexeme_settled hc hle hnext
    have hlength : (lexeme (piece ++ before)).2 = piece.length := by
      rw [← hsettled (startsWord_cons hc), ends]
    have hfirst {next : List Char} (hnext : StartsWord next) :
        tokens (piece ++ (before ++ next)) =
          (lexeme (piece ++ before)).1.toList ++ tokens (before ++ next) :=
      tokens_append_of_lexeme ((hsettled hnext).trans (Prod.ext rfl hlength))
    refine ⟨.next (by rw [hsettled hother, hlength]) hreached, ?_⟩
    have hbefore := hfirst startsWord_nil
    rw [List.append_nil] at hbefore
    rw [List.append_assoc, hfirst hother, htokens, hbefore, List.append_assoc]

end

end UnitLoader.Outline
