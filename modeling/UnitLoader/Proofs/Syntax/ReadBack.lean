import UnitLoader.Proofs.Syntax.Layout

/-!
# Reading a layout back

The text of a safe layout is read as trees with the pieces of the layout (`tokenTrees?_text`),
whatever its spaces: the lexer takes each piece to its last character (`lexeme?_piece`), and from
the pieces of trees, perhaps with other literals, trees are put together (`exists_addAll`).
-/

namespace UnitLoader.Syntax

open UnitLoader.Text

/-! ## Words -/

section

variable {text rest : List Char} {c : Char} {n : Nat}

/-- The characters that stand in no name, among them whatever starts something else. -/
def outsideNames : List Char := "~!@#$%^&*-=+|;:,<.>/?'\"\\()[]\x7b\x7d \uFEFF".toList

theorem isNameStart_of_mem_outsideNames : ∀ c ∈ outsideNames, isNameStart c = false := by
  decide +kernel

theorem isIdentifierContinue_of_mem_outsideNames :
    ∀ c ∈ outsideNames, Text.Charset.isIdentifierContinue c = false := by decide +kernel

theorem ne_of_isNameStart (h : isNameStart c = true) : ∀ d ∈ outsideNames, c ≠ d := by
  rintro d hd rfl
  rw [isNameStart_of_mem_outsideNames c hd] at h
  contradiction

theorem not_mem_of_isName (h : isName text = true) : ∀ c ∈ outsideNames, c ∉ text := by
  intro c hc hmem
  cases text with
  | nil => contradiction
  | cons d text =>
    obtain ⟨hstart, hrest⟩ := Bool.and_eq_true_iff.1 h
    rcases List.mem_cons.1 hmem with rfl | hmem
    · rw [isNameStart_of_mem_outsideNames c hc] at hstart
      contradiction
    · have hcontinue := List.all_eq_true.1 hrest c hmem
      rw [isIdentifierContinue_of_mem_outsideNames c hc] at hcontinue
      contradiction

/-- Characters that make a literal of the letters in front of them. -/
def quoteMarks : List Char := ['"', '\'', '#']

/-- No literal stands at the start of the text: neither a quote nor a digit, and no letter with a
quote or a hash sign behind it. -/
structure NoLiteral (text : List Char) : Prop where
  first : ∀ c ∈ text.head?, c ∉ quoteMarks ∧ Text.Charset.isAsciiDigit c = false
  second : ∀ c ∈ (text.drop 1).head?, c ∉ quoteMarks
  third : ∀ c d others, text = c :: 'r' :: d :: others → d ∉ quoteMarks

/-- Behind the letters of a raw literal stands a quote or a hash sign. -/
theorem rawLength?_of_head? (h : ∀ c ∈ text.head?, c ∉ quoteMarks) (kind : LiteralKind) :
    rawLength? kind text = none := by
  cases text with
  | nil => rfl
  | cons c text =>
    have hc : c ∉ quoteMarks := h c rfl
    have hquote : c ≠ '"' := fun hc' => hc (hc' ▸ by decide)
    have hhash : (c == '#') = false := by
      refine beq_eq_false_iff_ne.2 fun hc' => hc (hc' ▸ by decide)
    simp only [rawLength?, List.takeWhile_cons, hhash]
    simp [hquote]

theorem NoLiteral.literalLength? (h : NoLiteral text) : literalLength? text = none := by
  have hraw (lead : Nat) (kind : LiteralKind) {behind : List Char}
      (hbehind : ∀ d ∈ behind.head?, d ∉ quoteMarks) :
      suffixed text lead (rawLength? kind behind) = none := by
    rw [rawLength?_of_head? hbehind]
    rfl
  have hthird {c : Char} {behind : List Char} (htext : text = c :: 'r' :: behind) :
      ∀ d ∈ behind.head?, d ∉ quoteMarks := by
    intro d hd
    cases behind with
    | nil => contradiction
    | cons e behind =>
      obtain rfl := Option.some.inj hd
      exact h.third c e behind htext
  -- Each literal starts with a quote, or with at most two letters and then a quote.
  fun_cases Syntax.literalLength? text with
  | case2 => exact hraw 1 .text h.second
  | case4 => exact hraw 2 .bytes (hthird rfl)
  | case6 => exact hraw 2 .cText (hthird rfl)
  | case9 =>
    -- Nor with a digit, so it is no number.
    cases text with
    | nil => rfl
    | cons c text => rw [numberLength?, if_neg (Bool.eq_false_iff.1 (h.first c rfl).2)]
  -- In all other cases a quote would stand where there is none.
  | case1 => exact absurd (by decide) (h.first '"' rfl).1
  | case8 => exact absurd (by decide) (h.first '\'' rfl).1
  | case3 | case5 => exact absurd (by decide) (h.second '"' rfl)
  | case7 => exact absurd (by decide) (h.second '\'' rfl)

theorem NoLiteral.startsLiteral (h : NoLiteral text) : startsLiteral text = false := by
  have hsecond := h.second
  have hthird := h.third
  unfold Syntax.startsLiteral
  split
  case h_11 => rfl
  case h_6 | h_7 | h_9 | h_10 => exact absurd (by decide) (hthird _ _ _ rfl)
  all_goals exact absurd (by decide) (hsecond _ rfl)

/-- A name is no literal, whatever ends it. -/
theorem noLiteral_of_isName (h : isName text = true) (hrest : Ends rest) :
    NoLiteral (text ++ rest) := by
  have hquotes : ∀ c ∈ quoteMarks, c ∉ text := fun c hc =>
    not_mem_of_isName h c ((by decide : ∀ c ∈ quoteMarks, c ∈ outsideNames) c hc)
  have hhead {front : List Char} (hfront : ∀ c ∈ quoteMarks, c ∉ front) :
      ∀ c ∈ (front ++ rest).head?, c ∉ quoteMarks := by
    intro c hc hmem
    -- The next character is one of the name, or what ends the name.
    rw [List.head?_append] at hc
    rcases Option.or_eq_some_iff.1 hc with hc | ⟨-, hc⟩
    · exact hfront c hmem (List.mem_of_head? hc)
    · exact absurd hmem ((by decide : ∀ c ∈ endMarks, c ∉ quoteMarks) c (hrest c hc))
  obtain ⟨first, text, rfl⟩ := List.exists_cons_of_ne_nil (l := text) (by rintro rfl; contradiction)
  have hbehind : ∀ c ∈ quoteMarks, c ∉ text := fun c hc =>
    List.not_mem_of_not_mem_cons (hquotes c hc)
  refine ⟨?_, hhead hbehind, ?_⟩
  · -- It starts with no quote and no digit,
    rintro c ⟨⟩
    exact ⟨fun hc => hquotes _ hc List.mem_cons_self,
      isAsciiDigit_of_isNameStart (Bool.and_eq_true_iff.1 h).1⟩
  · -- and behind two letters there is no quote either.
    intro c d others heq
    obtain ⟨-, heq⟩ := List.cons.inj heq
    cases text with
    | nil =>
      obtain rfl : rest = 'r' :: d :: others := heq
      exact absurd (hrest 'r' rfl) (by decide)
    | cons e text =>
      obtain ⟨-, heq⟩ := List.cons.inj heq
      have hd : (text ++ rest).head? = some d := congrArg List.head? heq
      exact hhead (fun c hc => List.not_mem_of_not_mem_cons (hbehind c hc)) d hd

/-- What starts with no blank, delimiter or comment is read as a leaf. -/
theorem lexeme?_eq_leaf? (hblank : isBlank c = false) (hdelimiter : c ∉ "()[]\x7b\x7d".toList)
    (hslash : c = '/' → ∀ d ∈ rest.head?, d ≠ '/' ∧ d ≠ '*') :
    lexeme? (c :: rest) = leaf? (c :: rest) := by
  have hexpansion : failedExpansion.toList.isPrefixOf (c :: rest) = false := by
    refine Bool.eq_false_iff.2 fun hstarts => ?_
    obtain ⟨rest, heq⟩ := List.isPrefixOf_iff_prefix.1 hstarts
    exact hdelimiter ((List.cons.inj heq).1 ▸ by decide)
  unfold lexeme?
  rw [hexpansion, if_neg Bool.false_ne_true]
  split
  case h_1 =>
    obtain ⟨rfl, rfl⟩ := List.cons.inj ‹_›
    exact absurd rfl (hslash rfl '/' rfl).1
  case h_2 =>
    obtain ⟨rfl, rfl⟩ := List.cons.inj ‹_›
    exact absurd rfl (hslash rfl '*' rfl).2
  case h_9 heq =>
    obtain ⟨rfl, rfl⟩ := List.cons.inj heq
    rw [hblank, if_neg Bool.false_ne_true]
  case h_10 => contradiction
  -- The other cases are those of the six delimiters.
  all_goals
    obtain ⟨rfl, rfl⟩ := List.cons.inj ‹_›
    exact absurd (by decide) hdelimiter

/-- So is a name. -/
theorem lexeme?_of_isNameStart (h : isNameStart c = true) (others : List Char) :
    lexeme? (c :: others) = leaf? (c :: others) := by
  have hne := ne_of_isNameStart h
  have hdelimiters : ∀ d ∈ "()[]\x7b\x7d".toList, d ∈ outsideNames := by decide
  exact lexeme?_eq_leaf? (isBlank_of_isNameStart h) (fun hc => hne c (hdelimiters c hc) rfl)
    fun hc => absurd hc (hne '/' (by decide))

/-- What starts with a mark does not start a comment if no slash or asterisk is behind a slash. -/
theorem startsMark_cons (h : c = '/' → ∀ d ∈ rest.head?, d ≠ '/' ∧ d ≠ '*') :
    startsMark (c :: rest) = isMark c := by
  unfold startsMark
  split
  · rename_i heq
    obtain ⟨rfl, rfl⟩ := List.cons.inj heq
    exact absurd rfl (h rfl '/' rfl).1
  · rename_i heq
    obtain ⟨rfl, rfl⟩ := List.cons.inj heq
    exact absurd rfl (h rfl '*' rfl).2
  · rename_i heq
    obtain ⟨rfl, rfl⟩ := List.cons.inj heq
    rfl
  · contradiction

theorem isMark_of_startsMark (h : startsMark (c :: rest) = true) : isMark c = true := by
  unfold startsMark at h
  split at h
  case h_3 heq =>
    obtain ⟨rfl, -⟩ := List.cons.inj heq
    exact h
  all_goals contradiction

theorem isMark_of_isNameStart (h : isNameStart c = true) : isMark c = false := by
  refine Bool.eq_false_iff.2 fun hmark => ?_
  have hmarks : ∀ d ∈ "~!@#$%^&*-=+|;:,<.>/?'".toList, d ∈ outsideNames := by decide
  rw [isMark, List.contains_iff_mem] at hmark
  rw [isNameStart_of_mem_outsideNames c (hmarks c hmark)] at h
  contradiction

/-- Where no literal stands, a word is read behind the first character of a name. -/
theorem leaf?_of_isNameStart (h : isNameStart c = true) {others : List Char}
    (hlength : literalLength? (c :: others) = none)
    (hbroken : startsLiteral (c :: others) = false) :
    leaf? (c :: others) =
      (word? (c :: others)).map fun (name, n) => (.token (.word name), n) := by
  have hne := ne_of_isNameStart h
  have hstart : startsMark (c :: others) = false := by
    rw [startsMark_cons fun hc => absurd hc (hne '/' (by decide)), isMark_of_isNameStart h]
  rw [leaf?.eq_def, hlength]
  dsimp only
  split
  · exact absurd (List.cons.inj ‹_›).1 (hne '\'' (by decide))
  · rename_i heq
    obtain ⟨rfl, rfl⟩ := List.cons.inj heq
    rw [hstart, hbroken, if_neg Bool.false_ne_true, if_neg Bool.false_ne_true]
  · contradiction

/-- A printed name starts like one. -/
theorem Name.exists_print (name : Name) :
    ∃ c others, name.print = c :: others ∧ isNameStart c = true := by
  obtain ⟨text, raw, hname⟩ := name
  cases raw with
  | true => exact ⟨'r', _, rfl, by decide⟩
  | false =>
    cases htext : text.toList with
    | nil =>
      rw [htext] at hname
      contradiction
    | cons c others =>
      rw [htext] at hname
      exact ⟨c, others, htext, (Bool.and_eq_true_iff.1 hname).1⟩

/-- A word is read as it is printed. -/
theorem word?_name (name : Name) (hraw : name.raw = true → isReservedRaw name.text = false)
    (hrest : Ends rest) : word? (name.print ++ rest) = some (name, name.print.length) := by
  obtain ⟨text, raw, hname⟩ := name
  cases raw with
  | false =>
    have hplain : ∀ behind, text.toList ++ rest ≠ 'r' :: '#' :: behind := fun behind heq =>
      absurd (by decide) ((noLiteral_of_isName hname hrest).second '#' (by rw [heq]; rfl))
    rw [Name.print, if_neg Bool.false_ne_true, List.nil_append, word?.eq_2 _ hplain,
      nameAt?_append hname hrest, hrest.nameLength_append, nameLength_of_isName hname]
    simp
  | true =>
    rw [Name.print, if_pos rfl]
    dsimp only [List.cons_append, List.nil_append]
    rw [word?, nameAt?_append hname hrest]
    simp [hraw rfl, hrest.nameLength_append, nameLength_of_isName hname]

/-- The raw mark of a name starts no raw literal. -/
theorem literalLength?_raw (h : isName text = true) (hrest : Ends rest) :
    literalLength? ('r' :: '#' :: (text ++ rest)) = none ∧
      startsLiteral ('r' :: '#' :: (text ++ rest)) = false := by
  have hquotes := (noLiteral_of_isName h hrest).first
  generalize text ++ rest = others at hquotes
  cases others with
  | nil => exact ⟨by decide, by decide⟩
  | cons c others =>
    have hc := (hquotes c rfl).1
    have hquote : c ≠ '"' := fun hc' => hc (hc' ▸ by decide)
    have hhash : c ≠ '#' := fun hc' => hc (hc' ▸ by decide)
    refine ⟨?_, ?_⟩
    · have hraw : rawLength? .text ('#' :: c :: others) = none := by
        simp [rawLength?, hhash, hquote]
      rw [literalLength?, hraw]
      rfl
    · unfold startsLiteral
      split <;> simp_all

/-- A name is read to its last character. -/
theorem lexeme?_name (name : Name) (hraw : name.raw = true → isReservedRaw name.text = false)
    (hrest : Ends rest) :
    lexeme? (name.print ++ rest) = some (.token (.word name), name.print.length) := by
  have hword := word?_name name hraw hrest
  obtain ⟨text, raw, hname⟩ := name
  cases raw with
  -- A raw name must not be taken for a raw literal, and another one for no literal at all.
  | false =>
    have hnone := noLiteral_of_isName hname hrest
    obtain ⟨c, others, htext, hstart⟩ := Name.exists_print ⟨text, false, hname⟩
    rw [Name.print, if_neg Bool.false_ne_true, List.nil_append] at htext hword ⊢
    rw [htext, List.cons_append] at hword hnone ⊢
    rw [lexeme?_of_isNameStart hstart, leaf?_of_isNameStart hstart hnone.literalLength?
      hnone.startsLiteral, hword]
    rfl
  | true =>
    have hstart : isNameStart 'r' = true := by decide
    obtain ⟨hlength, hbroken⟩ := literalLength?_raw hname hrest
    rw [Name.print, if_pos rfl] at hword ⊢
    dsimp only [List.cons_append, List.nil_append] at hword ⊢
    rw [lexeme?_of_isNameStart hstart, leaf?_of_isNameStart hstart hlength hbroken, hword]
    rfl

/-! ## Marks -/

/-- What holds of the marks holds of a character that is one. -/
theorem of_isMark {P : Char → Prop} (h : ∀ d ∈ "~!@#$%^&*-=+|;:,<.>/?'".toList, P d)
    (hmark : isMark c = true) : P c := by
  rw [isMark, List.contains_iff_mem] at hmark
  exact h c hmark

/-- A mark that starts no comment is read as a leaf. -/
theorem lexeme?_of_isMark (hmark : isMark c = true)
    (h : c = '/' → ∀ d ∈ rest.head?, d ≠ '/' ∧ d ≠ '*') :
    lexeme? (c :: rest) = leaf? (c :: rest) :=
  lexeme?_eq_leaf? (of_isMark (P := (isBlank · = false)) (by decide) hmark)
    (of_isMark (P := (· ∉ "()[]\x7b\x7d".toList)) (by decide) hmark) h

/-- It is read as the mark that it is. -/
theorem lexeme?_mark (hmark : isMark c = true) (hquote : c ≠ '\'')
    (h : c = '/' → ∀ d ∈ rest.head?, d ≠ '/' ∧ d ≠ '*') :
    lexeme? (c :: rest) = some (.token (.mark c (startsMark rest)), 1) := by
  have hliteral : c ≠ '\'' → c ∉ literalStarts :=
    of_isMark (P := fun d => d ≠ '\'' → d ∉ literalStarts) (by decide) hmark
  have hlength : literalLength? (c :: rest) = none := by
    refine Option.eq_none_iff_forall_ne_some.2 fun n hn => ?_
    exact hliteral hquote (mem_literalStarts hn c rfl)
  rw [lexeme?_of_isMark hmark h, leaf?.eq_def, hlength]
  dsimp only
  split
  · exact absurd (List.cons.inj ‹_›).1 hquote
  · rename_i heq
    obtain ⟨rfl, rfl⟩ := List.cons.inj heq
    rw [startsMark_cons h, if_pos hmark]
  · contradiction

/-- An apostrophe in front of a word is read as a mark, unless the word is a character. -/
theorem lexeme?_apostrophe {name : Name} (hword : word? text = some (name, n))
    (hdrop : ∀ c ∈ (text.drop n).head?, c ≠ '\'' ∧ c ≠ '#')
    (hnone : literalLength? ('\'' :: text) = none) :
    lexeme? ('\'' :: text) = some (.token (.mark '\'' true), 1) := by
  have hapostrophe : apostrophe? text = some (.token (.mark '\'' true), 1) := by
    rw [apostrophe?, hword]
    dsimp only
    split
    · rename_i heq
      exact absurd rfl (hdrop '\'' (by rw [heq]; rfl)).1
    · rename_i heq
      exact absurd rfl (hdrop '#' (by rw [heq]; rfl)).2
    · rfl
  rw [lexeme?_eq_leaf? (by decide) (by decide) fun hc => absurd hc (by decide), leaf?.eq_def, hnone]
  exact hapostrophe

/-- No character literal is read where something else than an apostrophe is behind a character. -/
theorem literalLength?_apostrophe (hfirst : ∀ c ∈ text.head?, c ≠ '\\')
    (hsecond : ∀ c ∈ (text.drop 1).head?, c ≠ '\'') : literalLength? ('\'' :: text) = none := by
  have hlength : characterLength? .text text = none := by
    unfold characterLength?
    split
    · rfl
    · exact absurd rfl (hfirst '\\' rfl)
    · rename_i c rest _
      have hadmits : LiteralKind.text.admits c = true := rfl
      rw [if_pos hadmits]
      refine if_neg fun heq => ?_
      exact absurd rfl (hsecond '\'' heq)
  rw [literalLength?, hlength]
  rfl

/-- Letters in front of a quote are read as a word behind an apostrophe, which is then a mark. -/
theorem lexeme?_apostrophe_of_startsLikeWord (h : StartsLikeWord text) (rest : List Char) :
    lexeme? ('\'' :: (text ++ rest)) = some (.token (.mark '\'' true), 1) := by
  obtain ⟨letters, body, hletters, rfl⟩ := h
  have hstart : isNameStart 'r' = true ∧ isNameStart 'b' = true ∧ isNameStart 'c' = true := by
    decide +kernel
  have hquote : Charset.isIdentifierContinue '"' = false := by decide
  have hletter : Charset.isIdentifierContinue 'r' = true := by decide
  rw [List.append_assoc, List.cons_append]
  -- The quote ends the letters, and it is not the quote of a character.
  have hlengths : ∀ l ∈ ["r", "b", "br", "c", "cr"],
      nameLength (l.toList ++ '"' :: (body ++ rest)) = l.toList.length := by
    simp [nameLength, hstart, hquote, hletter]
  have hplain : ∀ l ∈ ["r", "b", "br", "c", "cr"], ∀ behind,
      l.toList ++ '"' :: (body ++ rest) ≠ 'r' :: '#' :: behind := by
    simp
  -- Nor is there an escape or a closing apostrophe, so the lexer sees no character here.
  have hfirst : ∀ l ∈ ["r", "b", "br", "c", "cr"], l ≠ "" ∧
    ∀ c ∈ (l.toList ++ '"' :: (body ++ rest)).head?, c ≠ '\\' := by simp
  have hsecond : ∀ l ∈ ["r", "b", "br", "c", "cr"],
    ∀ c ∈ ((l.toList ++ '"' :: (body ++ rest)).drop 1).head?, c ≠ '\'' := by simp
  have hlength := hlengths letters hletters
  have hpositive : nameLength (letters.toList ++ '"' :: (body ++ rest)) ≠ 0 := by
    rw [hlength]
    exact fun hzero => (hfirst letters hletters).1 (String.toList_eq_nil_iff.1
      (List.length_eq_zero_iff.1 hzero))
  obtain ⟨name, hname⟩ : ∃ name, nameAt? (letters.toList ++ '"' :: (body ++ rest)) false =
      some name := ⟨_, dif_neg hpositive⟩
  have hword : word? (letters.toList ++ '"' :: (body ++ rest)) =
      some (name, letters.toList.length) := by
    rw [word?.eq_2 _ (hplain letters hletters), hname, hlength]
    rfl
  refine lexeme?_apostrophe hword ?_
    (literalLength?_apostrophe (hfirst letters hletters).2 (hsecond letters hletters))
  rw [List.drop_left]
  rintro c ⟨⟩
  decide

/-- A word behind an apostrophe leaves it a mark. -/
theorem lexeme?_apostrophe_name (name : Name)
    (hraw : name.raw = true → isReservedRaw name.text = false) (hrest : Ends rest) :
    lexeme? ('\'' :: (name.print ++ rest)) = some (.token (.mark '\'' true), 1) := by
  have hmarks : ∀ c ∈ endMarks, c ≠ '\'' ∧ c ≠ '#' := by decide
  refine lexeme?_apostrophe (word?_name name hraw hrest) ?_ (literalLength?_apostrophe ?_ ?_)
  · rw [List.drop_left]
    exact fun c hc => ⟨(hmarks c (hrest c hc)).1, (hmarks c (hrest c hc)).2⟩
  · obtain ⟨c, others, hprint, hstart⟩ := name.exists_print
    rw [hprint]
    rintro d ⟨⟩ rfl
    rw [isNameStart_of_mem_outsideNames '\\' (by decide)] at hstart
    contradiction
  · -- The second character is a hash sign, or no quote because a name starts no literal.
    obtain ⟨text, raw, hname⟩ := name
    cases raw with
    | true =>
      intro c hc
      obtain rfl := Option.some.inj hc
      decide
    | false =>
      have hsecond := (noLiteral_of_isName hname hrest).second
      rintro c hc rfl
      exact absurd (by decide) (hsecond '\'' hc)

/-! ## Pieces that are read -/

/-- The piece that a lexeme is. -/
def Lexeme.piece? : Lexeme → Option Piece
  | .token t => some t.piece
  | .opening delimiter => some (.opening delimiter)
  | .closing delimiter => some (.closing delimiter)
  | .gap | .documentation _ _ => none

/-- Only a mark starts with such a character. -/
theorem Piece.Good.eq_mark {p : Piece} (h : p.Good) (hc : c ∈ ['/', '*', '\uFEFF'])
    (hhead : p.text.head? = some c) : p = .mark c := by
  cases p with
  | word name =>
    obtain ⟨d, others, hprint, hstart⟩ := name.exists_print
    rw [Piece.text, hprint] at hhead
    obtain rfl := Option.some.inj hhead
    have hmarks : ∀ c ∈ ['/', '*', '\uFEFF'], c ∈ outsideNames := by decide
    rw [isNameStart_of_mem_outsideNames d (hmarks d hc)] at hstart
    contradiction
  | mark d =>
    obtain rfl := Option.some.inj hhead
    rfl
  | literal text =>
    obtain ⟨d, hd, hmem⟩ := IsLiteral.head? h
    obtain rfl := Option.some.inj (hd.symm.trans hhead)
    -- A literal starts with a quote, a letter or a digit, or it is the failed one.
    exact absurd hc ((by decide : ∀ c ∈ '(' :: literalStarts, c ∉ ['/', '*', '\uFEFF']) d hmem)
  | opening delimiter | closing delimiter =>
    obtain rfl := Option.some.inj hhead
    cases delimiter <;> exact absurd hc (by decide)

theorem Piece.Good.text_ne_nil {p : Piece} (h : p.Good) : p.text ≠ [] := by
  cases p with
  | word name =>
    obtain ⟨c, others, hprint, -⟩ := name.exists_print
    rw [Piece.text, hprint]
    exact List.cons_ne_nil c others
  | mark d => exact List.cons_ne_nil _ _
  | literal text => 
    obtain ⟨d, hd, hmem⟩ := IsLiteral.head? h
    rintro rfl
    contradiction
  | opening delimiter | closing delimiter => exact List.cons_ne_nil _ _

variable {layout : Layout} {p : Piece} {isGap : Bool}

theorem Safe.eq_mark (h : Safe layout) (hc : c ∈ ['/', '*', '\uFEFF'])
    (hhead : layout.text.head? = some c) :
    layout.first? = some (.mark c) ∧ isMark c = true := by
  cases h with
  | nil => contradiction
  | @cons p isGap rest hgood _ _ =>
    obtain ⟨d, others, htext⟩ := List.exists_cons_of_ne_nil hgood.text_ne_nil
    rw [Layout.text_cons, htext] at hhead
    have hmark := hgood.eq_mark hc (htext ▸ hhead)
    refine ⟨congrArg some hmark, ?_⟩
    rw [hmark] at hgood
    exact hgood

/-- A piece ends in front of a space and in front of what ends it. -/
theorem ends_of_stands (h : isGap = true ∨ ∀ q ∈ layout.first?, q.Ends) :
    Ends (gap isGap ++ layout.text) := by
  intro c hc
  cases isGap with
  | true =>
    -- A space ends everything.
    obtain rfl := Option.some.inj hc
    decide
  | false =>
    -- Otherwise it is the next piece: a mark that ends what is in front of it, or a closing
    -- delimiter.
    obtain hfirst := h.resolve_left Bool.false_ne_true
    cases layout with
    | nil => contradiction
    | cons head rest =>
      obtain ⟨q, isGap⟩ := head
      have hq := hfirst q rfl
      cases q with
      | mark d =>
        obtain rfl := Option.some.inj hc
        exact hq
      | closing delimiter =>
        obtain rfl := Option.some.inj hc
        cases delimiter <;> decide
      | word | literal | opening => contradiction

/-- A slash starts no comment. -/
theorem not_comment_of_stands (hstands : (Piece.mark '/').Stands isGap layout.first?)
    (hsafe : Safe layout) :
    ∀ d ∈ (gap isGap ++ layout.text).head?, d ≠ '/' ∧ d ≠ '*' := by
  intro d hd
  cases isGap with
  | true =>
    obtain rfl := Option.some.inj hd
    decide
  | false =>
    obtain hnot := hstands.resolve_left Bool.false_ne_true
    constructor
    · rintro rfl
      exact (hnot _ (hsafe.eq_mark (by decide) hd).1).1 rfl
    · rintro rfl
      exact (hnot _ (hsafe.eq_mark (by decide) hd).1).2 rfl

/-- No comment starts a safe layout. -/
theorem Safe.not_comment (h : Safe layout) (others : List Char) :
    layout.text ≠ '/' :: '*' :: others := by
  intro heq
  cases h with
  | nil => contradiction
  | @cons p isGap rest hgood hstands hrest =>
    obtain ⟨d, behind, htext⟩ := List.exists_cons_of_ne_nil hgood.text_ne_nil
    rw [Layout.text_cons, htext] at heq
    obtain ⟨rfl, heq'⟩ := List.cons.inj heq
    obtain rfl := hgood.eq_mark (by decide) (by rw [htext]; rfl : p.text.head? = some '/')
    obtain ⟨-, rfl⟩ := List.cons.inj htext
    exact (not_comment_of_stands hstands hrest '*' (congrArg List.head? heq')).2 rfl

/-- The opening of a group is read, if it does not start a failed expansion. -/
theorem lexeme?_opening (delimiter : Delimiter) (h : ∀ others, rest ≠ '/' :: '*' :: others) :
    lexeme? (delimiter.opening :: rest) = some (.opening delimiter, 1) := by
  have hexpansion : failedExpansion.toList.isPrefixOf (delimiter.opening :: rest) = false := by
    refine Bool.eq_false_iff.2 fun hstarts => ?_
    obtain ⟨others, heq⟩ := List.isPrefixOf_iff_prefix.1 hstarts
    exact h _ (List.cons.inj heq).2.symm
  rw [lexeme?.eq_def, hexpansion]
  cases delimiter <;> rfl

theorem lexeme?_closing (delimiter : Delimiter) (rest : List Char) :
    lexeme? (delimiter.closing :: rest) = some (.closing delimiter, 1) := by
  cases delimiter <;> rfl

/-- The mark in front of a lifetime is read. -/
theorem lexeme?_apostrophe_of_safe (hstands : (Piece.mark '\'').Stands isGap layout.first?)
    (hsafe : Safe layout) :
    lexeme? ('\'' :: (gap isGap ++ layout.text)) = some (.token (.mark '\'' true), 1) := by
  obtain ⟨rfl, q, hq, hfollows⟩ := hstands
  cases hsafe with
  | nil => contradiction
  | @cons p isGap rest hgood hstands' hrest =>
    obtain rfl := Option.some.inj hq
    rw [gap, if_neg Bool.false_ne_true, List.nil_append, Layout.text_cons]
    cases p with
    | word name => exact lexeme?_apostrophe_name name hgood (ends_of_stands hstands')
    | literal text => exact lexeme?_apostrophe_of_startsLikeWord hfollows _
    | mark | opening | closing => contradiction

/-- The first piece of a safe layout is read to its last character. -/
theorem lexeme?_piece (hgood : p.Good) (hstands : p.Stands isGap layout.first?)
    (hsafe : Safe layout) :
    ∃ l, lexeme? (p.text ++ (gap isGap ++ layout.text)) = some (l, p.text.length) ∧
      l.piece? = some p := by
  cases p with
  | word name => exact ⟨_, lexeme?_name name hgood (ends_of_stands hstands), rfl⟩
  | literal text =>
    refine ⟨_, IsLiteral.lexeme?_append hgood (ends_of_stands hstands), ?_⟩
    rw [Lexeme.piece?, Token.piece, String.toList_ofList]
    rfl
  | mark c =>
    -- What follows matters only for an apostrophe and for a slash.
    by_cases hquote : c = '\''
    · subst hquote
      exact ⟨_, lexeme?_apostrophe_of_safe hstands hsafe, rfl⟩
    · refine ⟨_, lexeme?_mark hgood hquote ?_, rfl⟩
      rintro rfl
      exact not_comment_of_stands hstands hsafe
  | opening delimiter =>
    refine ⟨_, lexeme?_opening delimiter fun others => ?_, rfl⟩
    cases isGap with
    | true => exact fun heq => absurd (List.cons.inj heq).1 (by decide)
    | false => exact hsafe.not_comment others
  | closing delimiter => exact ⟨_, lexeme?_closing delimiter _, rfl⟩

/-! ## Reading a layout -/

/-- The lexemes are the pieces, with gaps anywhere. -/
inductive Reads : List (Lexeme × Position) → List Piece → Prop
  | nil : Reads [] []
  | gap (here : Position) {found : List (Lexeme × Position)} {pieces : List Piece} :
    Reads found pieces → Reads ((.gap, here) :: found) pieces
  | piece {l : Lexeme} {p : Piece} (here : Position) {found : List (Lexeme × Position)}
    {pieces : List Piece} : l.piece? = some p → Reads found pieces →
    Reads ((l, here) :: found) (p :: pieces)

/-- Characters of a lexeme that is already read are passed over. -/
theorem lexemesFrom?_skip (here : Position) (text rest : List Char) :
    lexemesFrom? text.length here (text ++ rest) = lexemesFrom? 0 (here.afterAll text) rest := by
  induction text generalizing here with
  | nil => rfl
  | cons c text ih => exact ih (here.after c)

/-- Behind a lexeme the text is read on. -/
theorem lexemesFrom?_append {found : Lexeme} (hne : text ≠ [])
    (h : lexeme? (text ++ rest) = some (found, text.length)) (here : Position) :
    lexemesFrom? 0 here (text ++ rest) =
      (lexemesFrom? 0 (here.afterAll text) rest).map ((found, here) :: ·) := by
  obtain ⟨c, text, rfl⟩ := List.exists_cons_of_ne_nil hne
  rw [List.cons_append] at h ⊢
  rw [lexemesFrom?, h]
  exact congrArg (Option.map ((found, here) :: ·)) (lexemesFrom?_skip (here.after c) text rest)

/-- A safe layout is read piece by piece. -/
theorem lexemesFrom?_layout (h : Safe layout) (here : Position) :
    ∃ found, lexemesFrom? 0 here layout.text = some found ∧ Reads found (layout.map Prod.fst) := by
  induction h generalizing here with
  | nil => exact ⟨[], rfl, .nil⟩
  | @cons p isGap rest hgood hstands hsafe ih =>
    obtain ⟨l, hl, hpiece⟩ := lexeme?_piece hgood hstands hsafe
    rw [Layout.text_cons, lexemesFrom?_append hgood.text_ne_nil hl]
    cases isGap with
    | false =>
      obtain ⟨found, hfound, hreads⟩ := ih (here.afterAll p.text)
      exact ⟨(l, here) :: found, congrArg _ hfound, .piece here hpiece hreads⟩
    | true =>
      have hspace : lexeme? ([' '] ++ rest.text) = some (.gap, 1) := rfl
      obtain ⟨found, hfound, hreads⟩ := ih ((here.afterAll p.text).afterAll [' '])
      refine ⟨(l, here) :: (.gap, here.afterAll p.text) :: found, ?_,
        .piece here hpiece (.gap _ hreads)⟩
      rw [gap, if_pos rfl, lexemesFrom?_append (List.cons_ne_nil _ _) hspace, hfound]
      rfl

/-! ## Putting trees together -/

/-- Gaps change nothing: up to a piece they are passed over. -/
theorem Reads.cons_cases {found : List (Lexeme × Position)} {pieces : List Piece}
    (h : Reads found (p :: pieces)) (f : Forest) :
    ∃ l here rest, l.piece? = some p ∧ Reads rest pieces ∧
      f.addAll found = (f.add l here).bind (·.addAll rest) := by
  generalize hall : p :: pieces = all at h
  induction h with
  | nil => contradiction
  | gap here h ih => exact ih hall
  | @piece l q here found pieces' hpiece hrest =>
    obtain ⟨rfl, rfl⟩ := List.cons.inj hall
    refine ⟨l, here, found, hpiece, hrest, ?_⟩
    rw [Forest.addAll]
    cases f.add l here <;> rfl

/-- Behind the last piece nothing changes. -/
theorem Reads.addAll_nil {found : List (Lexeme × Position)} (h : Reads found []) (f : Forest) :
    f.addAll found = some f := by
  generalize hall : [] = all at h
  induction h with
  | nil => rfl
  | gap here h ih => exact ih hall
  | piece => contradiction

end

section

variable (f : List Char → List Char)

/-- The lexeme of a token is a token, also of another literal. -/
theorem exists_token_of_piece? {l : Lexeme} {t : Token} (h : l.piece? = some (t.piece.map f)) :
    ∃ t', l = .token t' ∧ t'.piece = t.piece.map f := by
  cases l with
  | token t' => exact ⟨t', rfl, Option.some.inj h⟩
  | opening | closing => cases t <;> cases h
  | gap | documentation => contradiction

theorem eq_opening_of_piece? {l : Lexeme} {d : Delimiter} (h : l.piece? = some (.opening d)) :
    l = .opening d := by
  cases l with
  | token t => cases t <;> cases h
  | opening d' => rw [Lexeme.piece?, Option.some.injEq, Piece.opening.injEq] at h; rw [h]
  | closing => cases h
  | gap | documentation => contradiction

theorem eq_closing_of_piece? {l : Lexeme} {d : Delimiter} (h : l.piece? = some (.closing d)) :
    l = .closing d := by
  cases l with
  | token t => cases t <;> cases h
  | closing d' => rw [Lexeme.piece?, Option.some.injEq, Piece.closing.injEq] at h; rw [h]
  | opening => cases h
  | gap | documentation => contradiction

mutual

/-- From the pieces of a tree, perhaps with other literals, a tree is put together. -/
theorem TokenTree.exists_addAll : (t : TokenTree) →
    ∀ {found : List (Lexeme × Position)} {pieces : List Piece},
    Reads found (t.pieces.map (Piece.map f) ++ pieces) → (forest : Forest) →
    ∃ t' rest, t'.pieces = t.pieces.map (Piece.map f) ∧ Reads rest pieces ∧
      forest.addAll found = Forest.addAll ⟨t' :: forest.current, forest.enclosing⟩ rest
  | .token t, found, pieces, h, forest => by
    obtain ⟨l, here, rest, hpiece, hrest, hadd⟩ := h.cons_cases forest
    obtain ⟨t', rfl, ht⟩ := exists_token_of_piece? f hpiece
    exact ⟨.token t', rest, congrArg (· :: []) ht, hrest, hadd⟩
  | .group delimiter content close, found, pieces, h, forest => by
    rw [TokenTree.pieces, List.map_append, List.append_assoc] at h
    obtain ⟨l, here, rest, hpiece, hrest, hopening⟩ := h.cons_cases forest
    obtain rfl := eq_opening_of_piece? hpiece
    -- The content is put together inside of the group, on top of what was read before it.
    obtain ⟨content', behind, hcontent, hbehind, hadd⟩ := exists_addAll content hrest
      ⟨[], (delimiter, forest.current) :: forest.enclosing⟩
    obtain ⟨l, close', last, hpiece, hlast, hclosing⟩ := hbehind.cons_cases
      ⟨content'.reverse ++ [], (delimiter, forest.current) :: forest.enclosing⟩
    obtain rfl := eq_closing_of_piece? hpiece
    refine ⟨.group delimiter content' close', last, ?_, hlast, ?_⟩
    · rw [TokenTree.pieces, TokenTree.pieces, hcontent, List.map_append]
      rfl
    · rw [hopening]
      refine (hadd.trans hclosing).trans ?_
      dsimp only [Forest.add]
      rw [if_pos rfl, List.append_nil, List.reverse_reverse]
      rfl

/-- So are trees from theirs. -/
theorem exists_addAll : (ts : List TokenTree) →
    ∀ {found : List (Lexeme × Position)} {pieces : List Piece},
    Reads found ((piecesAll ts).map (Piece.map f) ++ pieces) → (forest : Forest) →
    ∃ ts' rest, piecesAll ts' = (piecesAll ts).map (Piece.map f) ∧ Reads rest pieces ∧
      forest.addAll found =
        Forest.addAll ⟨ts'.reverse ++ forest.current, forest.enclosing⟩ rest
  | [], found, pieces, h, forest => ⟨[], found, rfl, h, rfl⟩
  | t :: ts, found, pieces, h, forest => by
    rw [piecesAll, List.map_append, List.append_assoc] at h
    obtain ⟨t', behind, ht, hbehind, hfirst⟩ := t.exists_addAll h forest
    obtain ⟨ts', rest, hts, hrest, hothers⟩ := exists_addAll ts hbehind
      ⟨t' :: forest.current, forest.enclosing⟩
    refine ⟨t' :: ts', rest, ?_, hrest, ?_⟩
    · rw [piecesAll, ht, hts, piecesAll, List.map_append]
    · rw [hfirst, hothers, List.reverse_cons, List.append_assoc]
      rfl

end

/-- The text of a safe layout is read as trees with its pieces, if it has the pieces of trees, up to
literals. -/
theorem tokenTrees?_text {layout : Layout} {ts : List TokenTree} (h : Safe layout)
    (hpieces : layout.map Prod.fst = (piecesAll ts).map (Piece.map f)) :
    ∃ ts', tokenTrees? layout.text = some ts' ∧ piecesAll ts' = layout.map Prod.fst := by
  have hmark : ∀ rest, layout.text ≠ '\uFEFF' :: rest := by
    intro rest heq
    have hmark := (h.eq_mark (by decide) (congrArg List.head? heq)).2
    contradiction
  obtain ⟨found, hfound, hreads⟩ := lexemesFrom?_layout h Position.start
  rw [hpieces, ← List.append_nil (List.map _ _)] at hreads
  obtain ⟨ts', rest, hts, hrest, hadd⟩ := exists_addAll f ts hreads ⟨[], []⟩
  refine ⟨ts', ?_, hts.trans hpieces.symm⟩
  rw [hrest.addAll_nil] at hadd
  rw [tokenTrees?.eq_2 _ hmark, treesAt?, hfound]
  dsimp only
  rw [hadd]
  simp

end

end UnitLoader.Syntax
