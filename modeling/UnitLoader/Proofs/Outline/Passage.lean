import Mathlib.Data.List.TakeWhile
import UnitLoader.Proofs.Outline.Lexeme
import UnitLoader.SourceUnit

/-!
# Passages that leave no trace

A `Passage` is a comment or a literal with all that may stand inside of it: braces, quotes, keywords
and the marks of other comments. `tokens_insert_passage` says that the outline of a text is the same
with and without it, wherever the text in front of it consists of complete pieces on lines of their
own, and whatever the text behind it is. So the resolved name is the same as well.

Each kind of passage is measured to its end and no further, for every content that it can have. Of
the pieces in front, those that are `IsBare` hold no comment and no literal, and each of their
lexemes stays what it is when the text goes on (`lexeme_append_newline`).
-/

namespace UnitLoader

namespace Outline

open UnitLoader.Text

/-! ## What ends a comment or a literal -/

/-- The text behind the opening of a block comment, up to its end and with it. The comments inside
are closed as well, and no other pair of characters is a mark of one. -/
inductive ClosesComment : List Char → Prop
  | close : ClosesComment ['*', '/']
  | nested {inner behind : List Char} (closes : ClosesComment inner)
      (goesOn : ClosesComment behind) : ClosesComment ('/' :: '*' :: inner ++ behind)
  | char {c d : Char} {behind : List Char} (opensNone : ¬ (c = '/' ∧ d = '*'))
      (closesNone : ¬ (c = '*' ∧ d = '/')) (goesOn : ClosesComment (d :: behind)) :
      ClosesComment (c :: d :: behind)

/-- The text behind the opening quote of a literal, up to its closing quote and with it. -/
inductive ClosesQuote : List Char → Prop
  | close : ClosesQuote ['"']
  | escape (c : Char) {behind : List Char} (goesOn : ClosesQuote behind) :
      ClosesQuote ('\\' :: c :: behind)
  | char {c : Char} {behind : List Char} (quote : c ≠ '"') (backslash : c ≠ '\\')
      (goesOn : ClosesQuote behind) : ClosesQuote (c :: behind)

/-- A comment ends where it is closed, at any depth. -/
theorem blockCommentLength_of_closes {text : List Char} (h : ClosesComment text)
    (behind : List Char) :
    blockCommentLength 0 (text ++ behind) = text.length ∧
      ∀ depth, blockCommentLength (depth + 1) (text ++ behind) =
        text.length + blockCommentLength depth behind := by
  induction h generalizing behind with
  | close =>
    refine ⟨rfl, fun depth => ?_⟩
    simp only [List.cons_append, List.nil_append, blockCommentLength, List.length_cons,
      List.length_nil]
    omega
  | @nested inner rest closes goesOn ihInner ihRest =>
    -- The comment inside is read one level deeper, and what is behind it on the level outside.
    have hinner := (ihInner (rest ++ behind)).2
    obtain ⟨hzero, hsucc⟩ := ihRest behind
    simp only [List.cons_append, List.append_assoc, List.length_cons, List.length_append]
    refine ⟨?_, fun depth => ?_⟩
    · rw [blockCommentLength, hinner 0, hzero]
    · rw [blockCommentLength, hinner (depth + 1), hsucc]
      omega
  | char opensNone closesNone goesOn ih =>
    obtain ⟨hzero, hsucc⟩ := ih behind
    simp only [List.cons_append, List.length_cons] at hzero hsucc ⊢
    refine ⟨?_, fun depth => ?_⟩
    · rw [blockCommentLength_cons _ opensNone closesNone, hzero]
    · rw [blockCommentLength_cons _ opensNone closesNone, hsucc]
      omega

/-- A quoted literal ends at its closing quote. -/
theorem quotedLength_of_closes {text : List Char} (h : ClosesQuote text) (behind : List Char) :
    quotedLength (text ++ behind) = text.length := by
  induction h with
  | close => rfl
  | escape c goesOn ih =>
    simp only [List.cons_append, quotedLength, ih, List.length_cons]
  | char quote backslash goesOn ih =>
    rw [List.cons_append, quotedLength.eq_4 _ _ (fun _ _ hc _ => backslash hc) quote, ih,
      List.length_cons]

/-- What ends a raw literal with so many hash signs. -/
def terminator (hashes : Nat) : List Char := '"' :: List.replicate hashes '#'

/-- A terminator that stands behind a text does not begin inside of it, unless the text has one. -/
theorem not_terminator_prefix {hashes : Nat} {body : List Char} (hne : body ≠ [])
    (h : ¬ terminator hashes <:+: body) (behind : List Char) :
    ¬ terminator hashes <+: body ++ (terminator hashes ++ behind) := by
  intro hbegins
  by_cases hlength : (terminator hashes).length ≤ body.length
  · exact h (List.prefix_of_prefix_length_le hbegins (List.prefix_append _ _) hlength).isInfix
  · -- Behind the text stands a quote, where the terminator has a hash sign.
    obtain ⟨rest, hrest⟩ := hbegins
    have hquote : (body ++ (terminator hashes ++ behind))[body.length]? = some '"' := by
      rw [List.getElem?_append_right (Nat.le_refl _), Nat.sub_self]
      rfl
    obtain ⟨n, hn⟩ := Nat.exists_eq_succ_of_ne_zero (by simpa using hne : body.length ≠ 0)
    simp only [terminator, List.length_cons, List.length_replicate] at hlength
    rw [← hrest, hn, terminator, List.cons_append, List.getElem?_cons_succ,
      List.getElem?_append_left (by rw [List.length_replicate]; omega),
      List.getElem?_replicate_of_lt (by omega)] at hquote
    exact absurd hquote (by decide)

/-- A raw literal ends at the first terminator. -/
theorem rawBodyLength_terminator {hashes : Nat} {body : List Char}
    (h : ¬ terminator hashes <:+: body) (behind : List Char) :
    rawBodyLength hashes (body ++ (terminator hashes ++ behind)) = body.length + (hashes + 1) := by
  induction body with
  | nil =>
    have hbegins : ('"' :: List.replicate hashes '#').isPrefixOf
        ('"' :: (List.replicate hashes '#' ++ behind)) = true :=
      List.isPrefixOf_iff_prefix.2 ⟨behind, rfl⟩
    rw [List.nil_append, terminator, List.cons_append, rawBodyLength, if_pos hbegins,
      List.length_nil, Nat.zero_add]
  | cons c body ih =>
    have hbegins := not_terminator_prefix (List.cons_ne_nil c body) h behind
    rw [← List.isPrefixOf_iff_prefix, List.cons_append] at hbegins
    have hbody : rawBodyLength hashes (c :: (body ++ (terminator hashes ++ behind))) =
        rawBodyLength hashes (body ++ (terminator hashes ++ behind)) + 1 := if_neg hbegins
    rw [List.cons_append, hbody, ih fun hin => h (hin.trans (List.suffix_cons c body).isInfix),
      List.length_cons]
    omega

/-! ## What opens a literal -/

/-- The letters in front of a literal are a word of their own. -/
theorem lexeme_letters {letters : List Char}
    (h : letters ∈ [['b'], ['c'], ['r'], ['b', 'r'], ['c', 'r']]) {d : Char}
    (hd : isWordPart d = false) (rest : List Char) :
    lexeme (letters ++ d :: rest) = wordLexeme letters (d :: rest) := by
  have hword : wordOf (letters ++ d :: rest) = letters := by
    rw [wordOf, List.takeWhile_append_of_pos, List.takeWhile_cons_of_neg (by simp [hd]),
      List.append_nil]
    have hall : ∀ word ∈ [['b'], ['c'], ['r'], ['b', 'r'], ['c', 'r']],
        word.all isWordPart = true := by decide
    exact List.all_eq_true.1 (hall letters h)
  have hlexeme : lexeme (letters ++ d :: rest) = wordLexeme (wordOf (letters ++ d :: rest))
      ((letters ++ d :: rest).drop (wordOf (letters ++ d :: rest)).length) := by
    simp only [List.mem_cons, List.not_mem_nil, or_false] at h
    obtain rfl | rfl | rfl | rfl | rfl := h
    all_goals rfl
  rw [hlexeme, hword, List.drop_left]

/-- A quote opens a literal, behind the letter of its kind as well. -/
theorem lexeme_quote {letters : List Char} (h : letters ∈ [[], ['b'], ['c']])
    (behind : List Char) :
    lexeme (letters ++ '"' :: behind) = (none, letters.length + (1 + quotedLength behind)) := by
  simp only [List.mem_cons, List.not_mem_nil, or_false] at h
  obtain rfl | rfl | rfl := h
  · rw [List.nil_append, lexeme_cons_quote, List.length_nil, Nat.zero_add]
  · rw [lexeme_letters (by decide) (by decide), wordLexeme, List.length_singleton, ← Nat.add_assoc]
  · rw [lexeme_letters (by decide) (by decide), wordLexeme, List.length_singleton, ← Nat.add_assoc]

/-- An apostrophe opens a literal, behind the letter of bytes as well. -/
theorem lexeme_apostrophe {letters : List Char} (h : letters ∈ [[], ['b']])
    (behind : List Char) :
    lexeme (letters ++ '\'' :: behind) =
      (none, letters.length + (1 + apostropheLength behind)) := by
  simp only [List.mem_cons, List.not_mem_nil, or_false] at h
  obtain rfl | rfl := h
  · rw [List.nil_append, lexeme_cons_apostrophe, List.length_nil, Nat.zero_add]
  · rw [lexeme_letters (by decide) (by decide), wordLexeme, List.length_singleton, ← Nat.add_assoc]

/-- Hash signs and a quote behind the letters of a raw literal open it. -/
theorem lexeme_raw {letters : List Char} (h : letters ∈ [['r'], ['b', 'r'], ['c', 'r']])
    (hashes : Nat) (behind : List Char) :
    lexeme (letters ++ (List.replicate hashes '#' ++ '"' :: behind)) =
      (none, letters.length + (hashes + 1 + rawBodyLength hashes behind)) := by
  have hraw := rawLength?_replicate hashes behind
  -- The character behind the letters is a hash sign or the quote.
  obtain ⟨d, rest, hrest, hd⟩ : ∃ d rest,
      List.replicate hashes '#' ++ '"' :: behind = d :: rest ∧ (d = '"' ∨ d = '#') := by
    cases hashes with
    | zero => exact ⟨'"', behind, rfl, .inl rfl⟩
    | succ n => exact ⟨'#', List.replicate n '#' ++ '"' :: behind, rfl, .inr rfl⟩
  have hpart : isWordPart d = false := by obtain rfl | rfl := hd <;> decide
  rw [hrest] at hraw ⊢
  simp only [List.mem_cons, List.not_mem_nil, or_false] at h
  obtain rfl | rfl | rfl := h
  · rw [lexeme_letters (by decide) hpart, wordLexeme_raw hraw, List.length_singleton]
  · rw [lexeme_letters (by decide) hpart, wordLexeme_rawPair (by decide) hd hraw]
  · rw [lexeme_letters (by decide) hpart, wordLexeme_rawPair (by decide) hd hraw]

/-- An escape in a character literal ends at the first apostrophe behind it. -/
theorem apostropheLength_escaped (c : Char) {tail : List Char}
    (h : ∀ d ∈ tail, d ≠ '\'' ∧ d ≠ '\n') (behind : List Char) :
    apostropheLength ('\\' :: c :: (tail ++ '\'' :: behind)) = 2 + (tail.length + 1) := by
  have htail : (tail ++ '\'' :: behind).takeWhile (fun d => d != '\'' && d != '\n') = tail := by
    rw [List.takeWhile_append_of_pos fun d hd => by simp [h d hd],
      List.takeWhile_cons_of_neg (by decide), List.append_nil]
  rw [apostropheLength, escapedTailLength, htail]
  simp only [List.drop_left]

/-! ## Passages -/

/-- A comment or a literal. -/
inductive Passage where
  /-- A line comment, with or without the line feed that ends it. -/
  | lineComment (body : List Char) (oneLine : '\n' ∉ body.dropLast)
  /-- A block comment. -/
  | blockComment (inside : List Char) (closes : ClosesComment inside)
  /-- A quoted literal, with the letter of its kind or none in front. -/
  | quoted (letters : List Char) (kind : letters ∈ [[], ['b'], ['c']]) (inside : List Char)
      (closes : ClosesQuote inside)
  /-- A raw literal, which takes everything up to its terminator as it is. -/
  | raw (letters : List Char) (kind : letters ∈ [['r'], ['b', 'r'], ['c', 'r']]) (hashes : Nat)
      (body : List Char) (closesLate : ¬ terminator hashes <:+: body)
  /-- A character. -/
  | character (letters : List Char) (kind : letters ∈ [[], ['b']]) (c : Char) (plain : c ≠ '\\')
  /-- A character that is written as a backslash and what it escapes. -/
  | escaped (letters : List Char) (kind : letters ∈ [[], ['b']]) (c : Char) (tail : List Char)
      (inside : ∀ d ∈ tail, d ≠ '\'' ∧ d ≠ '\n')

/-- How a passage is written. -/
def Passage.text : Passage → List Char
  | .lineComment body _ => '/' :: '/' :: body
  | .blockComment inside _ => '/' :: '*' :: inside
  | .quoted letters _ inside _ => letters ++ '"' :: inside
  | .raw letters _ hashes body _ =>
    letters ++ (List.replicate hashes '#' ++ '"' :: (body ++ terminator hashes))
  | .character letters _ c _ => letters ++ ['\'', c, '\'']
  | .escaped letters _ c tail _ => letters ++ '\'' :: '\\' :: c :: (tail ++ ['\''])

/-- A line feed is passed over. -/
theorem tokens_newline (text : List Char) : tokens ('\n' :: text) = tokens text := by
  have hlexeme : lexeme (['\n'] ++ text) = (none, ['\n'].length) := rfl
  exact tokens_append_of_lexeme hlexeme

/-- A line comment leaves no trace, and the line feed that ends it is not a part of it. -/
theorem tokens_lineComment {body : List Char} (h : '\n' ∉ body) (behind : List Char) :
    tokens ('/' :: '/' :: body ++ '\n' :: behind) = tokens behind := by
  have hbody : (body ++ '\n' :: behind).takeWhile (· != '\n') = body := by
    rw [List.takeWhile_append_of_pos, List.takeWhile_cons_of_neg (by decide), List.append_nil]
    rintro c hc
    exact bne_iff_ne.2 fun hnewline => h (hnewline ▸ hc)
  have hlexeme : lexeme ('/' :: '/' :: body ++ '\n' :: behind) =
      (none, ('/' :: '/' :: body).length) := by
    rw [List.cons_append, List.cons_append, lexeme_lineComment, hbody, List.length_cons,
      List.length_cons, Nat.add_comm]
  rw [tokens_append_of_lexeme hlexeme, tokens_newline]
  rfl

/-- Every other passage is one lexeme that yields no token, whatever stands behind it. -/
theorem Passage.lexeme_text (p : Passage) (behind : List Char) :
    (∃ body oneLine, p = .lineComment body oneLine) ∨
      lexeme (p.text ++ behind) = (none, p.text.length) := by
  cases p with
  | lineComment body oneLine => exact .inl ⟨body, oneLine, rfl⟩
  | blockComment inside closes =>
    -- All others end within their own text: a comment in blocks at the mark that closes it,
    refine .inr ?_
    rw [text, List.cons_append, List.cons_append, lexeme_blockComment,
      (blockCommentLength_of_closes closes behind).1, List.length_cons, List.length_cons,
      Nat.add_comm]
  | quoted letters kind inside closes =>
    -- a literal in quotes at its quote,
    refine .inr ?_
    rw [text, List.append_assoc, List.cons_append, lexeme_quote kind,
      quotedLength_of_closes closes, List.length_append, List.length_cons, Nat.add_comm 1]
  | raw letters kind hashes body closesLate =>
    refine .inr ?_
    have htext : (Passage.raw letters kind hashes body closesLate).text ++ behind = letters ++
        (List.replicate hashes '#' ++ '"' :: (body ++ (terminator hashes ++ behind))) := by
      simp [text]
    -- The terminator does not stand earlier, so the body ends where it is.
    rw [htext, lexeme_raw kind, rawBodyLength_terminator closesLate]
    simp [text, terminator, Nat.add_assoc, Nat.add_comm]
  | character letters kind c plain =>
    refine .inr ?_
    rw [text, List.append_assoc, List.cons_append, lexeme_apostrophe kind, List.cons_append,
      List.cons_append, apostropheLength_character plain, List.length_append]
    rfl
  | escaped letters kind c tail inside =>
    -- and a character behind its escape.
    refine .inr ?_
    have htext : (Passage.escaped letters kind c tail inside).text ++ behind =
        letters ++ '\'' :: '\\' :: c :: (tail ++ '\'' :: behind) := by
      simp [text]
    rw [htext, lexeme_apostrophe kind, apostropheLength_escaped c inside]
    simp [text]
    omega

/-- A passage in front of a line feed leaves no trace. -/
theorem Passage.tokens_text (p : Passage) (behind : List Char) :
    tokens (p.text ++ '\n' :: behind) = tokens behind := by
  obtain ⟨body, oneLine, rfl⟩ | hlexeme := p.lexeme_text ('\n' :: behind)
  · obtain rfl | ⟨body, c, rfl⟩ := body.eq_nil_or_concat
    · exact tokens_lineComment (by simp) behind
    · have hbody : '\n' ∉ body := by simpa using oneLine
      by_cases hc : c = '\n'
      · -- The comment ends in a line feed of its own, and another one follows.
        subst hc
        have htext : '/' :: '/' :: body.concat '\n' ++ '\n' :: behind =
            '/' :: '/' :: body ++ '\n' :: '\n' :: behind := by simp
        rw [text, htext, tokens_lineComment hbody, tokens_newline]
      · refine tokens_lineComment ?_ behind
        simp [hbody, Ne.symm hc]
  · rw [tokens_append_of_lexeme hlexeme, tokens_newline]
    rfl

/-! ## Pieces on lines of their own -/

theorem IsBare.drop {text : List Char} (h : IsBare text) (n : Nat) : IsBare (text.drop n) where
  quote hmem := h.quote (List.mem_of_mem_drop hmem)
  apostrophe hmem := h.apostrophe (List.mem_of_mem_drop hmem)
  lineComment hin := h.lineComment (hin.trans (List.drop_suffix n text).isInfix)
  blockComment hin := h.blockComment (hin.trans (List.drop_suffix n text).isInfix)

/-- The outline of a text without comments and literals does not depend on what follows it. -/
theorem tokens_append_of_isBare {text : List Char} (h : IsBare text) (behind : List Char) :
    tokens (text ++ '\n' :: behind) = tokens text ++ tokens behind := by
  induction text using lexeme_induction with
  | nil => exact tokens_newline behind
  | step text hne ih =>
    have hlonger : text ++ '\n' :: behind ≠ [] := by simp
    rw [tokens_eq_append hne, tokens_eq_append hlonger]
    obtain hsame | ⟨hbare, -⟩ := lexeme_append_newline hne behind
    · rw [hsame, List.drop_append_of_le_length (length_lexeme_le text), ih (h.drop _),
        List.append_assoc]
    · exact absurd h hbare

/-- Something complete that a text may hold. -/
inductive Piece where
  /-- A text without comments and literals: an identifier, a keyword or a raw identifier, a number,
  a brace, a mark or several of them, and any sequence of these. -/
  | bare (text : List Char) (isBare : IsBare text)
  /-- A lifetime or a label; in a raw one a hash sign and a name stand behind its letter. -/
  | lifetime (first : Char) (rest : List Char) (isName : isWordPart first = true)
    (isBare : IsBare rest)
  /-- A comment or a literal. -/
  | passage (p : Passage)

/-- How a piece is written. -/
def Piece.text : Piece → List Char
  | .bare text _ => text
  | .lifetime first rest _ _ => '\'' :: first :: rest
  | .passage p => p.text

/-- The tokens of a piece. -/
def Piece.outline : Piece → List Token
  | .bare text _ => tokens text
  | .lifetime _ rest _ _ => tokens (rest.drop (wordOf rest).length)
  | .passage _ => []

/-- A lifetime reaches to the end of its word. -/
theorem lexeme_lifetime {first : Char} {rest : List Char} (hfirst : isWordPart first = true)
    (hrest : '\'' ∉ rest) (behind : List Char) :
    lexeme ('\'' :: first :: rest ++ '\n' :: behind) =
      (none, ('\'' :: first :: wordOf rest).length) := by
  have hword : wordOf (first :: rest ++ '\n' :: behind) = first :: wordOf rest := by
    rw [List.cons_append, wordOf, List.takeWhile_cons_of_pos hfirst, ← wordOf,
      wordOf_append_newline]
  have hbackslash : first ≠ '\\' := by
    rintro rfl
    exact absurd hfirst (by decide)
  have hnext : ∀ tail, rest ++ '\n' :: behind ≠ '\'' :: tail := by
    intro tail h
    cases rest with
    | nil => exact absurd (List.cons.inj h).1 (by decide)
    | cons d rest => exact hrest ((List.cons.inj h).1 ▸ List.mem_cons_self)
  rw [List.cons_append, lexeme_cons_apostrophe, List.cons_append,
    apostropheLength_lifetime hbackslash hnext, ← List.cons_append, hword, List.length_cons,
    List.length_cons, List.length_cons, Nat.add_comm]

/-- What a piece on a line of its own adds to the outline does not depend on the text behind it. -/
theorem Piece.tokens_text (p : Piece) (behind : List Char) :
    tokens (p.text ++ '\n' :: behind) = p.outline ++ tokens behind := by
  cases p with
  | bare text isBare => exact tokens_append_of_isBare isBare behind
  | lifetime first rest isName isBare =>
    have htext : '\'' :: first :: rest ++ '\n' :: behind = '\'' :: first :: wordOf rest ++
        (rest.drop (wordOf rest).length ++ '\n' :: behind) := by
      simp only [List.cons_append, ← List.append_assoc, wordOf_append_drop]
    have hlexeme := lexeme_lifetime isName isBare.apostrophe behind
    rw [htext] at hlexeme
    rw [text, htext, tokens_append_of_lexeme hlexeme, tokens_append_of_isBare (isBare.drop _)]
    rfl
  | passage p => exact p.tokens_text behind

/-- Pieces, each with a line feed behind it. -/
def lines (pieces : List Piece) : List Char := pieces.flatMap fun p => p.text ++ ['\n']

theorem tokens_lines_append (pieces : List Piece) (behind : List Char) :
    tokens (lines pieces ++ behind) = pieces.flatMap Piece.outline ++ tokens behind := by
  induction pieces with
  | nil => rfl
  | cons p rest ih =>
    have htext : lines (p :: rest) ++ behind = p.text ++ '\n' :: (lines rest ++ behind) := by
      simp [lines]
    rw [htext, p.tokens_text, ih, List.flatMap_cons, List.append_assoc]

end Outline

/-- **Nothing inside of a comment or a literal can influence a resolved name.** Behind any complete
pieces and in front of any text, the outline is the same with and without the passage. -/
theorem Outline.tokens_insert_passage (pieces : List Outline.Piece) (p : Outline.Passage)
    (behind : List Char) :
    Outline.tokens (Outline.lines pieces ++ p.text ++ '\n' :: behind) =
        Outline.tokens (Outline.lines pieces ++ behind) ∧
      resolveName (String.ofList (Outline.lines pieces ++ p.text ++ '\n' :: behind)) =
        resolveName (String.ofList (Outline.lines pieces ++ behind)) := by
  have htokens : Outline.tokens (Outline.lines pieces ++ p.text ++ '\n' :: behind) =
      Outline.tokens (Outline.lines pieces ++ behind) := by
    rw [List.append_assoc, Outline.tokens_lines_append, p.tokens_text, Outline.tokens_lines_append]
  refine ⟨htokens, ?_⟩
  unfold resolveName
  rw [String.toList_ofList, String.toList_ofList, htokens]

/-- The head of a module. -/
def Outline.moduleHead : Outline.Piece :=
  .bare "mod m \x7b".toList ⟨by decide, by decide, by decide, by decide⟩

/-- A raw literal that holds a declaration, a closing brace and a quote. -/
def Outline.hidingLiteral : Outline.Passage :=
  .raw ['r'] (by decide) 1 "struct Hidden; \x7d \"".toList (by decide)

/-- The declaration behind the literal stands in the module, as it would without the literal. -/
theorem Outline.tokens_insert_passage_hiding :
    let text := Outline.lines [Outline.moduleHead] ++ Outline.hidingLiteral.text ++
      '\n' :: "pub struct Shown; \x7d".toList
    String.ofList text = "mod m \x7b\nr#\"struct Hidden; \x7d \"\"#\npub struct Shown; \x7d" ∧
      resolveName (String.ofList text) = .ok "m::Shown" := by
  intro text
  refine ⟨by decide, ?_⟩
  rw [(Outline.tokens_insert_passage [Outline.moduleHead] Outline.hidingLiteral
    "pub struct Shown; \x7d".toList).2]
  decide +kernel

end UnitLoader
