import UnitLoader.Proofs.Outline.Reading

/-!
# Tokens at their places

A turn of `Scan.next` reads spaces and a lexeme, and the token it finds is the one that `lexeme`
finds (`reads_lexemeTurn`, `reads_nextTurn`). A word comes with its slice, which lies between the
place where the turn began and the one where it ended (`SlicedToken.LiesIn`), so the slices of a
whole run follow one another (`Outlines.cons`).

Every turn that goes on leaves less of the text. By induction on what is left, `Scan.all` finds the
outline that `tokens` gives (`reads_allLoop`), and `Scan.declaration` finds the declaration of this
outline (`reads_declarationLoop`). With what `Reads` says of each action on the way, this is
`scan_forward_on_boundaries`: on every text the reader comes to an end, at boundaries only, with the
name that `resolveName` gives.
-/

namespace UnitLoader.Outline

open UnitLoader.Text

/-- A slice of one or more characters of a text. -/
structure Slice.IsOf (w : Slice) (text : List Char) : Prop where
  /-- It is not empty. -/
  ne_nil : w.chars ≠ []
  /-- Its characters stand in the text between its offsets. -/
  between : ∃ before behind, text = before ++ w.chars ++ behind ∧ byteLength before = w.start ∧
    byteLength (before ++ w.chars) = w.stop

/-- A token whose word, if it is one, is a slice of `text`, and in the first `n` characters
behind `front`. -/
def SlicedToken.LiesIn (t : SlicedToken) (front text : List Char) (n : Nat) : Prop :=
  ∀ w ∈ t.slice?, w.IsOf (front ++ text) ∧ byteLength front ≤ w.start ∧
    w.stop ≤ byteLength (front ++ text.take n)

/-- A token that is no word has no place. -/
theorem SlicedToken.liesIn_of_slice?_eq_none {t : SlicedToken} (h : t.slice? = none)
    (front text : List Char) (n : Nat) : t.LiesIn front text n := by
  intro w hw
  rw [h] at hw
  contradiction

/-- What lies behind some characters lies in the text that starts with them. -/
theorem SlicedToken.LiesIn.append_left {t : SlicedToken} {front before text : List Char} {n : Nat}
    (h : t.LiesIn (front ++ before) text n) :
    t.LiesIn front (before ++ text) (before.length + n) := by
  intro w hw
  obtain ⟨hof, hstart, hstop⟩ := h w hw
  refine ⟨?_, Nat.le_trans ?_ hstart, ?_⟩
  · rwa [← List.append_assoc]
  · rw [byteLength_append]
    exact Nat.le_add_right _ _
  · rwa [List.take_length_add_append, ← List.append_assoc]

/-- Characters that stand behind some others, and are read with them. -/
theorem SlicedToken.liesIn_word {chars : List Char} (hne : chars ≠ [])
    (front before behind : List Char) (m : Nat) :
    (SlicedToken.word ⟨byteLength (front ++ before), byteLength (front ++ before ++ chars),
        chars⟩).LiesIn front (before ++ chars ++ behind) (before.length + chars.length + m) := by
  have htake : before ++ chars <+:
      (before ++ chars ++ behind).take (before.length + chars.length + m) := by
    rw [← List.length_append, List.take_length_add_append]
    exact List.prefix_append _ _
  obtain ⟨more, hmore⟩ := htake
  rintro w hw
  obtain rfl := Option.some.inj hw
  refine ⟨⟨hne, front ++ before, behind, by simp, rfl, rfl⟩, ?_, ?_⟩
  · rw [byteLength_append]
    exact Nat.le_add_right _ _
  · rw [← hmore, ← List.append_assoc, ← List.append_assoc, byteLength_append _ more]
    exact Nat.le_add_right _ _

namespace Scan

variable {α : Type} {front text : List Char} {n : Nat}

/-- The outcome of a turn that reads the first `n` characters of a text and finds a token there, or
finds none and goes on. -/
def Finds (front text : List Char) (n : Nat) (token? : Option Token)
    (outcome : Unit ⊕ Option SlicedToken) : Prop :=
  match token? with
  | none => outcome = .inl ()
  | some token =>
    ∃ t : SlicedToken, outcome = .inr (some t) ∧ t.token = token ∧ t.LiesIn front text n

/-- What is found behind some characters is found in the text that starts with them. -/
theorem Finds.append_left {before : List Char} {token? : Option Token}
    {outcome : Unit ⊕ Option SlicedToken} (h : Finds (front ++ before) text n token? outcome) :
    Finds front (before ++ text) (before.length + n) token? outcome := by
  cases token? with
  | none => exact h
  | some token =>
    obtain ⟨t, houtcome, htoken, hlies⟩ := h
    exact ⟨t, houtcome, htoken, hlies.append_left⟩

/-- A word is found that nothing which follows makes a part of something else. -/
theorem finds_word {word : List Char} (hword : word ≠ []) (front behind : List Char) :
    Finds front (word ++ behind) (word.length + 0) (some (.word word))
      (.inr (some (.word ⟨byteLength front, byteLength (front ++ word), word⟩))) := by
  refine ⟨_, rfl, rfl, ?_⟩
  have hlies := SlicedToken.liesIn_word hword front [] behind 0
  rwa [List.append_nil, List.nil_append, List.length_nil, Nat.zero_add] at hlies

/-- A raw literal starts with a hash sign or a quote. -/
theorem head?_mem_of_rawLength? (h : rawLength? text = some n) :
    text.head? ∈ [some '"', some '#'] := by
  obtain ⟨hashes, body, rfl⟩ := eq_replicate_of_rawLength? h
  cases hashes with
  | zero => simp
  | succ hashes => simp [List.replicate_succ]

/-- Behind the letter and the hash sign of a raw identifier the name is read, if there is one. -/
theorem reads_rawIdentifier (front : List Char) {rest : List Char}
    (hraw : rawLength? ('#' :: rest) = none) :
    ∃ outcome,
      Reads (behindWord ⟨byteLength front, byteLength (front ++ ['r']), ['r']⟩) (front ++ ['r'])
        ('#' :: rest) (1 + (wordOf rest).length) outcome ∧
      Finds front (['r'] ++ '#' :: rest) (1 + (1 + (wordOf rest).length))
        (if (wordOf rest).isEmpty then none else some (.word (wordOf rest))) outcome := by
  have hread : Reads (behindWord ⟨byteLength front, byteLength (front ++ ['r']), ['r']⟩)
      (front ++ ['r']) ('#' :: rest) (1 + (wordOf rest).length)
      (if (wordOf rest).isEmpty then .inl ()
        else .inr (some (.word ⟨byteLength (front ++ ['r', '#']),
          byteLength (front ++ ['r', '#'] ++ wordOf rest), wordOf rest⟩))) := by
    -- The hash sign is passed over when no raw literal was found, and the name is what follows it.
    have hname := reads_eatWhile isWordPart (front ++ ['r'] ++ ['#']) rest
    rw [List.append_assoc front] at hname
    refine reads_peek.look ?_
    rw [if_neg (by simp), if_neg (by simp), if_pos ⟨by simp, by simp⟩]
    refine (reads_raw_none hraw).look (reads_bump_bind ?_ rfl)
    rw [List.append_assoc front]
    exact hname.returning (apply_ite pure _ _ _).symm
  refine ⟨_, hread, ?_⟩
  split
  · rfl
  · rename_i hname
    have hne : wordOf rest ≠ [] := fun hnil => hname (List.isEmpty_iff.2 hnil)
    have hlies := SlicedToken.liesIn_word hne front ['r', '#'] (rest.drop (wordOf rest).length) 0
    have hlength : ['r', '#'].length + (wordOf rest).length + 0 =
        1 + (1 + (wordOf rest).length) := Nat.add_assoc 1 1 _
    rw [List.append_assoc ['r', '#'], wordOf_append_drop, hlength] at hlies
    exact ⟨_, rfl, rfl, hlies⟩

/-- A word is found by itself if it is not the letters of a literal. -/
theorem reads_behindWord_plain {front word behind : List Char}
    (hbyte : ¬(word = ['b'] ∧ behind.head? = some '\''))
    (hquoted : ¬((word = ['b'] ∨ word = ['c']) ∧ behind.head? = some '"'))
    (hraw : ¬(word ∈ [['r'], ['b', 'r'], ['c', 'r']] ∧ behind.head? ∈ [some '"', some '#'])) :
    Reads (behindWord ⟨byteLength front, byteLength (front ++ word), word⟩) (front ++ word) behind
      0 (.inr (some (.word ⟨byteLength front, byteLength (front ++ word), word⟩))) := by
  refine reads_peek.look ?_
  rw [if_neg hbyte, if_neg hquoted, if_neg hraw]
  exact reads_pure _

/-- Behind two letters that name a raw literal it is passed over, if it is one. -/
theorem reads_behindWord_letters (front : List Char) {word behind : List Char}
    (hletters : word = ['b', 'r'] ∨ word = ['c', 'r'])
    (hbehind : behind.head? ∈ [some '"', some '#']) :
    Reads (behindWord ⟨byteLength front, byteLength (front ++ word), word⟩) (front ++ word) behind
      ((rawLength? behind).getD 0) (.inl ()) := by
  have hmem : word ∈ [['r'], ['b', 'r'], ['c', 'r']] :=
    List.mem_cons_of_mem _ (by simpa using hletters)
  have hnotr : (word == ['r']) = false := by
    obtain rfl | rfl := hletters <;> decide
  refine reads_peek.look ?_
  rw [if_neg, if_neg, if_pos ⟨hmem, hbehind⟩]
  · cases hraw : rawLength? behind with
    | none => exact (reads_raw_none hraw).returning (by rw [hnotr]; rfl)
    | some n => exact (reads_raw_some hraw).returning (by rw [hnotr]; rfl)
  · obtain rfl | rfl := hletters <;> simp
  · obtain rfl | rfl := hletters <;> simp

/-- What follows a word is read as `wordLexeme` reads it. -/
theorem reads_behindWord (front word behind : List Char) (hword : word ≠ []) :
    ∃ m outcome,
      Reads (behindWord ⟨byteLength front, byteLength (front ++ word), word⟩) (front ++ word) behind
        m outcome ∧
      (wordLexeme word behind).2 = word.length + m ∧
      Finds front (word ++ behind) (word.length + m) (wordLexeme word behind).1 outcome := by
  fun_cases wordLexeme word behind with
  | case1 rest =>
    -- A byte: the apostrophe is read as it is without the letter.
    refine ⟨1 + apostropheLength rest, .inl (), reads_peek.look ?_, ?_, rfl⟩
    · exact (reads_apostrophe _ rest).returning rfl
    · simp only [List.length_cons, List.length_nil]
      omega
  | case2 rest | case3 rest =>
    -- A literal in quotes, with its letter.
    refine ⟨1 + quotedLength rest, .inl (), reads_peek.look ?_, ?_, rfl⟩
    · exact (reads_quoted _ rest '"').returning rfl
    · simp only [List.length_cons, List.length_nil]
      omega
  | case4 behind n hraw =>
    -- A raw literal.
    simp only [hraw]
    refine ⟨n, .inl (), reads_peek.look ?_, rfl, rfl⟩
    rw [if_neg (by simp), if_neg (by simp), if_pos ⟨by simp, head?_mem_of_rawLength? hraw⟩]
    exact (reads_raw_some hraw).returning rfl
  | case5 rest hraw =>
    -- A raw identifier.
    simp only [hraw]
    obtain ⟨outcome, hread, hfinds⟩ := reads_rawIdentifier front hraw
    exact ⟨_, outcome, hread, Nat.add_assoc 1 1 _, hfinds⟩
  | case6 behind hraw hhash =>
    simp only [hraw]
    refine ⟨0, _, reads_behindWord_plain (by simp) (by simp) ?_, rfl,
      finds_word hword front behind⟩
    -- Behind the letter a quote would begin a raw literal, and a hash sign an identifier.
    rintro ⟨-, hhead⟩
    simp only [List.mem_cons, List.not_mem_nil, or_false] at hhead
    obtain hhead | hhead := hhead
    · obtain ⟨body, rfl⟩ := List.head?_eq_some_iff.1 hhead
      exact absurd (hraw.symm.trans (rawLength?_replicate 0 body)) (by simp)
    · obtain ⟨rest, rfl⟩ := List.head?_eq_some_iff.1 hhead
      exact hhash rest rfl
  | case7 word next rest hletters hb hquoted hc hr =>
    -- Two letters, with a raw literal behind them if there is one.
    rw [if_pos hletters]
    simp only [Bool.and_eq_true, Bool.or_eq_true, beq_iff_eq] at hletters
    have hnext : (next :: rest).head? ∈ [some '"', some '#'] := by simpa using hletters.2
    exact ⟨_, .inl (), reads_behindWord_letters front hletters.1 hnext, rfl, rfl⟩
  | case8 word next rest hletters hb hquoted hc hr =>
    -- Any other word, and one at the end, stands by itself.
    rw [if_neg hletters]
    simp only [Bool.and_eq_true, Bool.or_eq_true, beq_iff_eq] at hletters
    refine ⟨0, _, reads_behindWord_plain ?_ ?_ ?_, rfl, finds_word hword front _⟩
    · exact fun h => hb h.1 (Option.some.inj h.2)
    · exact fun h => h.1.elim (fun hw => hquoted hw (Option.some.inj h.2))
        fun hw => hc hw (Option.some.inj h.2)
    · rintro ⟨hmem, hhead⟩
      obtain hw | hmem := List.mem_cons.1 hmem
      · exact hr hw
      · exact hletters ⟨by simpa using hmem, by simpa using hhead⟩
  | case9 word hr =>
    exact ⟨0, _, reads_behindWord_plain (by simp) (by simp) (by simp), rfl,
      finds_word hword front []⟩

/-- What starts neither a comment, a literal nor a brace is a number, a word or a mark. -/
theorem reads_lexemeTurn_other {c : Char} {outcome : Unit ⊕ Option SlicedToken}
    (hline : ∀ rest, c = '/' → text = '/' :: rest → False)
    (hblock : ∀ rest, c = '/' → text = '*' :: rest → False) (hquote : ¬c = '"')
    (hapostrophe : ¬c = '\'') (hopen : ¬c = '\x7b') (hclose : ¬c = '\x7d')
    (h : Reads (wordOrMark c) front (c :: text) n outcome) :
    Reads (lexemeTurn c) front (c :: text) n outcome := by
  refine reads_rest.look ?_
  rwa [if_neg (not_isPrefixOf_pair hline), if_neg (not_isPrefixOf_pair hblock), if_neg hquote,
    if_neg hapostrophe, if_neg hopen, if_neg hclose]

/-- A lexeme is read as `lexeme` reads it. -/
theorem reads_lexemeTurn {c : Char} (hhead : text.head? = some c)
    (hc : ¬Charset.isWhitespace c = true) (front : List Char) :
    ∃ outcome, Reads (lexemeTurn c) front text (lexeme text).2 outcome ∧
      Finds front text (lexeme text).2 (lexeme text).1 outcome := by
  fun_cases lexeme text with
  | case1 => contradiction
  | case2 rest =>
    -- The slashes of a line comment are eaten with the rest of the line.
    refine ⟨.inl (), reads_rest.look ?_, rfl⟩
    have hread := (reads_eatWhile (· != '\n') front ('/' :: '/' :: rest)).discard
    rw [List.takeWhile_cons_of_pos (by decide), List.takeWhile_cons_of_pos (by decide),
      List.length_cons, List.length_cons, Nat.add_assoc, Nat.add_comm] at hread
    exact hread.returning rfl
  | case3 rest =>
    exact ⟨.inl (), reads_rest.look ((reads_blockComment front rest).returning rfl), rfl⟩
  | case4 rest =>
    obtain rfl := Option.some.inj hhead
    exact ⟨.inl (), reads_rest.look ((reads_quoted front rest '"').returning rfl), rfl⟩
  | case5 rest =>
    obtain rfl := Option.some.inj hhead
    exact ⟨.inl (), reads_rest.look ((reads_apostrophe front rest).returning rfl), rfl⟩
  | case6 rest =>
    -- A brace is a token. It has no text that was sliced.
    obtain rfl := Option.some.inj hhead
    refine ⟨_, reads_rest.look ((reads_bump_cons '\x7b').discard.returning rfl), ?_⟩
    exact ⟨_, rfl, rfl, SlicedToken.liesIn_of_slice?_eq_none rfl front _ 1⟩
  | case7 rest =>
    obtain rfl := Option.some.inj hhead
    refine ⟨_, reads_rest.look ((reads_bump_cons '\x7d').discard.returning rfl), ?_⟩
    exact ⟨_, rfl, rfl, SlicedToken.liesIn_of_slice?_eq_none rfl front _ 1⟩
  | case8 d rest _ _ _ _ _ _ hspace =>
    -- The turn has passed over white space before.
    obtain rfl := Option.some.inj hhead
    exact absurd hspace hc
  | case9 d rest hline hblock hquote hapostrophe hopen hclose _ hdigit =>
    -- A number is eaten as a word is, and is no token.
    obtain rfl := Option.some.inj hhead
    refine ⟨.inl (), reads_lexemeTurn_other hline hblock hquote hapostrophe hopen hclose ?_, rfl⟩
    rw [wordOrMark, if_pos hdigit]
    exact (reads_eatWhile isWordPart front (d :: rest)).discard.returning rfl
  | case10 d rest hline hblock hquote hapostrophe hopen hclose _ hdigit hstart =>
    -- The word is read, and then what it may be the letters of.
    obtain rfl := Option.some.inj hhead
    have hword : wordOf (d :: rest) ≠ [] :=
      List.ne_nil_of_length_pos (length_wordOf_pos (isWordPart_of_isWordStart hstart) rest)
    obtain ⟨m, outcome, hread, hlength, hfinds⟩ := reads_behindWord front (wordOf (d :: rest))
      ((d :: rest).drop (wordOf (d :: rest)).length) hword
    rw [wordOf_append_drop] at hfinds
    refine ⟨outcome, reads_lexemeTurn_other hline hblock hquote hapostrophe hopen hclose ?_, ?_⟩
    · rw [wordOrMark, if_neg hdigit, if_pos hstart]
      refine (reads_eatWhile isWordPart front (d :: rest)).bind ?_ hlength.symm
      rwa [← List.prefix_iff_eq_take.1 (List.takeWhile_prefix isWordPart)]
    · rwa [hlength]
  | case11 d rest hline hblock hquote hapostrophe hopen hclose _ hdigit hstart =>
    obtain rfl := Option.some.inj hhead
    refine ⟨_, reads_lexemeTurn_other hline hblock hquote hapostrophe hopen hclose ?_, .mark d, rfl,
      rfl, SlicedToken.liesIn_of_slice?_eq_none rfl front _ 1⟩
    rw [wordOrMark, if_neg hdigit, if_neg hstart]
    exact (reads_bump_cons d).discard.returning rfl

/-- Spaces in front change nothing about the outline. -/
theorem tokens_spaces_append {spaces : List Char}
    (h : ∀ c ∈ spaces, Charset.isWhitespace c = true) (text : List Char) :
    tokens (spaces ++ text) = tokens text := by
  induction spaces with
  | nil => rfl
  | cons c spaces ih =>
    obtain ⟨hc, hspaces⟩ := List.forall_mem_cons.1 h
    have hne {d : Char} (hd : Charset.isWhitespace d = false) : c = d → False := by
      rintro rfl
      rw [hc] at hd
      contradiction
    have hlexeme : lexeme ([c] ++ (spaces ++ text)) = (none, [c].length) := by
      rw [List.singleton_append, lexeme_of_other (fun _ h _ => hne (by decide) h)
        (fun _ h _ => hne (by decide) h) (hne (by decide)) (hne (by decide)) (hne (by decide))
        (hne (by decide)), if_pos hc]
      rfl
    exact (tokens_append_of_lexeme hlexeme).trans (ih hspaces)

/-- **A turn of `next`** comes to the end of the text, where nothing of the outline is left, or it
reads a lexeme behind spaces. -/
theorem reads_nextTurn (front text : List Char) :
    (Reads (nextTurn ()) front text text.length (.inr none) ∧ tokens text = []) ∨
      ∃ n token? outcome, Reads (nextTurn ()) front text n outcome ∧ 0 < n ∧ n ≤ text.length ∧
        Finds front text n token? outcome ∧
        tokens text = token?.toList ++ tokens (text.drop n) := by
  have hsplit := List.takeWhile_append_dropWhile (p := Charset.isWhitespace) (l := text)
  have hnot := List.head?_dropWhile_not Charset.isWhitespace text
  have hread := (reads_eatWhile Charset.isWhitespace front text).discard
  have hspaces : ∀ c ∈ text.takeWhile Charset.isWhitespace, Charset.isWhitespace c = true :=
    List.all_eq_true.1 List.all_takeWhile
  generalize text.takeWhile Charset.isWhitespace = spaces at hsplit hread hspaces
  generalize text.dropWhile Charset.isWhitespace = behind at hsplit hnot
  subst hsplit
  rw [tokens_spaces_append hspaces]
  -- Whatever is read behind the spaces, the turn reads the spaces with it.
  have hbehind {n : Nat} {outcome : Unit ⊕ Option SlicedToken}
      (hthen : Reads lexemeOrEnd (front ++ spaces) behind n outcome) :
      Reads (nextTurn ()) front (spaces ++ behind) (spaces.length + n) outcome := by
    refine hread.bind ?_ rfl
    rwa [List.take_left, List.drop_left]
  cases behind with
  | nil =>
    -- At the end of the text the loop ends.
    refine .inl ⟨?_, rfl⟩
    rw [List.length_append]
    exact hbehind (reads_peek.returning rfl)
  | cons c rest =>
    -- Otherwise the turn reads one lexeme, which is not empty, so the loop comes forward.
    have hhead : (c :: rest).head? = some c := rfl
    obtain ⟨outcome, hlexeme, hfinds⟩ :=
      reads_lexemeTurn hhead (by simpa using hnot) (front ++ spaces)
    have hpos := length_lexeme_pos (List.cons_ne_nil c rest)
    have hle := length_lexeme_le (c :: rest)
    refine .inr ⟨_, (lexeme (c :: rest)).1, outcome, hbehind (reads_peek.look hlexeme), by omega,
      ?_, hfinds.append_left, ?_⟩
    · rw [List.length_append]
      omega
    · rw [← List.drop_drop, List.drop_left, tokens_eq_append (List.cons_ne_nil c rest)]

/-- A turn of `next` comes to the end of the text, finds a token, or goes on behind a lexeme. -/
theorem forward_nextTurn : Forward nextTurn := by
  intro _ front text
  obtain ⟨hread, -⟩ | ⟨n, token?, outcome, hread, hpos, hle, -, -⟩ := reads_nextTurn front text
  · exact ⟨text.length, .inr none, hread, Nat.le_refl _, by simp⟩
  · exact ⟨n, outcome, hread, hle, fun _ => hpos⟩

/-- Where a character is left, a turn of `next` reads one, whatever it finds. -/
theorem reads_nextTurn_cons (front : List Char) (c : Char) (text : List Char) :
    ∃ n outcome, Reads (nextTurn ()) front (c :: text) n outcome ∧ 0 < n ∧
      n ≤ (c :: text).length := by
  obtain ⟨hread, -⟩ | ⟨n, token?, outcome, hread, hpos, hle, -, -⟩ :=
    reads_nextTurn front (c :: text)
  · exact ⟨_, _, hread, by simp, Nat.le_refl _⟩
  · exact ⟨n, outcome, hread, hpos, hle⟩

/-! ## All tokens -/

/-- What `next` finds in a text of which it reads `n` characters: the first token of the outline, or
none if the outline is empty. -/
def FindsNext (front text : List Char) (n : Nat) : Option SlicedToken → Prop
  | none => n = text.length ∧ tokens text = []
  | some t => 0 < n ∧ tokens text = t.token :: tokens (text.drop n) ∧ t.LiesIn front text n

/-- Characters that are read are there. -/
theorem take_ne_nil (hpos : 0 < n) (hle : n ≤ text.length) : text.take n ≠ [] := by
  refine List.ne_nil_of_length_pos ?_
  rwa [List.length_take_of_le hle]

/-- Every turn leaves less of the text, so `next` comes to an end. -/
theorem reads_next (front text : List Char) :
    ∃ n found, Reads next front text n found ∧ n ≤ text.length ∧ FindsNext front text n found := by
  obtain ⟨hread, htokens⟩ | ⟨n, token?, outcome, hread, hpos, hle, hfinds, htokens⟩ :=
    reads_nextTurn front text
  · exact ⟨text.length, none, hread.done, Nat.le_refl _, rfl, htokens⟩
  cases token? with
  | some token =>
    obtain ⟨t, rfl, rfl, hlies⟩ := hfinds
    exact ⟨n, some t, hread.done, hle, hpos, htokens, hlies⟩
  | none =>
    -- The turn found no token, and it has read something, so less is left for the others.
    obtain rfl : outcome = .inl () := hfinds
    have hlength : (text.take n).length = n := List.length_take_of_le hle
    obtain ⟨m, found, hnext, hm, hfound⟩ := reads_next (front ++ text.take n) (text.drop n)
    rw [List.length_drop] at hm
    refine ⟨n + m, found, hread.again (take_ne_nil hpos hle) hnext rfl, by omega, ?_⟩
    cases found with
    | none =>
      -- Nothing comes in what is left.
      obtain ⟨rfl, hnone⟩ := hfound
      refine ⟨?_, htokens.trans hnone⟩
      rw [List.length_drop]
      omega
    | some t =>
      -- The token that comes lies in what is left, and so in the text.
      obtain ⟨hm, hsome, hlies⟩ := hfound
      refine ⟨by omega, ?_, ?_⟩
      · rw [← List.drop_drop]
        exact htokens.trans hsome
      · have hbehind := hlies.append_left
        rwa [List.take_append_drop, hlength] at hbehind
termination_by text.length
decreasing_by
  rw [List.length_drop]
  omega

/-- What a search has found in the text behind `front`: the tokens of its outline, and the words
among them are slices that follow one another. -/
structure Outlines (front text : List Char) (found : List SlicedToken) : Prop where
  /-- They are the tokens. -/
  map_token : found.map SlicedToken.token = tokens text
  /-- The words are slices of the text. -/
  isOf : ∀ w ∈ found.filterMap SlicedToken.slice?, w.IsOf (front ++ text)
  /-- No word starts in front of the text. -/
  start_le : ∀ w ∈ found.filterMap SlicedToken.slice?, byteLength front ≤ w.start
  /-- A word starts where the one before has ended, or behind that. -/
  ordered : (found.filterMap SlicedToken.slice?).Pairwise (·.stop ≤ ·.start)

theorem outlines_nil (h : tokens text = []) : Outlines front text [] :=
  ⟨h.symm, by simp, by simp, by simp⟩

/-- A token in front of those that were found behind it. -/
theorem Outlines.cons {t : SlicedToken} {found : List SlicedToken}
    (h : Outlines (front ++ text.take n) (text.drop n) found) (hlies : t.LiesIn front text n)
    (htokens : tokens text = t.token :: tokens (text.drop n)) :
    Outlines front text (t :: found) := by
  obtain ⟨hmap, hof, hstart, hordered⟩ := h
  rw [List.append_assoc, List.take_append_drop] at hof
  have hfront : byteLength front ≤ byteLength (front ++ text.take n) := by
    rw [byteLength_append]
    exact Nat.le_add_right _ _
  have htokens' : (t :: found).map SlicedToken.token = tokens text := by
    rw [List.map_cons, hmap, htokens]
  -- A brace or a mark adds no slice; a word adds one, which ends where the others may start.
  cases ht : t.slice? with
  | none =>
    have hslices : (t :: found).filterMap SlicedToken.slice? =
        found.filterMap SlicedToken.slice? := List.filterMap_cons_none ht
    refine ⟨htokens', ?_, ?_, ?_⟩ <;> rw [hslices]
    · exact hof
    · exact fun w hw => Nat.le_trans hfront (hstart w hw)
    · exact hordered
  | some word =>
    have hslices : (t :: found).filterMap SlicedToken.slice? =
        word :: found.filterMap SlicedToken.slice? := List.filterMap_cons_some ht
    obtain ⟨hword, hwordstart, hwordstop⟩ := hlies word ht
    refine ⟨htokens', ?_, ?_, ?_⟩ <;> rw [hslices]
    · exact List.forall_mem_cons.2 ⟨hword, hof⟩
    · exact List.forall_mem_cons.2 ⟨hwordstart, fun w hw => Nat.le_trans hfront (hstart w hw)⟩
    · exact List.pairwise_cons.2 ⟨fun w hw => Nat.le_trans hwordstop (hstart w hw), hordered⟩

/-- A turn of `all` reads what `next` reads. -/
theorem reads_allTurn {t? : Option SlicedToken} (h : Reads next front text n t?)
    (found : List SlicedToken) :
    Reads (allTurn found) front text n
      (match t? with
      | none => .inr found
      | some t => .inl (found ++ [t])) :=
  h.returning (by cases t? <;> rfl)

theorem forward_allTurn : Forward allTurn := by
  intro found front text
  obtain ⟨n, t?, hread, hle, hfound⟩ := reads_next front text
  refine ⟨n, _, reads_allTurn hread found, hle, ?_⟩
  cases t? with
  | none => simp
  | some t => exact fun _ => hfound.1

/-- The outline is found behind what was found before. -/
theorem reads_allLoop (found : List SlicedToken) (front text : List Char) :
    ∃ more, Reads (loop allTurn found) front text text.length (found ++ more) ∧
      Outlines front text more := by
  obtain ⟨n, t?, hread, hle, hfound⟩ := reads_next front text
  have hturn := reads_allTurn hread found
  cases t? with
  | none =>
    obtain ⟨rfl, htokens⟩ := hfound
    refine ⟨[], ?_, outlines_nil htokens⟩
    rw [List.append_nil]
    exact hturn.done
  | some t =>
    -- What is found behind the token starts where the token has ended or later.
    obtain ⟨hpos, htokens, hlies⟩ := hfound
    obtain ⟨more, hloop, hmore⟩ :=
      reads_allLoop (found ++ [t]) (front ++ text.take n) (text.drop n)
    refine ⟨t :: more, ?_, hmore.cons hlies htokens⟩
    rw [List.append_assoc, List.singleton_append, List.length_drop] at hloop
    exact hturn.again (take_ne_nil hpos hle) hloop (Nat.add_sub_of_le hle)
termination_by text.length
decreasing_by
  rw [List.length_drop]
  omega

/-! ## The declared type -/

/-- A turn of `declaration` reads what `next` reads. -/
theorem reads_declarationTurn {t? : Option SlicedToken} (h : Reads next front text n t?)
    (known : State) :
    Reads (declarationTurn known) front text n
      (match t? with
      | none => .inr none
      | some t =>
        match known.step t.token with
        | .inl path => .inr (some path)
        | .inr next => .inl next) := by
  refine h.returning ?_
  cases t? with
  | none => rfl
  | some t =>
    dsimp only
    cases known.step t.token <;> rfl

theorem forward_declarationTurn : Forward declarationTurn := by
  intro known front text
  obtain ⟨n, t?, hread, hle, hfound⟩ := reads_next front text
  refine ⟨n, _, reads_declarationTurn hread known, hle, ?_⟩
  cases t? with
  | none => simp
  | some t => exact fun _ => hfound.1

/-- The declaration is found that the outline has. Nothing is read behind it. -/
theorem reads_declarationLoop (known : State) (front text : List Char) :
    ∃ n, Reads (loop declarationTurn known) front text n
      (declaredPathFrom known (tokens text)) := by
  obtain ⟨n, t?, hread, hle, hfound⟩ := reads_next front text
  have hturn := reads_declarationTurn hread known
  cases t? with
  | none =>
    -- No token is left: the loop ends without a declaration.
    obtain ⟨-, htokens⟩ := hfound
    rw [htokens]
    exact ⟨n, hturn.done⟩
  | some t =>
    obtain ⟨hpos, htokens, -⟩ := hfound
    rw [htokens, declaredPathFrom]
    dsimp only at hturn
    cases hstep : known.step t.token with
    | inl path =>
      -- The token ends the search.
      rw [hstep] at hturn
      exact ⟨n, hturn.done⟩
    | inr known =>
      -- The loop goes on with less of the text.
      rw [hstep] at hturn
      obtain ⟨m, hloop⟩ := reads_declarationLoop known (front ++ text.take n) (text.drop n)
      exact ⟨n + m, hturn.again (take_ne_nil hpos hle) hloop rfl⟩
termination_by text.length
decreasing_by
  rw [List.length_drop]
  omega

/-! ## Whole runs -/

/-- From the start of a text an action gives `a`, and the scanner has been at boundaries of the text
only, none of them beyond the end. -/
def Succeeds (action : Scan α) (text : List Char) (a : α) : Prop :=
  ∃ s, action (.start text) = some (a, s) ∧
    ∀ offset ∈ s.pos :: s.visited, IsBoundary text offset ∧ offset ≤ byteLength text

theorem Reads.succeeds {action : Scan α} {a : α} (h : Reads action [] text n a) :
    Succeeds action text a := by
  obtain ⟨s, haction, hs⟩ := h _ (Scanner.at_start text)
  have htext : s.text = text := hs.text.trans (List.take_append_drop n text)
  refine ⟨s, haction, fun offset hoffset => ?_⟩
  have hboundary := hs.isBoundary offset hoffset
  rw [htext] at hboundary
  exact ⟨hboundary, hboundary.le⟩

end Scan

/-- **Reading always goes forward and stays on the boundaries between characters.** Wherever a
scanner stands between two parts of a text, every turn of every loop succeeds and reads at least one
character if it goes on, and so does a turn of `next` unless the text has ended. Whatever the text
is, the search for tokens ends, with the outline of the text, of which the words are slices that
follow one another, and the search for the declaration ends, with the name that is resolved. -/
theorem scan_forward_on_boundaries :
    ((∀ p, Scan.Forward (Scan.eatTurn p)) ∧ Scan.Forward Scan.commentTurn ∧
      Scan.Forward Scan.quotedTurn ∧ Scan.Forward Scan.nextTurn ∧ Scan.Forward Scan.allTurn ∧
      Scan.Forward Scan.declarationTurn) ∧
    (∀ front c text, ∃ n outcome, Scan.Reads (Scan.nextTurn ()) front (c :: text) n outcome ∧
      0 < n ∧ n ≤ (c :: text).length) ∧
    (∀ text, ∃ found, Scan.Succeeds Scan.all text found ∧ Scan.Outlines [] text found) ∧
    ∀ source : String,
      Scan.Succeeds Scan.declaration source.toList (declaredPath (tokens source.toList)) ∧
      scannedName? source = some (resolveName source) := by
  refine ⟨⟨Scan.forward_eatTurn, Scan.forward_commentTurn, Scan.forward_quotedTurn,
    Scan.forward_nextTurn, Scan.forward_allTurn, Scan.forward_declarationTurn⟩,
    Scan.reads_nextTurn_cons, ?_, ?_⟩
  · intro text
    obtain ⟨found, hread, hfound⟩ := Scan.reads_allLoop [] [] text
    exact ⟨found, hread.succeeds, hfound⟩
  · intro source
    obtain ⟨n, hread⟩ := Scan.reads_declarationLoop .initial [] source.toList
    have hrun := hread.succeeds
    refine ⟨hrun, ?_⟩
    obtain ⟨s, hs, -⟩ := hrun
    rw [scannedName?, Scan.declaration, hs]
    rfl

example : (Scan.all (.start "r#\"é\"# ö".toList)).map Prod.fst = some [.word ⟨8, 10, ['ö']⟩] := by
  decide +kernel

end UnitLoader.Outline
