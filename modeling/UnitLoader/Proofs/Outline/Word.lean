import UnitLoader.Proofs.Outline.Frames
import UnitLoader.Proofs.Outline.Lexeme

/-!
# The words of an outline

Whatever the text, a word of its outline is not empty and has the characters of a word only
(`isWord_of_mem_tokens`). So has every part of the path of a declared type, since the parts are
words of the outline (`isWord_of_declaredPath`).
-/

namespace UnitLoader.Outline

open UnitLoader.Text

/-- A text of one or more characters that may stand inside of a word. -/
structure IsWord (text : List Char) : Prop where
  /-- It is not empty. -/
  ne_nil : text ≠ []
  /-- Each of its characters may stand inside of a word. -/
  parts : ∀ c ∈ text, isWordPart c = true

/-! ## Words of an outline -/

theorem isWord_wordOf {text : List Char} (h : wordOf text ≠ []) : IsWord (wordOf text) :=
  ⟨h, fun c hc => List.all_eq_true.1 List.all_takeWhile c hc⟩

/-- A word starts a lexeme that yields this word, the word of a raw identifier, or none. -/
theorem isWord_of_wordLexeme {word behind w : List Char} (hword : IsWord word)
    (h : (wordLexeme word behind).1 = some (.word w)) : IsWord w := by
  have hsame {w' : List Char} (hw' : IsWord w')
      (heq : some (Token.word w') = some (Token.word w)) : IsWord w :=
    Token.word.inj (Option.some.inj heq) ▸ hw'
  revert h
  fun_cases wordLexeme word behind with
  | case4 behind n hraw =>
    -- A raw string gives no word.
    rw [hraw]
    exact fun h => absurd h (by simp)
  | case5 rest hraw =>
    -- The word of a raw identifier stands behind the hash sign, if there is one.
    simp only [hraw]
    split
    · exact fun h => absurd h (by simp)
    · rename_i hname
      exact hsame (isWord_wordOf fun hnil => hname (List.isEmpty_iff.2 hnil))
  | case6 behind hraw hhash =>
    simp only [hraw]
    exact hsame hword
  | case7 word next rest hletters =>
    rw [if_pos hletters]
    exact fun h => absurd h (by simp)
  | case8 word next rest hletters =>
    rw [if_neg hletters]
    exact hsame hword
  | case9 => exact hsame hword
  | _ => exact fun h => absurd h (by simp)

/-- The lexeme that a text starts with yields no other words than these. -/
theorem isWord_of_lexeme {text w : List Char} (h : (lexeme text).1 = some (.word w)) :
    IsWord w := by
  revert h
  fun_cases lexeme text with
  | case10 c rest _ _ _ _ _ _ _ _ hstart =>
    -- The character that a word starts with belongs to it.
    refine isWord_of_wordLexeme (isWord_wordOf fun hnil => ?_)
    have hpos := length_wordOf_pos (isWordPart_of_isWordStart hstart) rest
    exact absurd hpos (by rw [hnil]; decide)
  | _ => exact fun h => absurd h (by simp)

/-- A word of an outline is not empty and has the characters of a word. -/
theorem isWord_of_mem_tokens {text w : List Char} (h : .word w ∈ tokens text) : IsWord w := by
  induction text using lexeme_induction with
  | nil => exact absurd h List.not_mem_nil
  | step text hne ih =>
    rw [tokens_eq_append hne, List.mem_append, Option.mem_toList] at h
    exact h.elim isWord_of_lexeme ih

/-! ## Words of a path -/

/-- The words that a state keeps for the path: the names of the open modules, and a name that may
turn out to be a module's. -/
def State.words (s : State) : List (List Char) :=
  s.modules.map Prod.fst ++
    match s.expectation with
    | .moduleBody name => [name]
    | _ => []

/-- The words of an outcome: those of the path, or those that the state keeps. -/
def outcomeWords : List (List Char) ⊕ State → List (List Char)
  | .inl path => path
  | .inr s => s.words

theorem State.map_fst_modules_subset (s : State) : s.modules.map Prod.fst ⊆ s.words :=
  List.subset_append_left _ _

/-- A token that nothing in front of it lays claim to gives no word to keep. -/
theorem State.words_read_subset (s : State) (t : Token) : (s.read t).words ⊆ s.words := by
  have hmodules := s.map_fst_modules_subset
  fun_cases State.read s t with
  | case4 =>
    -- A closing brace takes at most a module out.
    simp only [State.words, List.append_nil]
    split
    · exact fun w hw => hmodules (List.map_subset _ (List.dropLast_sublist _).subset hw)
    · exact hmodules
  | _ => simpa only [State.words, List.append_nil] using hmodules

/-- A step keeps no words but those that were kept and the word that is read. -/
theorem mem_words_of_step {s : State} {t : Token} {w : List Char}
    (h : w ∈ outcomeWords (s.step t)) : w ∈ s.words ∨ t = .word w := by
  have hmodules := s.map_fst_modules_subset
  revert h
  fun_cases State.step s t with
  | case7 => exact .inl
  | case8 name =>
    -- The name behind `mod` may be that of a module.
    rw [outcomeWords, State.words, List.mem_append, List.mem_singleton]
    exact .imp (@hmodules w) fun hname => congrArg Token.word hname.symm
  | case9 name hpending =>
    -- The name that was kept is that of a module.
    rw [outcomeWords, State.words, State.words, List.map_append, List.append_nil, hpending]
    exact .inl
  | case10 name =>
    rw [outcomeWords, List.mem_append, List.mem_singleton]
    exact .imp (@hmodules w) fun hname => congrArg Token.word hname.symm
  | case11 => exact fun h => .inl (s.words_read_subset _ h)
  | _ =>
    -- Around and inside of an attribute nothing is kept for the path.
    rw [outcomeWords, State.words, List.append_nil]
    exact fun h => .inl (hmodules h)

/-- The path that a step gives has a last part. -/
theorem ne_nil_of_step {s : State} {t : Token} {path : List (List Char)}
    (h : s.step t = .inl path) : path ≠ [] := by
  revert h
  fun_cases State.step s t with
  | case10 name => exact fun h => Sum.inl.inj h ▸ List.concat_ne_nil name _
  | _ => exact fun h => absurd h (by simp)

/-- A path has a last part, and its parts are words that were kept or that stand in the outline. -/
theorem words_of_declaredPathFrom {s : State} {outline : List Token} {path : List (List Char)}
    (h : declaredPathFrom s outline = some path) :
    path ≠ [] ∧ ∀ w ∈ path, w ∈ s.words ∨ .word w ∈ outline := by
  induction outline generalizing s with
  | nil => exact absurd h (by simp [declaredPathFrom])
  | cons t rest ih =>
    -- A word that is kept by the first step was kept before, or it is the first token.
    have hread {w : List Char} (hw : w ∈ outcomeWords (s.step t)) :
        w ∈ s.words ∨ .word w ∈ t :: rest := by
      rcases mem_words_of_step hw with hkept | rfl
      · exact .inl hkept
      · exact .inr List.mem_cons_self
    rw [declaredPathFrom] at h
    cases hstep : s.step t with
    | inl found =>
      rw [hstep] at h hread
      obtain rfl := Option.some.inj h
      exact ⟨ne_nil_of_step hstep, fun w hw => hread hw⟩
    | inr next =>
      rw [hstep] at h hread
      refine ⟨(ih h).1, fun w hw => ?_⟩
      rcases (ih h).2 w hw with hkept | hrest
      · exact hread hkept
      · exact .inr (List.mem_cons_of_mem t hrest)

/-- The path of a declared type has a last part, and all its parts are words. -/
theorem isWord_of_declaredPath {text : List Char} {path : List (List Char)}
    (h : declaredPath (tokens text) = some path) :
    ∃ modules word, path = modules ++ [word] ∧ ∀ w ∈ path, IsWord w := by
  obtain ⟨hne, hwords⟩ := words_of_declaredPathFrom h
  refine ⟨path.dropLast, path.getLast hne, (List.dropLast_concat_getLast hne).symm, fun w hw => ?_⟩
  exact (hwords w hw).elim (fun hnone => absurd hnone List.not_mem_nil) isWord_of_mem_tokens

end UnitLoader.Outline
