import UnitLoader.Proofs.Syntax.Layout

/-!
# What a lexeme is read from

The lexer tells by the first characters of a text what stands there. Each theorem takes one of its
decisions back: from what was read to what stands in the text.
-/

namespace UnitLoader.Syntax

open UnitLoader.Text

variable {text rest : List Char} {l : Lexeme} {name : Name} {n : Nat}

/-! ## Comments -/

/-- Nothing but a blank or a comment, of whatever kind. -/
def Lexeme.IsComment : Lexeme → Prop
  | .gap | .documentation _ _ => True
  | _ => False

theorem isComment_of_documentationOf? {inner : Bool} {length : Nat}
    (h : documentationOf? inner text length = some (l, n)) : l.IsComment := by
  unfold documentationOf? at h
  split at h
  · cases h
    trivial
  · contradiction

theorem isComment_of_lineComment? (h : lineComment? rest = some (l, n)) : l.IsComment := by
  unfold lineComment? at h
  dsimp only at h
  split at h
  case h_1 | h_3 => exact isComment_of_documentationOf? h
  all_goals
    cases h
    trivial

theorem isComment_of_blockComment? (h : blockComment? rest = some (l, n)) : l.IsComment := by
  unfold blockComment? at h
  split at h
  · contradiction
  dsimp only at h
  split at h
  case h_1 | h_4 => exact isComment_of_documentationOf? h
  all_goals
    cases h
    trivial

/-! ## Words and apostrophes -/

/-- A word starts like a name. Behind its mark a raw one does too, and it is none of the words that
cannot be raw; any other goes as far as a name does. -/
theorem word?_eq_some (h : word? text = some (name, n)) :
    (name.raw = true ∧ isReservedRaw name.text = false ∧
      ∃ c rest, text = 'r' :: '#' :: c :: rest ∧ isNameStart c = true) ∨
    (name.raw = false ∧ n = nameLength text ∧
      ∃ c rest, text = c :: rest ∧ isNameStart c = true) := by
  -- A name that is found is not empty, so it starts with a character that may start one.
  have hname {text : List Char} {raw : Bool} (h : nameAt? text raw = some name) :
      name.raw = raw ∧ ∃ c rest, text = c :: rest ∧ isNameStart c = true := by
    unfold nameAt? at h
    split at h
    · contradiction
    · rename_i hne
      obtain rfl := Option.some.inj h
      refine ⟨rfl, ?_⟩
      cases text with
      | nil => exact absurd rfl hne
      | cons c rest =>
        refine ⟨c, rest, rfl, ?_⟩
        rw [nameLength] at hne
        split at hne
        · assumption
        · exact absurd rfl hne
  unfold word? at h
  -- A text with the mark of a raw word in front is no other word.
  split at h
  · split at h
    · contradiction
    · rename_i found hfound
      split at h
      · contradiction
      · rename_i hreserved
        cases h
        obtain ⟨hraw, c, rest, rfl, hc⟩ := hname hfound
        exact .inl ⟨hraw, Bool.eq_false_iff.2 hreserved, c, rest, rfl, hc⟩
  · obtain ⟨found, hfound, heq⟩ := Option.map_eq_some_iff.1 h
    cases heq
    obtain ⟨hraw, c, rest, htext, hc⟩ := hname hfound
    exact .inr ⟨hraw, rfl, c, rest, htext, hc⟩

/-- Behind an apostrophe stands a word, and behind that neither an apostrophe nor, unless the word
is raw, a hash sign. -/
theorem apostrophe?_eq_some (h : apostrophe? rest = some (l, n)) :
    l = .token (.mark '\'' true) ∧ n = 1 ∧ ∃ name m, word? rest = some (name, m) ∧
      (rest.drop m).head? ≠ some '\'' ∧ ((rest.drop m).head? = some '#' → name.raw = true) := by
  unfold apostrophe? at h
  split at h
  · contradiction
  · rename_i name m hword
    split at h
    · contradiction
    · rename_i hdrop
      split at h
      · rename_i hraw
        cases h
        exact ⟨rfl, rfl, name, m, hword, by rw [hdrop]; simp, fun _ => hraw⟩
      · contradiction
    · -- Neither of the two marks stands there.
      rename_i hquote hhash
      cases h
      refine ⟨rfl, rfl, name, m, hword, fun hhead => ?_, fun hhead => ?_⟩
      · obtain ⟨others, hdrop⟩ := List.head?_eq_some_iff.1 hhead
        exact hquote others hdrop
      · obtain ⟨others, hdrop⟩ := List.head?_eq_some_iff.1 hhead
        exact absurd hdrop (hhash others)

/-! ## Leaves and lexemes -/

/-- How a leaf is read. -/
inductive LeafAt : List Char → Lexeme → Nat → Prop
  | literal {text : List Char} {n : Nat} : literalLength? text = some n →
    LeafAt text (.token (.literal (String.ofList (text.take n)))) n
  | apostrophe {rest : List Char} {l : Lexeme} {n : Nat} : apostrophe? rest = some (l, n) →
    LeafAt ('\'' :: rest) l n
  | mark {c : Char} {rest : List Char} : c ≠ '\'' → startsMark (c :: rest) = true →
    LeafAt (c :: rest) (.token (.mark c (startsMark rest))) 1
  | word {text : List Char} {name : Name} {n : Nat} : word? text = some (name, n) →
    LeafAt text (.token (.word name)) n

theorem leafAt_of_leaf? (h : leaf? text = some (l, n)) : LeafAt text l n := by
  unfold leaf? at h
  split at h
  · rename_i hliteral
    cases h
    exact .literal hliteral
  split at h
  · exact .apostrophe h
  · rename_i c rest hquote _
    split at h
    · rename_i hstarts
      cases h
      exact .mark hquote hstarts
    split at h
    · contradiction
    · obtain ⟨⟨name, m⟩, hword, heq⟩ := Option.map_eq_some_iff.1 h
      cases heq
      exact .word hword
  · contradiction

theorem LeafAt.exists_token (h : LeafAt text l n) : ∃ t, l = .token t := by
  cases h with
  | apostrophe h => exact ⟨_, (apostrophe?_eq_some h).1⟩
  | literal | mark | word => exact ⟨_, rfl⟩

/-- How a lexeme is read. -/
inductive LexemeAt : List Char → Lexeme → Nat → Prop
  | comment {text : List Char} {l : Lexeme} {n : Nat} : l.IsComment → LexemeAt text l n
  | opening (delimiter : Delimiter) (rest : List Char) :
    LexemeAt (delimiter.opening :: rest) (.opening delimiter) 1
  | closing (delimiter : Delimiter) (rest : List Char) :
    LexemeAt (delimiter.closing :: rest) (.closing delimiter) 1
  | failed {text : List Char} {n : Nat} : LexemeAt text (.token (.literal failedExpansion)) n
  | leaf {text : List Char} {l : Lexeme} {n : Nat} : LeafAt text l n → LexemeAt text l n

theorem lexemeAt_of_lexeme? (h : lexeme? text = some (l, n)) : LexemeAt text l n := by
  unfold lexeme? at h
  split at h
  · cases h
    exact .failed
  split at h
  case h_1 => exact .comment (isComment_of_lineComment? h)
  case h_2 => exact .comment (isComment_of_blockComment? h)
  case h_3 => cases h; exact .opening .parenthesis _
  case h_4 => cases h; exact .opening .bracket _
  case h_5 => cases h; exact .opening .brace _
  case h_6 => cases h; exact .closing .parenthesis _
  case h_7 => cases h; exact .closing .bracket _
  case h_8 => cases h; exact .closing .brace _
  case h_9 =>
    -- What is no comment and no delimiter is blank or a leaf.
    split at h
    · cases h
      exact .comment trivial
    · exact .leaf (leafAt_of_leaf? h)
  case h_10 => contradiction

/-- Where a closing brace is read, one stands. -/
theorem eq_brace_of_lexeme? (h : lexeme? text = some (.closing .brace, n)) :
    ∃ behind, text = '\x7d' :: behind := by
  cases lexemeAt_of_lexeme? h with
  | comment h => contradiction
  | closing delimiter rest => exact ⟨rest, rfl⟩
  | leaf h =>
    obtain ⟨t, ht⟩ := h.exists_token
    contradiction

end UnitLoader.Syntax
