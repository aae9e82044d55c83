import UnitLoader.Proofs.Outline.Passage
import UnitLoader.Proofs.Outline.Settled
import UnitLoader.Proofs.Outline.Word

/-!
# Words that are taken for keywords

What a word in a text does to the name of the unit. `resolveName_replace` puts one word in the place
of another, where a lexeme starts. Whether a word is written raw makes no difference, not even for
the keywords, for the outline has it without its `r#`. A word that is no keyword may replace any
other: the name stays the same, apart from that word in it, unless the other one is taken for a
keyword. That happens to `mod` and to the keywords of types wherever the reader expects nothing else
at module level and another word follows (`State.TakesKeyword`).

For the characters it suffices that a written word is one token (`Spells.tokens_append`) and that
what is in front of it is read for itself (`tokens_at_place`). Of the tokens, a word that nothing in
front of it lays claim to is read for itself (`declaredPathFrom_unclaimed`), and a word that is the
name of an open module is carried along until the module is closed (`declaredPathFrom_within`).
-/

namespace UnitLoader

namespace Outline

open UnitLoader.Text

/-! ## How a word is written -/

/-- The letters of literals, which are words only if no literal follows. -/
def literalLetters : List (List Char) := [['b'], ['c'], ['r'], ['b', 'r'], ['c', 'r']]

/-- The ways to write a word: as it is, or raw behind the letter `r` and a hash sign. -/
inductive Spells : (text word : List Char) → Prop
  | plain {c : Char} {rest : List Char} (start : isWordStart c = true)
      (parts : ∀ d ∈ rest, isWordPart d = true) (noLetters : c :: rest ∉ literalLetters) :
      Spells (c :: rest) (c :: rest)
  | raw {word : List Char} (isWord : IsWord word) : Spells ('r' :: '#' :: word) word

/-- A word ends here: there is nothing, or a character that does not belong to one. -/
def EndsWord (text : List Char) : Prop := ∀ c ∈ text.head?, isWordPart c = false

section

variable {text word behind : List Char}

/-- A word in front of what does not belong to it is the longest run of its characters. -/
theorem wordOf_append (hparts : ∀ c ∈ word, isWordPart c = true) (hends : EndsWord behind) :
    wordOf (word ++ behind) = word := by
  rw [wordOf, List.takeWhile_append_of_pos hparts]
  cases behind with
  | nil => rw [List.takeWhile_nil, List.append_nil]
  | cons c rest => rw [List.takeWhile_cons_of_neg (by simp [hends c rfl]), List.append_nil]

/-- The code points of the spaces and of the digits. -/
def spacesAndDigits : List Nat :=
  List.range' 9 5 ++ List.range' 0x2000 11 ++ List.range' 48 10 ++
    [32, 0x85, 0xA0, 0x1680, 0x2028, 0x2029, 0x202F, 0x205F, 0x3000]

/-- None of them starts a word. -/
theorem isWordStart_of_mem {c : Char} (h : c.toNat ∈ spacesAndDigits) : isWordStart c = false := by
  have hall : ∀ n ∈ spacesAndDigits, isWordStart (Char.ofNat n) = false := by decide +kernel
  rw [← Char.ofNat_toNat c]
  exact hall _ h

theorem isWhitespace_of_isWordStart {c : Char} (h : isWordStart c = true) :
    Charset.isWhitespace c = false := by
  refine Bool.eq_false_iff.2 fun hspace => ?_
  have hmem : c.toNat ∈ spacesAndDigits := by
    simp only [Charset.isWhitespace, Bool.or_eq_true, Bool.and_eq_true, decide_eq_true_eq,
      beq_iff_eq] at hspace
    simp only [spacesAndDigits, List.mem_append, List.mem_range'_1, List.mem_cons,
      List.not_mem_nil, or_false]
    omega
  exact absurd (h.symm.trans (isWordStart_of_mem hmem)) (by decide)

theorem isAsciiDigit_of_isWordStart {c : Char} (h : isWordStart c = true) :
    Charset.isAsciiDigit c = false := by
  refine Bool.eq_false_iff.2 fun hdigit => ?_
  have hmem : c.toNat ∈ spacesAndDigits := by
    simp only [Charset.isAsciiDigit, Bool.and_eq_true, decide_eq_true_eq] at hdigit
    have hge : 48 ≤ c.toNat := hdigit.1
    have hle : c.toNat ≤ 57 := hdigit.2
    simp only [spacesAndDigits, List.mem_append, List.mem_range'_1]
    omega
  exact absurd (h.symm.trans (isWordStart_of_mem hmem)) (by decide)

/-- A character that starts a word starts the lexeme of a word. -/
theorem lexeme_of_isWordStart {c : Char} (h : isWordStart c = true) (rest : List Char) :
    lexeme (c :: rest) =
      wordLexeme (wordOf (c :: rest)) ((c :: rest).drop (wordOf (c :: rest)).length) := by
  have hother {d : Char} (hd : isWordStart d = false) : c ≠ d := by
    rintro rfl
    exact absurd (h.symm.trans hd) (by decide)
  have hslash : c ≠ '/' := hother (by decide)
  rw [lexeme_of_other (fun _ hc _ => hslash hc) (fun _ hc _ => hslash hc)
    (hother (by decide)) (hother (by decide)) (hother (by decide)) (hother (by decide)),
    if_neg (by simp [isWhitespace_of_isWordStart h]),
    if_neg (by simp [isAsciiDigit_of_isWordStart h]), if_pos h]

theorem lexeme_plain {c : Char} {rest : List Char} (hstart : isWordStart c = true)
    (hparts : ∀ d ∈ rest, isWordPart d = true) (hletters : c :: rest ∉ literalLetters)
    (hends : EndsWord behind) :
    lexeme (c :: rest ++ behind) = (some (.word (c :: rest)), (c :: rest).length) := by
  have hall : ∀ d ∈ c :: rest, isWordPart d = true :=
    List.forall_mem_cons.2 ⟨isWordPart_of_isWordStart hstart, hparts⟩
  have hword : wordOf (c :: (rest ++ behind)) = c :: rest := wordOf_append hall hends
  simp only [literalLetters, List.mem_cons, List.not_mem_nil, or_false, not_or] at hletters
  obtain ⟨hb, hc, hr, hbr, hcr⟩ := hletters
  have hpair : (c :: rest == ['b', 'r'] || c :: rest == ['c', 'r']) = false := by
    rw [beq_eq_false_iff_ne.2 hbr, beq_eq_false_iff_ne.2 hcr]
    rfl
  rw [List.cons_append, lexeme_of_isWordStart hstart, hword, ← List.cons_append, List.drop_left]
  cases behind with
  | nil => exact wordLexeme.eq_8 _ hr
  | cons next behind =>
    rw [wordLexeme_of_next (fun h => absurd h hb) (fun h => absurd h hb) (fun h => absurd h hc) hr,
      hpair, Bool.false_and, if_neg Bool.false_ne_true]

theorem lexeme_rawWord (hword : IsWord word) (hends : EndsWord behind) :
    lexeme ('r' :: '#' :: word ++ behind) = (some (.word word), ('r' :: '#' :: word).length) := by
  -- The first character of the word is neither a further hash sign nor a quote.
  have hhash : rawLength? ['#'] = none := by decide
  have hraw : rawLength? ('#' :: (word ++ behind)) = none := by
    refine rawLength?_append_of_none hhash fun d hd => ?_
    have hpart : isWordPart d = true := by
      obtain ⟨e, inner, hinner⟩ := List.exists_cons_of_ne_nil hword.ne_nil
      rw [hinner] at hd
      exact hword.parts d (by rw [hinner, ← Option.some.inj hd]; exact List.mem_cons_self)
    constructor
    all_goals
      rintro rfl
      exact absurd hpart (by decide)
  have hletter : lexeme (['r'] ++ '#' :: (word ++ behind)) =
      wordLexeme ['r'] ('#' :: (word ++ behind)) := lexeme_letters (by decide) (by decide) _
  have hempty : word.isEmpty = false := List.isEmpty_eq_false_iff.2 hword.ne_nil
  refine hletter.trans ?_
  rw [wordLexeme.eq_5 _ hraw, wordOf_append hword.parts hends, hempty, Nat.add_comm]
  rfl

/-- However it is written, a word is one token of the outline. -/
theorem Spells.tokens_append (h : Spells text word) (hends : EndsWord behind) :
    tokens (text ++ behind) = .word word :: tokens behind := by
  cases h with
  | plain start parts noLetters =>
    exact tokens_append_of_lexeme (lexeme_plain start parts noLetters hends)
  | raw isWord => exact tokens_append_of_lexeme (lexeme_rawWord isWord hends)

/-- A written word starts with the character of a word. -/
theorem Spells.eq_cons (h : Spells text word) :
    ∃ c rest, text = c :: rest ∧ isWordStart c = true := by
  cases h with
  | @plain c rest start parts noLetters => exact ⟨c, rest, rfl, start⟩
  | @raw word isWord => exact ⟨'r', '#' :: word, rfl, by decide⟩

end

/-! ## What the reader expects -/

/-- What becomes of an expectation that a token belongs to does not depend on what is open, unless
the token opens a module or names a type. -/
theorem step_of_claims {e : Expectation} {t : Token} (h : e.claims t = true) :
    (∃ e' : Expectation, ∀ s : State,
        State.step { s with expectation := e } t = .inr { s with expectation := e' }) ∨
      (∃ name, e = .moduleBody name ∧ t = .openBrace) ∨
      ∃ name, e = .typeName ∧ t = .word name := by
  cases e with
  | any => contradiction
  | «attribute» =>
    -- Behind a hash sign stands an exclamation mark or a bracket.
    obtain hmark | hmark := (Bool.or_eq_true _ _).mp h
    · obtain rfl := eq_of_beq hmark
      exact .inl ⟨.attributeBracket, fun _ => rfl⟩
    · obtain rfl := eq_of_beq hmark
      exact .inl ⟨.insideAttribute 0, fun _ => rfl⟩
  | attributeBracket =>
    obtain rfl := eq_of_beq h
    exact .inl ⟨.insideAttribute 0, fun _ => rfl⟩
  | insideAttribute depth =>
    -- Inside of brackets only brackets are counted.
    by_cases hopen : t = .mark '['
    · subst hopen
      exact .inl ⟨.insideAttribute (depth + 1), fun _ => rfl⟩
    · by_cases hclose : t = .mark ']'
      · subst hclose
        cases depth with
        | zero => exact .inl ⟨.any, fun _ => rfl⟩
        | succ depth => exact .inl ⟨.insideAttribute depth, fun _ => rfl⟩
      · refine .inl ⟨.insideAttribute depth, fun s => ?_⟩
        exact State.step.eq_7 _ t depth rfl hopen (fun h _ => hclose h) fun _ h _ => hclose h
  | moduleName =>
    cases t with
    | word name => exact .inl ⟨.moduleBody name, fun _ => rfl⟩
    | _ => contradiction
  | moduleBody name =>
    -- What opens a module, and what names a type, is left to the other two cases.
    cases t with
    | openBrace => exact .inr (.inl ⟨name, rfl, rfl⟩)
    | _ => contradiction
  | typeName =>
    cases t with
    | word name => exact .inr (.inr ⟨name, rfl, rfl⟩)
    | _ => contradiction

/-! ## A module of any name -/

section

variable (outer : List (List Char × Nat)) (d : Nat)

/-- A state in which one of the open modules may have any name. -/
def State.within (depth : Nat) (inner : List (List Char × Nat)) (e : Expectation)
    (name : List Char) : State :=
  ⟨depth, outer ++ (name, d) :: inner, e⟩

/-- A closing brace closes the innermost module if the brace is that of its body. -/
theorem read_closeBrace (depth : Nat) (modules : List (List Char × Nat)) (m : List Char × Nat)
    (e : Expectation) :
    State.read ⟨depth, modules ++ [m], e⟩ .closeBrace =
      ⟨depth - 1, if m.2 = depth then modules else modules ++ [m], .any⟩ := by
  simp [State.read]

/-- A token that is read for itself leaves the module open or closes it, whatever its name is. -/
theorem read_within (depth : Nat) (inner : List (List Char × Nat)) (e : Expectation) (t : Token) :
    (∃ depth' inner' e', ∀ name, (State.within outer d depth inner e name).read t =
        State.within outer d depth' inner' e' name) ∨
      ∃ next, ∀ name, (State.within outer d depth inner e name).read t = next := by
  cases t with
  -- A brace is opened at whatever level it stands.
  | openBrace => exact .inl ⟨depth + 1, inner, .any, fun _ => rfl⟩
  | closeBrace =>
    obtain rfl | ⟨inner, m, rfl⟩ := inner.eq_nil_or_concat
    · -- The module is the innermost one.
      have hread (name : List Char) := read_closeBrace depth outer (name, d) e
      by_cases hd : d = depth
      · exact .inr ⟨_, fun name => (hread name).trans (by rw [if_pos hd])⟩
      · exact .inl ⟨depth - 1, [], .any, fun name => (hread name).trans (by rw [if_neg hd]; rfl)⟩
    · have hmodules (name : List Char) :
          State.within outer d depth (inner.concat m) e name =
            ⟨depth, outer ++ (name, d) :: inner ++ [m], e⟩ := by
        simp [State.within]
      by_cases hm : m.2 = depth
      · -- The brace closes the last module inside of this one.
        refine .inl ⟨depth - 1, inner, .any, fun name => ?_⟩
        rw [hmodules, read_closeBrace, if_pos hm]
        rfl
      · refine .inl ⟨depth - 1, inner.concat m, .any, fun name => ?_⟩
        rw [hmodules, read_closeBrace, if_neg hm]
        simp [State.within]
  | mark c =>
    -- What a mark raises does not depend on the modules.
    by_cases hc : c = '#'
    · subst hc
      exact .inl ⟨depth, inner, .attribute, fun _ => rfl⟩
    · exact .inl ⟨depth, inner, .any, fun name => State.read.eq_2 _ c hc⟩
  | word w =>
    -- The level is told by the number of open modules, so that the empty name stands for any.
    refine .inl ⟨depth, inner, ((State.within outer d depth inner e []).read (.word w)).expectation,
      fun name => ?_⟩
    have hlevel : (State.within outer d depth inner e name).atModuleLevel =
        (State.within outer d depth inner e []).atModuleLevel := by
      simp [State.atModuleLevel, State.within]
    rw [State.read, State.read, hlevel]
    split
    · rfl
    · split <;> rfl

/-- So does every token, unless it names a type in the module. -/
theorem step_within (depth : Nat) (inner : List (List Char × Nat)) (e : Expectation) (t : Token) :
    (∃ tail, ∀ name, (State.within outer d depth inner e name).step t =
        .inl (outer.map Prod.fst ++ name :: tail)) ∨
      (∃ depth' inner' e', ∀ name, (State.within outer d depth inner e name).step t =
        .inr (State.within outer d depth' inner' e' name)) ∨
      ∃ next, ∀ name, (State.within outer d depth inner e name).step t = .inr next := by
  by_cases hclaims : e.claims t = true
  · -- What is claimed is gone on with, opens a module inside, or names a type inside.
    obtain ⟨e', hstep⟩ | ⟨inside, rfl, rfl⟩ | ⟨type, rfl, rfl⟩ := step_of_claims hclaims
    · refine .inr (.inl ⟨depth, inner, e', fun name => ?_⟩)
      exact hstep (State.within outer d depth inner e name)
    · refine .inr (.inl ⟨depth + 1, inner ++ [(inside, depth + 1)], .any, fun name => ?_⟩)
      simp [State.within, State.step]
    · refine .inl ⟨inner.map Prod.fst ++ [type], fun name => ?_⟩
      simp [State.within, State.step]
  · have hstep (name : List Char) : (State.within outer d depth inner e name).step t =
        .inr ((State.within outer d depth inner e name).read t) :=
      step_of_not_claims (Bool.eq_false_iff.2 hclaims) (State.within outer d depth inner e name)
    obtain ⟨depth', inner', e', hread⟩ | ⟨next, hread⟩ := read_within outer d depth inner e t
    · exact .inr (.inl ⟨depth', inner', e', fun name => by rw [hstep, hread]⟩)
    · exact .inr (.inr ⟨next, fun name => by rw [hstep, hread]⟩)

/-- The name of an open module is a part of the declared path, or it makes no difference. -/
theorem declaredPathFrom_within (outline : List Token) (depth : Nat)
    (inner : List (List Char × Nat)) (e : Expectation) :
    (∃ tail, ∀ name, declaredPathFrom (State.within outer d depth inner e name) outline =
        some (outer.map Prod.fst ++ name :: tail)) ∨
      ∃ result, ∀ name, declaredPathFrom (State.within outer d depth inner e name) outline =
        result := by
  induction outline generalizing depth inner e with
  | nil => exact .inr ⟨none, fun _ => rfl⟩
  | cons t rest ih =>
    obtain ⟨tail, hstep⟩ | ⟨depth', inner', e', hstep⟩ | ⟨next, hstep⟩ :=
      step_within outer d depth inner e t
    · exact .inl ⟨tail, fun name => by rw [declaredPathFrom, hstep]⟩
    · simp only [declaredPathFrom, hstep]
      exact ih depth' inner' e'
    · exact .inr ⟨declaredPathFrom next rest, fun name => by rw [declaredPathFrom, hstep]⟩

end

/-! ## One word for another -/

/-- The words that begin a declaration. -/
def isKeyword (word : List Char) : Bool := word == "mod".toList || declaresType word

/-- The next word is the name of a module or of a type. -/
def Expectation.wantsName : Expectation → Bool
  | .moduleName | .typeName => true
  | _ => false

/-- A word is taken for a keyword. -/
structure State.TakesKeyword (s : State) (word : List Char) (rest : List Token) : Prop where
  /-- It is one of those. -/
  isKeyword : isKeyword word = true
  /-- It is not a part of an attribute, nor a name. -/
  unclaimed : s.expectation.claims (.word word) = false
  /-- No brace but those of inline modules is open. -/
  level : s.atModuleLevel = true
  /-- A word follows, which is taken for the name. -/
  followed : ∃ name behind, rest = .word name :: behind

section

variable {s : State} {w x : List Char} {rest : List Token}

/-- All words are the same to what is expected. -/
theorem claims_word (e : Expectation) (w x : List Char) :
    e.claims (.word w) = e.claims (.word x) := by
  cases e <;> rfl

theorem read_word_of_not (hw : (s.atModuleLevel && isKeyword w) = false) :
    s.read (.word w) = { s with expectation := .any } := by
  rw [isKeyword, Bool.and_or_distrib_left, Bool.or_eq_false_iff] at hw
  rw [State.read, hw.1, hw.2]
  rfl

/-- A keyword that no word follows makes no difference. -/
theorem declaredPathFrom_read_word (hrest : ∀ name behind, rest ≠ .word name :: behind) :
    declaredPathFrom (s.read (.word w)) rest =
      declaredPathFrom { s with expectation := .any } rest := by
  have hname {e : Expectation} (he : e.wantsName = true) :
      declaredPathFrom { s with expectation := e } rest =
        declaredPathFrom { s with expectation := .any } rest := by
    refine declaredPathFrom_expect (fun t ht => ?_) s
    obtain ⟨behind, rfl⟩ := List.head?_eq_some_iff.1 ht
    cases t with
    | word name => exact absurd rfl (hrest name behind)
    | _ => cases e <;> first | rfl | contradiction
  rw [State.read]
  split
  · exact hname rfl
  · split
    · exact hname rfl
    · rfl

/-- A word that is read for itself makes no difference, unless it is taken for a keyword. -/
theorem declaredPathFrom_unclaimed (hclaims : s.expectation.claims (.word w) = false)
    (htaken : ¬ s.TakesKeyword w rest) :
    declaredPathFrom s (.word w :: rest) =
      declaredPathFrom { s with expectation := .any } rest := by
  have hstep : s.step (.word w) = .inr (s.read (.word w)) := step_of_not_claims hclaims s
  rw [declaredPathFrom, hstep]
  dsimp only
  by_cases hfollowed : ∃ name behind, rest = .word name :: behind
  · have hnot : (s.atModuleLevel && isKeyword w) = false := by
      rw [Bool.and_eq_false_iff, ← Bool.not_eq_true, ← Bool.not_eq_true, ← not_and_or]
      exact fun h => htaken ⟨h.2, hclaims, h.1, hfollowed⟩
    rw [read_word_of_not hnot]
  · exact declaredPathFrom_read_word fun name behind h => hfollowed ⟨name, behind, h⟩

/-- Behind `mod` the word is the name of a module, if a brace follows. -/
theorem declaredPathFrom_moduleName (depth : Nat) (modules : List (List Char × Nat))
    (rest : List Token) :
    (∃ result, ∀ name,
        declaredPathFrom ⟨depth, modules, .moduleName⟩ (.word name :: rest) = result) ∨
      ∃ tail, ∀ name, declaredPathFrom ⟨depth, modules, .moduleName⟩ (.word name :: rest) =
        some (modules.map Prod.fst ++ name :: tail) := by
  by_cases hbrace : ∃ inside, rest = .openBrace :: inside
  · obtain ⟨inside, rfl⟩ := hbrace
    exact (declaredPathFrom_within modules (depth + 1) inside (depth + 1) [] .any).symm
  · refine .inl ⟨declaredPathFrom ⟨depth, modules, .any⟩ rest, fun name => ?_⟩
    have hbody : ∀ t ∈ rest.head?, (Expectation.moduleBody name).claims t = false := by
      intro t ht
      obtain ⟨behind, rfl⟩ := List.head?_eq_some_iff.1 ht
      cases t with
      | openBrace => exact absurd ⟨behind, rfl⟩ hbrace
      | _ => rfl
    exact declaredPathFrom_expect hbody ⟨depth, modules, .any⟩

/-- Another word in its place makes no difference to what is declared, unless the word is taken for
a keyword or becomes a part of the path. -/
theorem declaredPathFrom_word (hx : isKeyword x = false) (htaken : ¬ s.TakesKeyword w rest) :
    declaredPathFrom s (.word x :: rest) = declaredPathFrom s (.word w :: rest) ∨
      s.expectation.wantsName = true ∧ ∃ tail,
        declaredPathFrom s (.word w :: rest) = some (s.modules.map Prod.fst ++ w :: tail) ∧
        declaredPathFrom s (.word x :: rest) = some (s.modules.map Prod.fst ++ x :: tail) := by
  cases hclaims : s.expectation.claims (.word w) with
  | false =>
    -- Neither of the two words is taken for a keyword, and so nothing becomes of either.
    have hother : ¬ s.TakesKeyword x rest := fun h => absurd (hx.symm.trans h.isKeyword) (by decide)
    left
    rw [declaredPathFrom_unclaimed hclaims htaken,
      declaredPathFrom_unclaimed ((claims_word _ x w).trans hclaims) hother]
  | true =>
    obtain ⟨depth, modules, e⟩ := s
    cases e with
    | insideAttribute further =>
      have hstep (name : List Char) :
          State.step ⟨depth, modules, .insideAttribute further⟩ (.word name) =
            .inr ⟨depth, modules, .insideAttribute further⟩ := by
        cases further <;> rfl
      left
      rw [declaredPathFrom, declaredPathFrom, hstep, hstep]
    | moduleName =>
      obtain ⟨result, hname⟩ | ⟨tail, hname⟩ := declaredPathFrom_moduleName depth modules rest
      · exact .inl ((hname x).trans (hname w).symm)
      · exact .inr ⟨rfl, tail, hname w, hname x⟩
    | typeName => exact .inr ⟨rfl, [], rfl, rfl⟩
    | _ => contradiction

/-- A word that is taken for the keyword of a type makes the word behind it the name. -/
theorem declaredPathFrom_taken {name : List Char} {behind : List Token}
    (htaken : s.TakesKeyword w (.word name :: behind)) (htype : declaresType w = true) :
    declaredPathFrom s (.word w :: .word name :: behind) =
      some (s.modules.map Prod.fst ++ [name]) := by
  have hmodule : (w == "mod".toList) = false := by
    refine beq_eq_false_iff_ne.2 ?_
    rintro rfl
    exact absurd htype (by decide)
  have hstep : s.step (.word w) = .inr { s with expectation := .typeName } := by
    refine (step_of_not_claims htaken.unclaimed s).trans ?_
    rw [State.read, htaken.level, hmodule, htype]
    rfl
  rw [declaredPathFrom, hstep]
  rfl

/-- Behind some tokens an outline is read from the state that they lead to, unless they declare a
type. -/
theorem declaredPathFrom_append_run (s : State) (front rest : List Token) :
    declaredPathFrom s (front ++ rest) =
      match s.run front with
      | .inl path => some path
      | .inr next => declaredPathFrom next rest := by
  induction front generalizing s with
  | nil => rfl
  | cons t front ih =>
    rw [List.cons_append, declaredPathFrom, State.run]
    cases s.step t with
    | inl path => rfl
    | inr next => exact ih next

end

/-- The outline of a text with a word in some place. -/
theorem tokens_at_place {before written w behind : List Char}
    (hplace : Reached before (written ++ behind)) (hwritten : Spells written w)
    (hends : EndsWord behind) :
    tokens (before ++ (written ++ behind)) = tokens before ++ .word w :: tokens behind := by
  obtain ⟨c, rest, rfl, hc⟩ := hwritten.eq_cons
  have hstart : StartsWord (c :: (rest ++ behind)) := startsWord_cons hc
  have hfront := (hplace.tokens_append hc hstart).2
  exact hfront.trans (congrArg _ (hwritten.tokens_append hends))

/-- A place is also reached with another word in it. -/
theorem Spells.reached {before written w other x behind : List Char} (hwritten : Spells written w)
    (hother : Spells other x) (hplace : Reached before (written ++ behind)) :
    Reached before (other ++ behind) := by
  obtain ⟨c, rest, rfl, hc⟩ := hwritten.eq_cons
  obtain ⟨d, rest', rfl, hd⟩ := hother.eq_cons
  exact (hplace.tokens_append hc (startsWord_cons hd)).1

end Outline

open Outline

/-- **What is taken for a keyword.** Where a word is read, it makes no difference whether it is
written raw or as it is. Another word that begins no declaration may stand in its place: the name
stays the same unless the word is a part of it, provided that the word is not taken for a keyword.
Where it is, a keyword of a type makes the word behind it the name. -/
theorem resolveName_replace {before written w other x behind : List Char}
    (hplace : Reached before (written ++ behind)) (hends : EndsWord behind)
    (hwritten : Spells written w) (hother : Spells other x) :
    (x = w →
        resolveName (String.ofList (before ++ (other ++ behind))) =
          resolveName (String.ofList (before ++ (written ++ behind)))) ∧
      (isKeyword x = false →
        (∀ s, State.initial.run (tokens before) = .inr s →
          ¬ s.TakesKeyword w (tokens behind)) →
        resolveName (String.ofList (before ++ (other ++ behind))) =
            resolveName (String.ofList (before ++ (written ++ behind))) ∨
          ∃ s tail, State.initial.run (tokens before) = .inr s ∧
            s.expectation.wantsName = true ∧
            resolveName (String.ofList (before ++ (written ++ behind))) = .ok (String.ofList
              (Text.join pathSeparator (s.modules.map Prod.fst ++ w :: tail))) ∧
            resolveName (String.ofList (before ++ (other ++ behind))) = .ok (String.ofList
              (Text.join pathSeparator (s.modules.map Prod.fst ++ x :: tail)))) ∧
      ∀ s name rest, State.initial.run (tokens before) = .inr s →
        tokens behind = .word name :: rest → s.TakesKeyword w (tokens behind) →
        declaresType w = true →
        resolveName (String.ofList (before ++ (written ++ behind))) = .ok (String.ofList
          (Text.join pathSeparator (s.modules.map Prod.fst ++ [name]))) := by
  have hread := tokens_at_place hplace hwritten hends
  have hread' := tokens_at_place (hwritten.reached hother hplace) hother hends
  simp only [resolveName, String.toList_ofList, hread, hread', declaredPath,
    declaredPathFrom_append_run]
  -- All three are about what the words make of one state, the one in front of the place.
  refine ⟨?_, ?_, ?_⟩
  · -- The same word, spelled in another way, is the same token.
    rintro rfl
    rfl
  · -- A word that is not taken as a keyword is the name of something, or it is passed over.
    intro hx htaken
    cases hrun : State.initial.run (tokens before) with
    | inl path => exact .inl rfl
    | inr s =>
      dsimp only
      obtain hsame | ⟨hname, tail, hw, hx⟩ := declaredPathFrom_word hx (htaken s hrun)
      · exact .inl (by rw [hsame])
      · exact .inr ⟨s, tail, rfl, hname, by rw [hw], by rw [hx]⟩
  · -- A keyword of a type declares the word behind it.
    intro s name rest hrun hbehind htaken htype
    rw [hbehind] at htaken
    rw [hrun, hbehind]
    dsimp only
    rw [declaredPathFrom_taken htaken htype]

/-- Behind `use geo::` nothing is expected, and a word may stand there. -/
theorem reached_usePath {behind : List Char} (h : StartsWord behind) :
    Reached "use geo::".toList behind ∧
      State.initial.run (tokens "use geo::".toList) = .inr ⟨0, [], .any⟩ := by
  have hpath : Reached "use geo::".toList ['x'] := by
    have hpieces : "use geo::".toList =
        "use".toList ++ ([' '] ++ ("geo".toList ++ ([':'] ++ ([':'] ++ [])))) := by decide
    rw [hpieces]
    exact .next (by decide +kernel) <| .next (by decide +kernel) <| .next (by decide +kernel) <|
      .next (by decide +kernel) <| .next (by decide +kernel) <| .start ['x']
  exact ⟨(hpath.tokens_append (by decide) h).1, by decide +kernel⟩

/-- The word `union` at the end of a path, which is the name of nothing that is declared, may be any
other. -/
theorem resolveName_replace_pathEnd :
    Reached "use geo::".toList ("union".toList ++ "; pub struct A;".toList) ∧
      EndsWord "; pub struct A;".toList ∧ Spells "union".toList "union".toList ∧
      Spells "x1".toList "x1".toList ∧ isKeyword "x1".toList = false ∧
      (∀ s, State.initial.run (tokens "use geo::".toList) = .inr s →
        ¬ s.TakesKeyword "union".toList (tokens "; pub struct A;".toList)) ∧
      resolveName (String.ofList
          ("use geo::".toList ++ ("x1".toList ++ "; pub struct A;".toList))) =
        resolveName (String.ofList
          ("use geo::".toList ++ ("union".toList ++ "; pub struct A;".toList))) := by
  have hstart : StartsWord ("union".toList ++ "; pub struct A;".toList) :=
    startsWord_cons (by decide)
  obtain ⟨hplace, hstate⟩ := reached_usePath hstart
  have hends : EndsWord "; pub struct A;".toList := by
    rintro c hc
    obtain rfl := Option.some.inj hc
    decide
  have hunion : Spells "union".toList "union".toList :=
    .plain (by decide) (List.all_eq_true.1 rfl) (by decide)
  have hother : Spells "x1".toList "x1".toList :=
    .plain (by decide) (List.all_eq_true.1 rfl) (by decide)
  -- A mark follows, and a keyword of a type is taken for one only in front of a name.
  have htaken : ∀ s, State.initial.run (tokens "use geo::".toList) = .inr s →
      ¬ s.TakesKeyword "union".toList (tokens "; pub struct A;".toList) := by
    rintro s - ⟨-, -, -, name, behind, hfollowed⟩
    have hbehind : (tokens "; pub struct A;".toList).head? = some (.mark ';') := by decide +kernel
    rw [hfollowed] at hbehind
    exact absurd (Option.some.inj hbehind) (by simp)
  refine ⟨hplace, hends, hunion, hother, by decide, htaken, ?_⟩
  obtain hsame | ⟨s, tail, hrun, hwants, -⟩ :=
    (resolveName_replace hplace hends hunion hother).2.1 (by decide) htaken
  · exact hsame
  · -- Nothing is expected there, and so no name.
    obtain rfl := Sum.inr.inj (hstate.symm.trans hrun)
    contradiction

/-- With another word behind it, `union` is taken for a keyword at the end of a path, and so is a
raw identifier. -/
theorem resolveName_pathEnd_as :
    Reached "use geo::".toList "union as merge; pub struct A;".toList ∧
      State.initial.run (tokens "use geo::".toList) = .inr ⟨0, [], .any⟩ ∧
      resolveName "use geo::x1 as merge; pub struct A;" = .ok "A" ∧
      resolveName "use geo::union as merge; pub struct A;" = .ok "as" ∧
      resolveName "use geo::r#struct as merge; pub struct A;" = .ok "as" := by
  have hstart : StartsWord "union as merge; pub struct A;".toList := startsWord_cons (by decide)
  obtain ⟨hplace, hstate⟩ := reached_usePath hstart
  exact ⟨hplace, hstate, by decide +kernel, by decide +kernel, by decide +kernel⟩

end UnitLoader
