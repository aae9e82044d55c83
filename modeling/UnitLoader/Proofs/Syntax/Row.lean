import UnitLoader.Proofs.Syntax.Groups
import UnitLoader.Proofs.Syntax.ReadBack
import UnitLoader.Proofs.Syntax.Whole

/-!
# What is read is whole

The lexer takes a joint mark or an apostrophe only where something goes on behind it. So the trees
of a text are whole (`whole_of_tokenTrees?`).

This is shown of the pieces in a row, with a space behind each that is no joint mark
(`spreadAll`). The lexemes of a text make a `Row` (`row_lexemesFrom?`), the trees that are put
together of them make the same one (`Forest.spread_addAll`), and trees that make a row are whole
(`Row.whole`): what an apostrophe or a joint slash is followed by is no delimiter, so it stands in
the same group.
-/

namespace UnitLoader.Syntax

open UnitLoader.Text

/-! ## Rows of pieces -/

/-- The piece may stand so in front of the next one in a row. -/
def Piece.StandsInRow (p : Piece) (isGap : Bool) (next : Option Piece) : Prop :=
  match p with
  | .mark '\'' => isGap = false ∧ ∃ q ∈ next, q.FollowsApostrophe
  | .mark '/' =>
    isGap = true ∨ ∃ t : Token, t.piece ∈ next ∧ t.piece ≠ .mark '/' ∧ t.piece ≠ .mark '*'
  | _ => True

/-- Other marks may stand in front of anything. -/
theorem standsInRow_mark {c : Char} {isGap : Bool} {next : Option Piece} (hquote : c ≠ '\'')
    (hslash : c ≠ '/' ∨ isGap = true) : (Piece.mark c).StandsInRow isGap next := by
  unfold Piece.StandsInRow
  split
  · exact absurd (Piece.mark.inj ‹_›) hquote
  · rename_i h
    exact .inl (hslash.resolve_left fun hne => hne (Piece.mark.inj h))
  · trivial

/-- Pieces that were read one after the other. -/
inductive Row : Layout → Prop
  | nil : Row []
  | cons {p : Piece} {isGap : Bool} {rest : Layout} : p.Good → p.StandsInRow isGap rest.first? →
    Row rest → Row ((p, isGap) :: rest)

mutual

/-- The pieces of a tree with a space behind each that is no joint mark. -/
def TokenTree.spread : TokenTree → Layout
  | .token t => [(t.piece, !(TokenTree.token t).isJoint)]
  | .group delimiter content _ =>
    (.opening delimiter, true) :: spreadAll content ++ [(.closing delimiter, true)]

/-- The pieces of trees with these spaces. -/
def spreadAll : List TokenTree → Layout
  | [] => []
  | t :: rest => t.spread ++ spreadAll rest

end

theorem spreadAll_append (first others : List TokenTree) :
    spreadAll (first ++ others) = spreadAll first ++ spreadAll others := by
  induction first with
  | nil => rfl
  | cons t first ih => rw [List.cons_append, spreadAll, spreadAll, ih, List.append_assoc]

/-! ## From the row to the trees -/

/-- A delimiter that closes a group is no token. -/
theorem Token.piece_ne_closing (t : Token) (d : Delimiter) : t.piece ≠ .closing d := by
  cases t <;> exact Piece.noConfusion

/-- What a token is followed by in a row it is followed by in its group. -/
theorem Token.joins_of_row {t : Token} {ts : List TokenTree} {behind : Layout}
    (h : t.piece.StandsInRow (!(TokenTree.token t).isJoint)
      (Layout.first? (spreadAll ts ++ behind)))
    (hend : ∀ q ∈ behind.first?, ∃ d, q = .closing d) : t.Joins (frontOf ts) := by
  have hnext : ∀ q ∈ Layout.first? (spreadAll ts ++ behind),
      q ∈ frontOf ts ∨ ∃ d, q = .closing d := by
    intro q hq
    cases ts with
    | nil => exact .inr (hend q hq)
    | cons next others => cases next <;> exact .inl hq
  -- What follows an apostrophe or a joint slash is no delimiter, so it is the next tree.
  unfold Token.Joins
  split
  · obtain ⟨hgap, q, hq, hfollows⟩ := h
    refine ⟨Bool.not_eq_eq_eq_not.1 hgap, ?_⟩
    rcases hnext q hq with hmem | ⟨d, rfl⟩
    · exact ⟨q, hmem, hfollows⟩
    · contradiction
  · rcases h with hgap | ⟨u, hu, hne⟩
    · contradiction
    · rcases hnext _ hu with hmem | ⟨d, hd⟩
      · exact ⟨_, hmem, hne⟩
      · exact absurd hd (u.piece_ne_closing d)
  · trivial

/-- Trees that make a row are whole, and what is behind them is a row. What stands behind them
closes the group that they are in, if there is one. -/
theorem Row.whole : (ts : List TokenTree) → {behind : Layout} → Row (spreadAll ts ++ behind) →
    (∀ q ∈ behind.first?, ∃ d, q = .closing d) → Whole ts ∧ Row behind
  | [], _, h, _ => ⟨.nil, h⟩
  | .token t :: ts, behind, h, hend => by
    rw [spreadAll, TokenTree.spread, List.singleton_append, List.cons_append] at h
    cases h with
    | cons hgood hstands hrest =>
      obtain ⟨hwhole, hbehind⟩ := Row.whole ts hrest hend
      exact ⟨.token hgood (Token.joins_of_row hstands hend) hwhole, hbehind⟩
  | .group delimiter content close :: ts, behind, h, hend => by
    rw [spreadAll, TokenTree.spread, List.cons_append, List.cons_append, List.cons_append,
      List.append_assoc, List.append_assoc] at h
    cases h with
    | cons _ _ hinside =>
      -- The delimiter that closes the group stands behind its content.
      obtain ⟨hcontent, hclosed⟩ := Row.whole content hinside (by
        rintro q ⟨⟩
        exact ⟨delimiter, rfl⟩)
      cases hclosed with
      | cons _ _ hrest =>
        obtain ⟨hwhole, hbehind⟩ := Row.whole ts hrest hend
        exact ⟨.group hcontent hwhole, hbehind⟩

/-! ## The row of a text -/

/-- The pieces that a lexeme is, or that its comment stands for. -/
def Lexeme.spread : Lexeme → Layout
  | .gap => []
  | .documentation inner text => spreadAll (documentationTrees inner text .start)
  | .opening delimiter => [(.opening delimiter, true)]
  | .closing delimiter => [(.closing delimiter, true)]
  | .token t => (TokenTree.token t).spread

/-- The pieces of lexemes. -/
def spreadLexemes (found : List (Lexeme × Position)) : Layout :=
  found.flatMap fun (l, _) => l.spread

section

variable {text rest : List Char} {l : Lexeme} {n : Nat} {here : Position}
  {found : List (Lexeme × Position)}

/-- What is read behind the front that belongs to a lexeme. -/
theorem lexemesFrom?_drop {skip : Nat} (h : lexemesFrom? skip here text = some found) :
    ∃ there, lexemesFrom? 0 there (text.drop skip) = some found := by
  induction skip generalizing here text with
  | zero => exact ⟨here, h⟩
  | succ skip ih =>
    cases text with
    | nil => exact ⟨here, h⟩
    | cons c text => exact ih h

/-- The first lexeme of a text, and those behind it. -/
theorem lexemesFrom?_cons {c : Char} (h : lexemesFrom? 0 here (c :: rest) = some found) :
    ∃ l n there others, lexeme? (c :: rest) = some (l, n) ∧ found = (l, here) :: others ∧
      lexemesFrom? 0 there (rest.drop (n - 1)) = some others := by
  rw [lexemesFrom?] at h
  split at h
  · contradiction
  · rename_i l n hl
    obtain ⟨others, hothers, rfl⟩ := Option.map_eq_some_iff.1 h
    obtain ⟨there, hbehind⟩ := lexemesFrom?_drop hothers
    exact ⟨l, n, there, others, hl, rfl, hbehind⟩

/-- If a token is in front, it is the first piece. -/
theorem first?_spreadLexemes {c : Char} {P : Piece → Prop}
    (h : lexemesFrom? 0 here (c :: rest) = some found)
    (hfront : ∀ l n, lexeme? (c :: rest) = some (l, n) → ∃ t : Token, l = .token t ∧ P t.piece) :
    ∃ q ∈ (spreadLexemes found).first?, P q := by
  obtain ⟨l, n, there, others, hl, rfl, -⟩ := lexemesFrom?_cons h
  obtain ⟨t, rfl, ht⟩ := hfront l n hl
  exact ⟨t.piece, rfl, ht⟩

/-- A name goes up to a character that is no part of one. -/
theorem nameLength_append {name : List Char} (h : isName name = true)
    (hstop : ∀ c ∈ rest.head?, Charset.isIdentifierContinue c = false) :
    nameLength (name ++ rest) = name.length := by
  cases name with
  | nil => contradiction
  | cons c name =>
    rw [← nameLength_of_isName h, List.cons_append, nameLength, nameLength,
      takeWhile_append_of_head? hstop]

/-- No lifetime is read where letters run into a quote, or into the hash sign of no raw word. -/
theorem apostrophe?_of_letters {letters : List Char} {mark : Char}
    (hletters : isName letters = true)
    (hcontinue : Charset.isIdentifierContinue mark = false) (hmark : mark = '\'' ∨ mark = '#')
    (hraw : ∀ c others, letters ++ mark :: rest = 'r' :: '#' :: c :: others →
      isNameStart c = false) : apostrophe? (letters ++ mark :: rest) = none := by
  refine Option.eq_none_iff_forall_not_mem.2 fun (l, n) h => ?_
  obtain ⟨-, -, name, m, hword, hquote, hhash⟩ := apostrophe?_eq_some h
  rcases word?_eq_some hword with ⟨-, -, c, others, heq, hc⟩ | ⟨hnotRaw, hm, -⟩
  · rw [hraw c others heq] at hc
    contradiction
  · have hstop : ∀ c ∈ (mark :: rest).head?, Charset.isIdentifierContinue c = false := by
      rintro c ⟨⟩
      exact hcontinue
    -- The word is the letters, and the mark stands behind it.
    rw [nameLength_append hletters hstop] at hm
    rw [hm, List.drop_left] at hquote hhash
    rcases hmark with rfl | rfl
    · exact absurd rfl hquote
    · rw [hhash rfl] at hnotRaw
      contradiction

/-- A lifetime is read only where a name starts. -/
theorem exists_cons_of_apostrophe? (h : apostrophe? rest = some (l, n)) :
    ∃ c others, rest = c :: others ∧ isNameStart c = true := by
  obtain ⟨-, -, name, m, hword, -⟩ := apostrophe?_eq_some h
  rcases word?_eq_some hword with ⟨-, -, c, others, rfl, -⟩ | ⟨-, -, c, others, rfl, hc⟩
  · exact ⟨'r', _, rfl, by decide⟩
  · exact ⟨c, others, rfl, hc⟩

/-- A literal that could be a word behind an apostrophe is letters and a quote. -/
theorem startsLikeWord_of_apostrophe? {front behind : List Char} (hliteral : IsLiteral front)
    (h : apostrophe? (front ++ behind) = some (l, n)) : StartsLikeWord front := by
  have hstart : ∀ c ∈ (front ++ behind).head?, isNameStart c = true := by
    obtain ⟨c, others, htext, hc⟩ := exists_cons_of_apostrophe? h
    rw [htext]
    rintro d ⟨⟩
    exact hc
  -- Letters with another mark behind them would not be a word there.
  have hmark {letters more : List Char} {mark : Char} (hletters : isName letters = true)
      (hcontinue : Charset.isIdentifierContinue mark = false) (hmark : mark = '\'' ∨ mark = '#')
      (hraw : ∀ c rest, letters ++ mark :: more = 'r' :: '#' :: c :: rest → isNameStart c = false)
      (htext : front ++ behind = letters ++ mark :: more) : StartsLikeWord front := by
    rw [htext, apostrophe?_of_letters hletters hcontinue hmark hraw] at h
    contradiction
  have hnames : ∀ letters ∈ ["r", "b", "br", "cr"], isName letters.toList = true := by
    decide +kernel
  cases hliteral with
  | @quoted kind body suffix =>
    -- A quote alone starts no lifetime; with letters in front these are the word.
    cases kind with
    | text => exact absurd (hstart '"' rfl) (by decide)
    | bytes => exact ⟨"b", body ++ suffix, by decide, rfl⟩
    | cText => exact ⟨"c", body ++ suffix, by decide, rfl⟩
  | @raw kind hashes body suffix =>
    cases hashes with
    | zero =>
      -- Without hash signs the quote is right behind the letters.
      cases kind with
      | text => exact ⟨"r", body ++ suffix, by decide, rfl⟩
      | bytes => exact ⟨"br", body ++ suffix, by decide, rfl⟩
      | cText => exact ⟨"cr", body ++ suffix, by decide, rfl⟩
    | succ hashes =>
      -- A hash sign behind the letters makes no lifetime.
      cases kind with
      | text =>
        refine hmark (hnames "r" (by decide)) (by decide) (.inr rfl) ?_ rfl
        -- Behind the first hash sign stands another one or the quote.
        intro c rest heq
        have hbehind := (List.cons.inj (List.cons.inj heq).2).2
        cases hashes with
        | zero | succ hashes =>
          obtain rfl := (List.cons.inj hbehind).1
          decide
      | bytes =>
        refine hmark (hnames "br" (by decide)) (by decide) (.inr rfl) ?_ rfl
        exact fun c rest heq => absurd (List.cons.inj heq).1 (by decide)
      | cText =>
        refine hmark (hnames "cr" (by decide)) (by decide) (.inr rfl) ?_ rfl
        exact fun c rest heq => absurd (List.cons.inj heq).1 (by decide)
  | @character kind body suffix hkind =>
    -- Nor does an apostrophe.
    cases kind with
    | text => exact absurd (hstart '\'' rfl) (by decide)
    | bytes =>
      refine hmark (hnames "b" (by decide)) (by decide) (.inl rfl) ?_ rfl
      exact fun c rest heq => absurd (List.cons.inj heq).1 (by decide)
    | cText => exact absurd rfl hkind
  | number hnumber =>
    -- No lifetime starts with a digit.
    obtain ⟨c, digits, rfl⟩ := List.exists_cons_of_ne_nil hnumber.ne_nil
    have hdigit := isAsciiDigit_of_numberLength? hnumber
    rw [isAsciiDigit_of_isNameStart (hstart c rfl)] at hdigit
    contradiction
  | failed => exact absurd (hstart '(' rfl) (by decide)

/-- What stands behind an apostrophe is read as something that may follow it. -/
theorem followsApostrophe_of_lexeme? {m : Nat} {next : Lexeme} (h : apostrophe? rest = some (l, n))
    (hnext : lexeme? rest = some (next, m)) :
    ∃ t : Token, next = .token t ∧ t.piece.FollowsApostrophe := by
  obtain ⟨c, others, rfl, hc⟩ := exists_cons_of_apostrophe? h
  rw [lexeme?_of_isNameStart hc] at hnext
  cases leafAt_of_leaf? hnext with
  | literal hlength =>
    obtain ⟨front, behind, htext, hfront, hliteral⟩ := startsWith_of_literalLength? hlength
    rw [htext] at h
    refine ⟨_, rfl, ?_⟩
    rw [Token.piece, String.toList_ofList, htext, ← hfront, List.take_left]
    exact startsLikeWord_of_apostrophe? hliteral h
  | apostrophe => exact absurd hc (by decide)
  | mark _ hstarts =>
    have hmark := isMark_of_isNameStart hc
    rw [startsMark_cons fun hslash => absurd hslash (ne_of_isNameStart hc '/' (by decide)),
      hmark] at hstarts
    contradiction
  | word => exact ⟨_, rfl, trivial⟩

/-- What stands behind a joint slash makes no comment of it. -/
theorem ne_mark_of_lexeme? {m : Nat} {next : Lexeme} (hslash : startsMark ('/' :: rest) = true)
    (hjoint : startsMark rest = true) (hnext : lexeme? rest = some (next, m)) :
    ∃ t : Token, next = .token t ∧ t.piece ≠ .mark '/' ∧ t.piece ≠ .mark '*' := by
  obtain ⟨c, others, rfl⟩ : ∃ c others, rest = c :: others := by
    cases rest with
    | nil => contradiction
    | cons c others => exact ⟨c, others, rfl⟩
  have hne : c ≠ '/' ∧ c ≠ '*' := by
    constructor <;> rintro rfl <;> contradiction
  rw [lexeme?_of_isMark (isMark_of_startsMark hjoint) fun hc => absurd hc hne.1] at hnext
  cases leafAt_of_leaf? hnext with
  | apostrophe h => exact ⟨_, (apostrophe?_eq_some h).1, by decide⟩
  | mark => exact ⟨_, rfl, fun h => hne.1 (Piece.mark.inj h), fun h => hne.2 (Piece.mark.inj h)⟩
  | literal | word => exact ⟨_, rfl, Piece.noConfusion, Piece.noConfusion⟩

/-- A mark stands in front of the lexemes that are read behind it. -/
theorem standsInRow_spreadLexemes {c : Char} (hquote : c ≠ '\'')
    (hstarts : startsMark (c :: rest) = true) (h : lexemesFrom? 0 here rest = some found) :
    (Piece.mark c).StandsInRow (!startsMark rest) (spreadLexemes found).first? := by
  by_cases hslash : c = '/'
  · subst hslash
    cases hjoint : startsMark rest with
    | false => exact .inl rfl
    | true =>
      cases rest with
      | nil => contradiction
      | cons d rest =>
        obtain ⟨q, hq, t, rfl, hne⟩ := first?_spreadLexemes
          (P := fun q => ∃ t : Token, t.piece = q ∧ q ≠ .mark '/' ∧ q ≠ .mark '*') h
          fun _ _ hnext => (ne_mark_of_lexeme? hstarts hjoint hnext).imp fun t ht =>
            ⟨ht.1, t, rfl, ht.2⟩
        exact .inr ⟨t, hq, hne⟩
  · exact standsInRow_mark hquote (.inl hslash)

/-- The trees of a documentation comment may stand in front of anything. -/
theorem row_documentation (inner : Bool) (text : List Char) {behind : Layout} (h : Row behind) :
    Row ((Lexeme.documentation inner text).spread ++ behind) := by
  have hliteral : IsLiteral (String.ofList (literal text)).toList := by
    rw [String.toList_ofList]
    exact isLiteral_literal text
  -- A mark with a space behind it may stand in front of anything, unless it is an apostrophe.
  have hmark {c : Char} {rest : Layout} (hgood : isMark c = true) (hquote : c ≠ '\'')
      (hrest : Row rest) : Row ((.mark c, true) :: rest) :=
    .cons hgood (standsInRow_mark hquote (.inr rfl)) hrest
  have hgroup : Row ((.opening .bracket, true) :: (.word ⟨"doc", false, by decide⟩, true) ::
      (.mark '=', true) :: (.literal (String.ofList (literal text)).toList, true) ::
        (.closing .bracket, true) :: behind) := by
    refine .cons trivial trivial
      (.cons (fun hraw => absurd hraw Bool.false_ne_true) trivial (hmark rfl (by decide) ?_))
    exact .cons hliteral trivial (.cons trivial trivial h)
  cases inner with
  | true => exact hmark rfl (by decide) (hmark rfl (by decide) hgroup)
  | false => exact hmark rfl (by decide) hgroup

/-- The pieces of a text make a row. -/
theorem row_lexemesFrom? (h : lexemesFrom? 0 here text = some found) :
    Row (spreadLexemes found) := by
  induction hlength : text.length using Nat.strong_induction_on generalizing text here found with
  | _ length ih =>
  subst hlength
  cases text with
  | nil =>
    obtain rfl := Option.some.inj h
    exact .nil
  | cons c rest =>
    obtain ⟨l, n, there, others, hl, rfl, hothers⟩ := lexemesFrom?_cons h
    -- A lexeme takes one character or more, so the induction is on the length.
    have hrest : Row (spreadLexemes others) := by
      refine ih _ ?_ hothers rfl
      rw [List.length_drop, List.length_cons]
      omega
    change Row (l.spread ++ spreadLexemes others)
    cases lexemeAt_of_lexeme? hl with
    | comment hcomment =>
      -- A comment leaves nothing in the row, or the attribute that documentation stands for.
      cases l with
      | gap => exact hrest
      | documentation inner text => exact row_documentation inner text hrest
      | opening | closing | token => contradiction
    | opening | closing => exact .cons trivial trivial hrest
    | failed => exact .cons .failed trivial hrest
    | leaf hleaf =>
      cases hleaf with
      | literal hlength =>
        -- The text of a literal that was measured is one.
        obtain ⟨front, behind, htext, hfront, hliteral⟩ := startsWith_of_literalLength? hlength
        refine .cons ?_ trivial hrest
        rw [Token.piece, String.toList_ofList, htext, ← hfront, List.take_left]
        exact hliteral
      | @apostrophe rest l n happ =>
        -- The word behind an apostrophe is the next lexeme, and nothing is in between.
        obtain ⟨rfl, rfl, name, m, hword, -⟩ := apostrophe?_eq_some happ
        cases rest with
        | nil => contradiction
        | cons d rest =>
          refine .cons rfl ⟨rfl, first?_spreadLexemes hothers fun _ _ hnext => ?_⟩ hrest
          exact followsApostrophe_of_lexeme? happ hnext
      | @mark c rest hquote hstarts =>
        -- A joint mark has a mark behind it, which is the next lexeme.
        exact .cons (isMark_of_startsMark hstarts)
          (standsInRow_spreadLexemes hquote hstarts hothers) hrest
      | word hword =>
        refine .cons (fun hraw => ?_) trivial hrest
        rcases word?_eq_some hword with ⟨-, hreserved, -⟩ | ⟨hnotRaw, -⟩
        · exact hreserved
        · rw [hnotRaw] at hraw
          contradiction

/-! ## The trees of a text -/

/-- The row of a forest: in front of each open group stand the trees in front of it. -/
def Forest.spread (f : Forest) : Layout :=
  f.enclosing.reverse.flatMap (fun (d, before) =>
    spreadAll before.reverse ++ [(.opening d, true)]) ++ spreadAll f.current.reverse

/-- A lexeme goes to the end of the row. -/
theorem Forest.spread_add {f next : Forest} (h : f.add l here = some next) :
    next.spread = f.spread ++ l.spread := by
  cases l with
  | gap =>
    obtain rfl := Option.some.inj h
    exact (List.append_nil _).symm
  | documentation inner text =>
    obtain rfl := Option.some.inj h
    have hplace : spreadAll (documentationTrees inner text here) =
        spreadAll (documentationTrees inner text .start) := by
      cases inner <;> rfl
    simp only [Forest.spread, List.reverse_append, List.reverse_reverse, spreadAll_append, hplace,
      Lexeme.spread, List.append_assoc]
  | token t =>
    obtain rfl := Option.some.inj h
    simp only [Forest.spread, List.reverse_cons, spreadAll_append, spreadAll, Lexeme.spread,
      List.append_assoc, List.append_nil]
  | opening d =>
    obtain rfl := Option.some.inj h
    simp [Forest.spread, Lexeme.spread, spreadAll]
  | closing d =>
    -- The group is closed: what was in front of its pieces stays in front of them.
    obtain ⟨before, outer, henclosing, rfl⟩ := Forest.add_closing_eq_some h
    simp [Forest.spread, Lexeme.spread, henclosing, spreadAll_append, spreadAll, TokenTree.spread]

theorem Forest.spread_addAll {f next : Forest} (h : f.addAll found = some next) :
    next.spread = f.spread ++ spreadLexemes found := by
  induction found generalizing f with
  | nil =>
    obtain rfl := Option.some.inj h
    exact (List.append_nil _).symm
  | cons first found ih =>
    rw [Forest.addAll] at h
    split at h
    · contradiction
    · rename_i middle hfirst
      rw [ih h, Forest.spread_add hfirst, List.append_assoc]
      rfl

/-- The trees of a text are whole. -/
theorem whole_of_tokenTrees? {trees : List TokenTree} (h : tokenTrees? text = some trees) :
    Whole trees := by
  obtain ⟨found, hfound, hmade⟩ := tokenTrees?_eq_some h
  have hspread := Forest.spread_addAll hmade
  have htrees : spreadAll trees ++ [] = spreadLexemes found := by
    simpa [Forest.spread, spreadAll] using hspread
  have hrow : Row (spreadLexemes found) := by
    unfold lexemes? at hfound
    split at hfound <;> exact row_lexemesFrom? hfound
  rw [← htrees] at hrow
  exact (Row.whole trees hrow fun _ hq => absurd hq (by simp [Layout.first?])).1

end

end UnitLoader.Syntax
