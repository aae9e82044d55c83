import UnitLoader.Proofs.Syntax.Layout

/-!
# Whole trees

Trees are `Whole` if each piece in them may be read and none is torn from what it belongs to: an
apostrophe stands in front of the word that makes it a lifetime, and a slash that is joined to
something does not make a comment with it. Whole trees may be put in a row, what stands at their end
is whole, and their layout is safe (`Whole.safe_layoutAll`), so they are read again as they are
printed.
-/

namespace UnitLoader.Syntax

/-- The first piece of a tree. -/
def TokenTree.front : TokenTree → Piece
  | .token t => t.piece
  | .group delimiter _ _ => .opening delimiter

/-- The first piece of trees. -/
def frontOf (ts : List TokenTree) : Option Piece := ts.head?.map TokenTree.front

/-- The token may stand in front of this piece, or at the end. -/
def Token.Joins : Token → Option Piece → Prop
  | .mark '\'' joint, next => joint = true ∧ ∃ q ∈ next, q.FollowsApostrophe
  | .mark '/' true, next => ∃ q ∈ next, q ≠ .mark '/' ∧ q ≠ .mark '*'
  | _, _ => True

/-- Each piece of the trees may be read, and none is torn from what it belongs to. -/
inductive Whole : List TokenTree → Prop
  | nil : Whole []
  | token {t : Token} {rest : List TokenTree} : t.piece.Good → t.Joins (frontOf rest) →
    Whole rest → Whole (.token t :: rest)
  | group {delimiter : Delimiter} {content : List TokenTree} {close : Text.Position}
    {rest : List TokenTree} : Whole content → Whole rest →
    Whole (.group delimiter content close :: rest)

section

variable {t : Token} {ts others : List TokenTree} {c : Char} {joint : Bool} {n : Name}

/-! ## Tokens -/

/-- Other marks may stand in front of anything. -/
theorem joins_mark {next : Option Piece} (hquote : c ≠ '\'') (hslash : c ≠ '/' ∨ joint = false) :
    (Token.mark c joint).Joins next := by
  unfold Token.Joins
  split
  · rename_i h
    exact absurd (Token.mark.inj h).1 hquote
  · rename_i h
    obtain ⟨rfl, rfl⟩ := Token.mark.inj h
    simp at hslash
  · trivial

/-- What may stand at the end may stand in front of anything. -/
theorem Token.Joins.of_none (h : t.Joins none) (next : Option Piece) : t.Joins next := by
  unfold Token.Joins at h ⊢
  split
  · obtain ⟨-, q, hq, -⟩ := h
    contradiction
  · obtain ⟨q, hq, -⟩ := h
    contradiction
  · trivial

/-- What is joined to something is joined to the first piece, whatever comes behind that. -/
theorem Token.Joins.append (h : t.Joins (frontOf ts)) (others : List TokenTree) :
    t.Joins (frontOf (ts ++ others)) := by
  cases ts with
  | nil => exact h.of_none _
  | cons first ts => exact h

theorem whole_word (hgood : (Piece.word n).Good) (h : Whole ts) : Whole (.word n :: ts) :=
  .token hgood trivial h

/-- Words without a raw mark may be read. -/
theorem good_word {text : String} {h : isName text.toList = true} :
    (Piece.word ⟨text, false, h⟩).Good := nofun

theorem whole_literal {text : String} (hgood : IsLiteral text.toList) (h : Whole ts) :
    Whole (.token (.literal text) :: ts) := .token hgood trivial h

/-- A mark that nothing joins may stand in front of anything, unless it is an apostrophe. -/
theorem whole_alone (hmark : isMark c = true) (hquote : c ≠ '\'') (h : Whole ts) :
    Whole (.alone c :: ts) := .token hmark (joins_mark hquote (.inr rfl)) h

/-- The trees of a lifetime are whole. -/
theorem whole_lifetime (hgood : (Piece.word n).Good) (h : Whole ts) :
    Whole (.token (.mark '\'' true) :: .word n :: ts) :=
  .token rfl ⟨rfl, .word n, rfl, trivial⟩ (whole_word hgood h)

/-! ## Rows of trees -/

/-- Whole trees may be put in a row. -/
theorem Whole.append (h : Whole ts) (hothers : Whole others) : Whole (ts ++ others) := by
  induction h with
  | nil => exact hothers
  | token hgood hjoins _ ih => exact .token hgood (hjoins.append others) ih
  | group hcontent _ _ ih => exact .group hcontent ih

/-- What stands at the end is whole. -/
theorem Whole.of_append (h : Whole (ts ++ others)) : Whole others := by
  induction ts with
  | nil => exact h
  | cons first ts ih =>
    cases h with
    | token _ _ hrest => exact ih hrest
    | group _ hrest => exact ih hrest

theorem Whole.of_suffix (h : Whole ts) (hsuffix : others <:+ ts) : Whole others := by
  obtain ⟨front, rfl⟩ := hsuffix
  exact h.of_append

/-- What stands in front is whole if nothing is torn from its last tree. -/
theorem Whole.of_front (h : Whole (ts ++ others))
    (hlast : ∀ t, ts.getLast? = some (.token t) → t.Joins none) : Whole ts := by
  induction ts with
  | nil => exact .nil
  | cons first ts ih =>
    have hrest {t : Token} (ht : ts.getLast? = some (.token t)) : t.Joins none := by
      refine hlast t ?_
      rw [List.getLast?_cons, ht]
      rfl
    cases h with
    | @token t _ hgood hjoins htail =>
      refine .token hgood ?_ (ih htail fun _ => hrest)
      cases ts with
      | nil => exact hlast t rfl
      | cons next ts => exact hjoins
    | group hcontent htail => exact .group hcontent (ih htail fun _ => hrest)

/-- Nothing is torn from the last of whole trees. -/
theorem Whole.joins_getLast? (h : Whole ts) (hlast : ts.getLast? = some (.token t)) :
    t.Joins none := by
  induction h with
  | nil => contradiction
  | @token u rest hgood hjoins _ ih =>
    cases rest with
    | nil =>
      obtain rfl := TokenTree.token.inj (Option.some.inj hlast)
      exact hjoins
    | cons next rest => exact ih (List.getLast?_cons_cons ▸ hlast)
  | @group delimiter content close rest _ _ _ ih =>
    cases rest with
    | nil => exact absurd (Option.some.inj hlast) TokenTree.noConfusion
    | cons next rest => exact ih (List.getLast?_cons_cons ▸ hlast)

/-- The content of a group is whole. -/
theorem Whole.content {delimiter : Delimiter} {close : Text.Position}
    (h : Whole (.group delimiter ts close :: others)) : Whole ts := by
  cases h with
  | group hcontent _ => exact hcontent

theorem whole_flatMap {α : Type} {items : List α} {trees : α → List TokenTree}
    (h : ∀ a ∈ items, Whole (trees a)) : Whole (items.flatMap trees) := by
  induction items with
  | nil => exact .nil
  | cons a items ih =>
    rw [List.flatMap_cons]
    exact (h a List.mem_cons_self).append (ih fun b hb => h b (List.mem_cons_of_mem _ hb))

/-! ## Layouts of whole trees -/

/-- A token may stand as its layout has it. In front of a closing delimiter and at the end the space
behind it may be missing. -/
theorem Token.Joins.stands {isGap : Bool} {next : Option Piece} (h : t.Joins next)
    (hgap : isGap = !(TokenTree.token t).isJoint ∨ t.Joins none ∧ ∀ q ∈ next, ∃ d, q = .closing d) :
    t.piece.Stands isGap next := by
  cases t with
  | word | literal =>
    -- A word and a literal have a space behind them, or the end of a group.
    rcases hgap with rfl | ⟨-, hclosing⟩
    · exact .inl rfl
    · refine .inr fun q hq => ?_
      obtain ⟨d, rfl⟩ := hclosing q hq
      trivial
  | mark c joint =>
    by_cases hquote : c = '\''
    · subst hquote
      rcases hgap with rfl | ⟨⟨-, q, hq, -⟩, -⟩
      · obtain ⟨rfl, hfollows⟩ := h
        exact ⟨rfl, hfollows⟩
      · contradiction
    · by_cases hslash : c = '/'
      · subst hslash
        rcases hgap with rfl | ⟨hend, hclosing⟩
        · -- A slash that is not joint has a space behind it, and a joint one makes no comment.
          cases joint with
          | false => exact .inl rfl
          | true =>
            obtain ⟨q, hq, hne⟩ := h
            exact .inr fun q' hq' => Option.some.inj (hq.symm.trans hq') ▸ hne
        · refine .inr fun q hq => ?_
          obtain ⟨d, rfl⟩ := hclosing q hq
          exact ⟨Piece.noConfusion, Piece.noConfusion⟩
      · exact stands_mark hquote hslash

theorem TokenTree.first?_layout (t : TokenTree) (isGap : Bool) (rest : Layout) :
    Layout.first? (t.layout isGap ++ rest) = some t.front := by
  cases t <;> rfl

/-- Whole trees have a safe layout. What stands behind them closes the group that they are in, if
there is one. -/
theorem Whole.safe_layoutAll_append (h : Whole ts) (isGap : Bool) {rest : Layout}
    (hrest : Safe rest) (hend : ∀ q ∈ rest.first?, ∃ d, q = .closing d) :
    Safe (layoutAll ts isGap ++ rest) := by
  induction h generalizing isGap rest with
  | nil => exact hrest
  | @token t others hgood hjoins hothers ih =>
    cases others with
    -- The last token has a closing delimiter behind it, or nothing, and may stand in front of
    -- either.
    | nil => exact .cons hgood ((hjoins.of_none _).stands (.inr ⟨hjoins, hend⟩)) hrest
    | cons next others =>
      -- Any other one stands in front of the next tree.
      rw [layoutAll, List.append_assoc]
      have hnext : Layout.first? (layoutAll (next :: others) isGap ++ rest) = some next.front := by
        cases others with
        | nil => exact next.first?_layout _ _
        | cons =>
          rw [layoutAll, List.append_assoc]
          exact next.first?_layout _ _
      refine .cons hgood ?_ (ih isGap hrest hend)
      exact hnext ▸ hjoins.stands (.inl rfl)
  | @group delimiter content close others hcontent hothers ihContent ihOthers =>
    -- Inside of the group the closing delimiter is what comes behind the trees.
    have hlayout {behind : Layout} (isGap : Bool) (hbehind : Safe behind) :
        Safe ((TokenTree.group delimiter content close).layout isGap ++ behind) := by
      rw [TokenTree.layout, List.cons_append, List.cons_append, List.append_assoc]
      refine .cons trivial trivial (ihContent _ (.cons trivial trivial hbehind) ?_)
      rintro q ⟨⟩
      exact ⟨delimiter, rfl⟩
    cases others with
    | nil => exact hlayout isGap hrest
    | cons next others =>
      rw [layoutAll, List.append_assoc]
      exact hlayout _ (ihOthers isGap hrest hend)

theorem Whole.safe_layoutAll (h : Whole ts) : Safe (layoutAll ts false) := by
  have hsafe := h.safe_layoutAll_append false .nil fun _ hq => absurd hq (by simp [Layout.first?])
  rwa [List.append_nil] at hsafe

end

end UnitLoader.Syntax
