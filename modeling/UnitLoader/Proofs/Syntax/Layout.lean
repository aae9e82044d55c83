import UnitLoader.Proofs.Syntax.Literal
import UnitLoader.Syntax.Printer

/-!
# Layouts

Printed trees are a row of pieces, each a word, a mark, a literal or a delimiter, with or without a
space behind it. `Safe` says of such a row that no piece runs into the next one: a word or a literal
is followed by a space or by a mark that ends it, and no two slashes come together.
-/

namespace UnitLoader.Syntax

/-! ## Pieces -/

/-- What stands in trees, apart from places and gaps. -/
inductive Piece where
  | word (name : Name)
  | mark (c : Char)
  | literal (text : List Char)
  | opening (delimiter : Delimiter)
  | closing (delimiter : Delimiter)
  deriving DecidableEq, Repr

/-- The piece that a token is. -/
def Token.piece : Token → Piece
  | .word name => .word name
  | .mark c _ => .mark c
  | .literal text => .literal text.toList

mutual

/-- The pieces of a tree. -/
def TokenTree.pieces : TokenTree → List Piece
  | .token t => [t.piece]
  | .group delimiter content _ => .opening delimiter :: piecesAll content ++ [.closing delimiter]

/-- The pieces of trees, one after the other. -/
def piecesAll : List TokenTree → List Piece
  | [] => []
  | t :: rest => t.pieces ++ piecesAll rest

end

/-- The character that opens a group. -/
def Delimiter.opening : Delimiter → Char
  | .parenthesis => '('
  | .bracket => '['
  | .brace => '\x7b'

/-- The character that closes a group. -/
def Delimiter.closing : Delimiter → Char
  | .parenthesis => ')'
  | .bracket => ']'
  | .brace => '\x7d'

/-- The text of a piece. -/
def Piece.text : Piece → List Char
  | .word name => name.print
  | .mark c => [c]
  | .literal text => text
  | .opening delimiter => [delimiter.opening]
  | .closing delimiter => [delimiter.closing]

/-- A piece with another text if it is a literal. -/
def Piece.map (f : List Char → List Char) : Piece → Piece
  | .literal text => .literal (f text)
  | p => p

theorem Piece.map_id (p : Piece) : p.map (fun text => text) = p := by cases p <;> rfl

theorem Piece.map_map (f g : List Char → List Char) (p : Piece) :
    (p.map f).map g = p.map fun text => g (f text) := by
  cases p <;> rfl

/-! ## Layouts -/

/-- Pieces, each with whether a space is behind it. -/
abbrev Layout := List (Piece × Bool)

/-- A space, if there is one. -/
def gap (isThere : Bool) : List Char := if isThere then [' '] else []

/-- The text of a layout. -/
def Layout.text (layout : Layout) : List Char :=
  layout.flatMap fun (p, isGap) => p.text ++ gap isGap

mutual

/-- The layout of a printed tree, perhaps with a space behind it. -/
def TokenTree.layout : TokenTree → Bool → Layout
  | .token t, isGap => [(t.piece, isGap)]
  | .group delimiter content _, isGap =>
    (.opening delimiter, delimiter == .brace) :: layoutAll content (delimiter == .brace) ++
      [(.closing delimiter, isGap)]

/-- The layout of printed trees, perhaps with a space behind the last one. -/
def layoutAll : List TokenTree → Bool → Layout
  | [], _ => []
  | [t], isGap => t.layout isGap
  | t :: next :: rest, isGap => t.layout (!t.isJoint) ++ layoutAll (next :: rest) isGap

end

theorem Layout.text_append (first second : Layout) :
    Layout.text (first ++ second) = first.text ++ second.text := List.flatMap_append

theorem Layout.text_cons (p : Piece) (isGap : Bool) (rest : Layout) :
    Layout.text ((p, isGap) :: rest) = p.text ++ (gap isGap ++ rest.text) := by
  rw [Layout.text, List.flatMap_cons, List.append_assoc, ← Layout.text]

mutual

/-- The layout of a tree is how it is printed. -/
theorem TokenTree.text_layout (isGap : Bool) :
    (t : TokenTree) → (t.layout isGap).text = t.print ++ gap isGap
  | .token t => by
    cases t <;> simp [TokenTree.layout, Layout.text, Piece.text, Token.piece, TokenTree.print,
      Token.text]
  | .group delimiter content close => by
    have hclose : Layout.text [(.closing delimiter, isGap)] = delimiter.closing :: gap isGap := by
      rw [Layout.text_cons]
      simp [Layout.text, Piece.text]
    rw [TokenTree.layout, List.cons_append, Layout.text_cons, Layout.text_append,
      text_layoutAll _ content, hclose]
    cases delimiter with
    | parenthesis | bracket => simp [TokenTree.print, Piece.text, gap, Delimiter.opening,
        Delimiter.closing]
    | brace =>
      cases content <;> simp [TokenTree.print, Piece.text, gap, Delimiter.opening,
        Delimiter.closing, printTrees]

/-- So is that of trees. -/
theorem text_layoutAll (isGap : Bool) : (ts : List TokenTree) →
    (layoutAll ts isGap).text = printTrees ts ++ gap (isGap && !ts.isEmpty)
  | [] => by cases isGap <;> rfl
  | [t] => by
    rw [layoutAll, t.text_layout, printTrees]
    cases isGap <;> rfl
  | t :: next :: rest => by
    rw [layoutAll, Layout.text_append, t.text_layout, text_layoutAll isGap (next :: rest),
      printTrees]
    cases t.isJoint <;> cases isGap <;> simp [gap]

end

mutual

theorem TokenTree.map_fst_layout (isGap : Bool) :
    (t : TokenTree) → (t.layout isGap).map Prod.fst = t.pieces
  | .token t => rfl
  | .group delimiter content close => by
    rw [TokenTree.layout, TokenTree.pieces, List.map_append, List.map_cons,
      map_fst_layoutAll _ content]
    rfl

/-- A layout has the pieces of the trees. -/
theorem map_fst_layoutAll (isGap : Bool) : (ts : List TokenTree) →
    (layoutAll ts isGap).map Prod.fst = piecesAll ts
  | [] => rfl
  | [t] => by
    rw [layoutAll, t.map_fst_layout, piecesAll, piecesAll, List.append_nil]
  | t :: next :: rest => by
    rw [layoutAll, List.map_append, t.map_fst_layout, map_fst_layoutAll isGap (next :: rest)]
    rfl

end

/-! ## Safe layouts -/

/-- A literal that starts like a word, without hash signs. -/
def StartsLikeWord (text : List Char) : Prop :=
  ∃ letters body, letters ∈ ["r", "b", "br", "c", "cr"] ∧ text = letters.toList ++ '"' :: body

/-- The piece may be read. -/
def Piece.Good : Piece → Prop
  | .word name => name.raw = true → isReservedRaw name.text = false
  | .mark c => isMark c = true
  | .literal text => IsLiteral text
  | _ => True

/-- A word or a literal ends in front of the piece. -/
def Piece.Ends : Piece → Prop
  | .mark c => c ∈ endMarks
  | .closing _ => True
  | _ => False

/-- The piece may follow an apostrophe at once. -/
def Piece.FollowsApostrophe : Piece → Prop
  | .word _ => True
  | .literal text => StartsLikeWord text
  | _ => False

/-- The piece may stand so in front of the next one. -/
def Piece.Stands (p : Piece) (isGap : Bool) (next : Option Piece) : Prop :=
  match p with
  | .word _ | .literal _ => isGap = true ∨ ∀ q ∈ next, q.Ends
  | .mark '\'' => isGap = false ∧ ∃ q ∈ next, q.FollowsApostrophe
  | .mark '/' => isGap = true ∨ ∀ q ∈ next, q ≠ .mark '/' ∧ q ≠ .mark '*'
  | _ => True

/-- Other marks may stand in front of anything. -/
theorem stands_mark {c : Char} {isGap : Bool} {next : Option Piece} (hquote : c ≠ '\'')
    (hslash : c ≠ '/') : (Piece.mark c).Stands isGap next := by
  rw [Piece.Stands.eq_def]
  split
  · contradiction
  · contradiction
  · exact absurd (Piece.mark.inj ‹_›) hquote
  · exact absurd (Piece.mark.inj ‹_›) hslash
  · trivial

/-- The first piece. -/
def Layout.first? (layout : Layout) : Option Piece := layout.head?.map Prod.fst

/-- No piece of the layout runs into the next one. -/
inductive Safe : Layout → Prop
  | nil : Safe []
  | cons {p : Piece} {isGap : Bool} {rest : Layout} : p.Good → p.Stands isGap rest.first? →
    Safe rest → Safe ((p, isGap) :: rest)

theorem Safe.good_of_first? {layout : Layout} (h : Safe layout) : ∀ p ∈ layout.first?, p.Good := by
  cases h with
  | nil => exact fun _ hp => absurd hp (by simp [Layout.first?])
  | cons hgood _ _ =>
    rintro p ⟨⟩
    exact hgood

end UnitLoader.Syntax
