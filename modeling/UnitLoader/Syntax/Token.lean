import UnitLoader.Syntax.Name
import UnitLoader.Text.Position

/-!
# Tokens and token trees

A source text is read as token trees: words, marks and literals, and groups of trees between
matching delimiters. A mark is joint when another mark follows it without a gap, which is how
operators of several characters are told from neighbours.
-/

namespace UnitLoader.Syntax

open UnitLoader.Text (Position)

/-- The pairs of delimiters. -/
inductive Delimiter where
  | parenthesis
  | bracket
  | brace
  deriving DecidableEq, Repr

/-- A tree without parts. -/
inductive Token where
  /-- An identifier or keyword. -/
  | word (name : Name)
  /-- One punctuation character. -/
  | mark (c : Char) (joint : Bool)
  /-- A literal as it is written. -/
  | literal (text : String)
  deriving DecidableEq, Repr

/-- A token or a delimited group. -/
inductive TokenTree where
  /-- A single token. -/
  | token (t : Token)
  /-- The trees between two delimiters, with the place of the closing one. -/
  | group (delimiter : Delimiter) (content : List TokenTree) (close : Position)
  deriving Repr

namespace TokenTree

/-- The tree of a word. -/
def word (name : Name) : TokenTree := .token (.word name)

/-- A mark that nothing joins. -/
def alone (c : Char) : TokenTree := .token (.mark c false)

/-- The marks of an operator: all but the last are joint. -/
def symbol : List Char → List TokenTree
  | [] => []
  | [c] => [alone c]
  | c :: rest => .token (.mark c true) :: symbol rest

mutual

/-- The number of tokens and groups in a tree. -/
def size : TokenTree → Nat
  | .token _ => 1
  | .group _ content _ => sizeAll content + 1

/-- The number of tokens and groups in trees. -/
def sizeAll : List TokenTree → Nat
  | [] => 0
  | t :: rest => t.size + sizeAll rest

end

end TokenTree

end UnitLoader.Syntax
