import UnitLoader.Syntax.Token

/-!
# Printing token trees

One space stands between neighbours, except behind a joint mark. A group has its content between
its delimiters; braces keep a space inside.
-/

namespace UnitLoader.Syntax

/-- A name as it is written. -/
def Name.print (n : Name) : List Char := (if n.raw then ['r', '#'] else []) ++ n.text.toList

/-- The text of a token. -/
def Token.text : Token → List Char
  | .word name => name.print
  | .mark c _ => [c]
  | .literal text => text.toList

/-- The next tree follows without a space. -/
def TokenTree.isJoint : TokenTree → Bool
  | .token (.mark _ joint) => joint
  | _ => false

mutual

/-- The text of a tree. -/
def TokenTree.print : TokenTree → List Char
  | .token t => t.text
  | .group .parenthesis content _ => '(' :: printTrees content ++ [')']
  | .group .bracket content _ => '[' :: printTrees content ++ [']']
  | .group .brace [] _ => ['\x7b', ' ', '\x7d']
  | .group .brace (t :: rest) _ => ['\x7b', ' '] ++ printTrees (t :: rest) ++ [' ', '\x7d']

/-- The text of trees. -/
def printTrees : List TokenTree → List Char
  | [] => []
  | [t] => t.print
  | t :: next :: rest =>
    t.print ++ (if t.isJoint then [] else [' ']) ++ printTrees (next :: rest)

end

end UnitLoader.Syntax
