import UnitLoader.Syntax.Item
import UnitLoader.Syntax.Lexer

/-!
# Source files

`grammar n` parses constructs that nest at most `n` deep. Whatever a text holds nests less deep
than it has tokens, up to a fixed number of steps for each token, so `parseFile?` has enough depth
for its text.
-/

namespace UnitLoader.Syntax

open UnitLoader.Syntax.Parser

/-- The grammar whose inner constructs are those of another one. -/
def Grammar.around (g : Grammar) : Grammar where
  type plus := Syntax.type g plus
  bound capture constant := Syntax.bound g capture constant
  expression structs := Syntax.expression g structs
  operand structs := Syntax.operand g structs
  operators structs level left := Syntax.operators g structs level left
  leading inStatement := Syntax.leading g inStatement
  pattern := Syntax.pattern g
  statements := Syntax.statements g
  item := Syntax.item g
  useTree root := Syntax.useTree g root

/-- The grammar of constructs that nest at most `depth` deep. -/
def grammar : (depth : Nat) → Grammar
  | 0 => .empty
  | depth + 1 => (grammar depth).around

/-- The steps of nesting that one token can stand for. -/
def stepsPerToken : Nat := 8

/-- The items of a file. -/
def file (g : Grammar) : Parser (List Item) := do
  innerAttributes g
  many g.item

/-- The items of a source text; `none` if it cannot be parsed. -/
def parseFile? (text : List Char) : Option (List Item) :=
  match fileTrees? text with
  | none => none
  | some trees =>
    match (file (grammar (stepsPerToken * (TokenTree.sizeAll trees + 1)))).run ⟨trees, []⟩ with
    | some (items, ⟨[], _⟩) => some items
    | _ => none

end UnitLoader.Syntax
