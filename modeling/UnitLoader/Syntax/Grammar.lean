import UnitLoader.Syntax.Parser
import UnitLoader.Syntax.Tree

/-!
# The parts of the grammar

Types, expressions, patterns and items contain each other. A `Grammar` holds one parser for each
of them, and the parsers of the following modules take the grammar for the parts inside theirs.
`UnitLoader.Syntax.File` puts them together.
-/

namespace UnitLoader.Syntax

/-- Parsers for the constructs that contain each other. -/
structure Grammar where
  /-- A type; with `plus`, bounds may follow each other. -/
  type : (plus : Bool) → Parser TypeTree
  /-- A bound; with `capture`, it may name captured parameters, and with `constant`, it may be
  marked as constant. -/
  bound : (capture constant : Bool) → Parser Bound
  /-- An expression; with `structs`, a brace behind a path starts a structure. -/
  expression : (structs : Bool) → Parser Expression
  /-- An operand with the operators in front of it. -/
  operand : (structs : Bool) → Parser Expression
  /-- The operators that bind at least as strong as a level, and their operands, behind a left
  operand. -/
  operators : (structs : Bool) → (level : Nat) → (left : Expression) → Parser Expression
  /-- An expression that a block at its start ends: a statement, or what an arm of a choice
  gives. -/
  leading : (inStatement : Bool) → Parser Expression
  /-- A pattern without alternatives. -/
  pattern : Parser Pattern
  /-- The statements of a block. -/
  statements : Parser Unit
  /-- An item. -/
  item : Parser Item
  /-- What is imported; with `root`, parts may start with a path separator. Tells whether one
  does. -/
  useTree : (root : Bool) → Parser Bool

/-- The grammar in which nothing parses. -/
def Grammar.empty : Grammar where
  type _ := failure
  bound _ _ := failure
  expression _ := failure
  operand _ := failure
  operators _ _ _ := failure
  leading _ := failure
  pattern := failure
  statements := failure
  item := failure
  useTree _ := failure

end UnitLoader.Syntax
