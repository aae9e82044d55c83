import UnitLoader.Syntax.Parser

/-!
# Operators

The binary operators and how strong they bind. A higher level binds stronger.
-/

namespace UnitLoader.Syntax

/-- How strong operators bind. -/
inductive Level where
  | lowest
  | assignment
  | range
  | disjunction
  | conjunction
  | comparison
  | bitOr
  | bitXor
  | bitAnd
  | shift
  | sum
  | product
  | cast
  deriving DecidableEq, Repr

/-- The place of a level among all levels. -/
def Level.strength : Level → Nat
  | .lowest => 0
  | .assignment => 1
  | .range => 2
  | .disjunction => 3
  | .conjunction => 4
  | .comparison => 5
  | .bitOr => 6
  | .bitXor => 7
  | .bitAnd => 8
  | .shift => 9
  | .sum => 10
  | .product => 11
  | .cast => 12

/-- The binary operators, longer spellings in front of those they start with. -/
def binaryOperators : List (String × Level) :=
  [("+=", .assignment), ("-=", .assignment), ("*=", .assignment), ("/=", .assignment),
    ("%=", .assignment), ("^=", .assignment), ("&=", .assignment), ("|=", .assignment),
    ("<<=", .assignment), (">>=", .assignment), ("&&", .conjunction), ("||", .disjunction),
    ("<<", .shift), (">>", .shift), ("==", .comparison), ("<=", .comparison), ("!=", .comparison),
    (">=", .comparison), ("+", .sum), ("-", .sum), ("*", .product), ("/", .product),
    ("%", .product), ("^", .bitXor), ("&", .bitAnd), ("|", .bitOr), ("<", .comparison),
    (">", .comparison)]

/-- The binary operator in front. -/
def binaryOperator? (ts : List TokenTree) : Option (String × Level) :=
  binaryOperators.find? fun operator => Ahead.symbol operator.1 ts

/-- An assignment stands in front. -/
def assignmentAhead (ts : List TokenTree) : Bool := Ahead.symbol "=" ts && !Ahead.symbol "=>" ts

/-- The level of what stands in front, the lowest if it is no operator. -/
def levelAhead (ts : List TokenTree) : Level :=
  match binaryOperator? ts with
  | some (_, level) => level
  | none =>
    if assignmentAhead ts then .assignment
    else if Ahead.symbol ".." ts then .range
    else if Ahead.keyword "as" ts then .cast
    else .lowest

end UnitLoader.Syntax
