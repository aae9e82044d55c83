import UnitLoader.Syntax.Operator
import UnitLoader.Syntax.Pattern
import UnitLoader.Syntax.Type

/-!
# Expressions

`operand` reads an operand with the operators in front of it and the calls, fields and indices
behind it; `operators` reads binary operators by their levels. Where a brace has to end an
expression, as in a condition, no structure may stand outside parentheses.
-/

namespace UnitLoader.Syntax

open UnitLoader.Syntax.Parser

/-- The attributes in front of an operand. -/
def operandAttributes (g : Grammar) : Parser Bool := do
  let found ← peek (Ahead.symbol "#")
  outerAttributes g
  pure found

/-! ## Control structures -/

/-- A condition, with its branches. -/
def conditional (g : Grammar) : Parser Unit :=
  repeating () fun _ => do
    keyword "if"
    discard (g.expression false)
    block g
    if ← keyword? "else" then
      if ← peek (Ahead.keyword "if") then pure (.inl ())
      else .inr <$> block g
    else pure (.inr ())

/-- An arm of a choice. A comma has to follow unless a block ends the arm or it is the last. -/
def arm (g : Grammar) : Parser Unit := do
  outerAttributes g
  discard (alternatives g)
  if ← keyword? "if" then discard (g.expression true)
  symbol "=>"
  let result ← g.leading false
  if result ≠ .block && !(← atEnd) then symbol ","
  else discard (symbol? ",")

/-- A choice among patterns. -/
def choice (g : Grammar) : Parser Unit := do
  keyword "match"
  discard (g.expression false)
  group .brace do
    innerAttributes g
    discard (many (arm g))

/-- A loop or a block, perhaps behind a label. -/
def loopOrBlock (g : Grammar) : Parser Unit := do
  let ts ← rest
  if Ahead.keyword "while" ts then do
    keyword "while"
    discard (g.expression false)
    body g
  else if Ahead.keyword "for" ts then do
    keyword "for"
    discard (alternatives g)
    keyword "in"
    discard (g.expression false)
    body g
  else if Ahead.keyword "loop" ts then do
    keyword "loop"
    body g
  else body g

/-- A loop or a block behind its label. -/
def labeled (g : Grammar) : Parser Unit := do
  discard lifetime
  symbol ":"
  let ts ← rest
  require (Ahead.keywordIn ["while", "for", "loop"] ts || Ahead.opening .brace ts)
  loopOrBlock g

/-- A closure with introduced lifetimes starts like a loop. -/
def binderAhead (ts : List TokenTree) : Bool :=
  Ahead.keyword "for" ts && genericsAhead (Ahead.next ts)

/-- A control structure or a block, if one stands in front. -/
def blockLike? (g : Grammar) : Parser Bool := do
  let ts ← rest
  let second := Ahead.next ts
  if Ahead.keyword "if" ts then do
    conditional g
    pure true
  else if Ahead.keyword "match" ts then do
    choice g
    pure true
  else if (Ahead.keyword "for" ts && !binderAhead ts) || Ahead.keywordIn ["while", "loop"] ts ||
      Ahead.opening .brace ts then do
    loopOrBlock g
    pure true
  else if Ahead.keyword "try" ts && Ahead.opening .brace second then do
    keyword "try"
    block g
    pure true
  else if Ahead.keyword "unsafe" ts then do
    keyword "unsafe"
    body g
    pure true
  else if Ahead.keyword "const" ts && Ahead.opening .brace second then do
    keyword "const"
    body g
    pure true
  else pure false

/-! ## Atoms -/

/-- Prints attributes in front of what they belong to. A range stands in parentheses behind them. -/
def printAttributed (attributes trees : List TokenTree) (isRange : Bool) : Parser Unit :=
  if isRange && !attributes.isEmpty then print (attributes ++ [.group .parenthesis trees .start])
  else print (attributes ++ trees)

/-- A parameter of a closure. Its attributes belong to the pattern unless it has a type; those of a
pattern behind `box` are lost then. -/
def closureParam (g : Grammar) : Parser Unit := do
  let ((), attributes) ← captured (outerAttributes g)
  let (found, trees) ← captured g.pattern
  if ← peek (Ahead.symbol ":") then
    print (attributes ++ trees)
    symbol ":"
    discard (g.type true)
  else if found = .boxed then print trees
  else printAttributed attributes trees found.isRange

/-- A closure. -/
def closure (g : Grammar) (structs : Bool) : Parser Unit := do
  discard (boundLifetimes? g)
  discard (keyword? "const")
  discard (keyword? "static")
  discard (keyword? "async")
  discard (keyword? "move")
  symbol "|"
  discard (separatedUntil (Ahead.symbol "|") "," (closureParam g))
  symbol "|"
  if ← symbol? "->" then
    discard (g.type true)
    block g
  else discard (g.expression structs)

/-- A closure starts here. -/
def closureAhead (ts : List TokenTree) : Bool :=
  let second := Ahead.next ts
  Ahead.symbol "|" ts || Ahead.keywordIn ["move", "static"] ts || binderAhead ts ||
    (Ahead.keyword "const" ts && !Ahead.opening .brace second) ||
    (Ahead.keyword "async" ts && (Ahead.symbol "|" second || Ahead.keyword "move" second))

/-- An expression may start here. -/
def expressionAhead (ts : List TokenTree) : Bool :=
  (Ahead.word ts && !Ahead.keyword "as" ts) || Ahead.anyOpening ts || Ahead.literal ts ||
    (Ahead.symbol "!" ts && !Ahead.symbol "!=" ts) ||
    (Ahead.symbol "-" ts && !Ahead.symbol "-=" ts && !Ahead.symbol "->" ts) ||
    (Ahead.symbol "*" ts && !Ahead.symbol "*=" ts) ||
    (Ahead.symbol "|" ts && !Ahead.symbol "|=" ts) ||
    (Ahead.symbol "&" ts && !Ahead.symbol "&=" ts) || Ahead.symbol ".." ts ||
    angleAhead ts || Ahead.symbol "::" ts || Ahead.lifetime ts || Ahead.symbol "#" ts

/-- The fields of a structure, perhaps with a base that gives the others. -/
def structureFields (g : Grammar) : Parser Unit :=
  group .brace <| repeating () fun _ => do
    if ← atEnd then pure (.inr ())
    else if ← symbol? ".." then
      unless ← atEnd do discard (g.expression true)
      pure (.inr ())
    else
      outerAttributes g
      let named ← fieldMember
      if !named || (← peek (Ahead.symbol ":")) then
        symbol ":"
        discard (g.expression true)
      if ← atEnd then pure (.inr ())
      else do
        symbol ","
        pure (.inl ())

/-- An expression that starts with a path: the path, a macro call or a structure. -/
def pathExpression (g : Grammar) (structs : Bool) : Parser Expression := do
  let (qualified, p) ← qualifiedPath g true
  let ts ← rest
  if !qualified && Ahead.bang ts && p.isPlain then do
    let delimiter ← macroArguments
    pure (.macroCall (delimiter = .brace))
  else if structs && Ahead.opening .brace ts then do
    structureFields g
    pure .other
  else pure .other

/-- A leap out of a loop. Its label may not start a loop that is the result. A structure may stand
in the result even where none may stand around it. -/
def breakExpression (g : Grammar) (structs : Bool) : Parser Unit := do
  keyword "break"
  if ← peek Ahead.lifetime then
    discard lifetime
    require !(← peek (Ahead.symbol ":"))
  let ts ← rest
  if expressionAhead ts && (structs || !Ahead.opening .brace ts) then
    discard (g.expression true)

/-- A keyword with a result behind it, if there is one. -/
def resultExpression (g : Grammar) (name : String) : Parser Unit := do
  keyword name
  if ← peek expressionAhead then discard (g.expression true)

/-- An array, by its elements or by one element and a length. -/
def arrayExpression (g : Grammar) : Parser Unit :=
  group .bracket do
    unless ← atEnd do
      discard (g.expression true)
      if ← symbol? ";" then discard (g.expression true)
      else if ← symbol? "," then discard (commas (g.expression true))

/-- The level that the operators inside a pattern test have at least. -/
def patternTestLevel : Level := .comparison

/-- A test whether a value has a pattern. -/
def patternTest (g : Grammar) (structs : Bool) : Parser Unit := do
  keyword "let"
  discard (alternatives g)
  symbol "="
  discard <| afresh do
    let left ← g.operand structs
    g.operators structs patternTestLevel.strength left

/-- A right operand for an operator of a level. Operators of higher levels belong to it, and
assignments group from the right. -/
def rightOperand (g : Grammar) (structs : Bool) (level : Level) : Parser Expression :=
  afresh do
    let first ← g.operand structs
    repeating first fun operand => do
      let next := levelAhead (← rest)
      if level.strength < next.strength || (next = level && level = .assignment) then
        let before := (← rest).length
        let operand ← g.operators structs next.strength operand
        -- Nothing was taken, so the operator belongs further out.
        if (← rest).length = before then pure (.inr operand) else pure (.inl operand)
      else pure (.inr operand)

/-- The end of a range is left out here. -/
def rangeEndsAhead (structs : Bool) (ts : List TokenTree) : Bool :=
  ts.isEmpty || Ahead.point ts || (!structs && Ahead.opening .brace ts) ||
    Ahead.keyword "as" ts ||
    [",", ";", "?", "=>", "=", "+", "/", "%", "^", ">", "<=", "!=", "-=", "*=", "&=", "|=",
      "<<="].any fun spelling => Ahead.symbol spelling ts

/-- A range behind its start. -/
def rangeExpression (g : Grammar) (structs : Bool) : Parser Unit := do
  let included ← rangeLimit false
  unless !included && rangeEndsAhead structs (← rest) do
    discard (rightOperand g structs .range)

/-- An expression that a keyword or a mark starts, the control structures apart. -/
def keywordExpression (g : Grammar) (structs : Bool) : Parser Expression := do
  let ts ← rest
  if Ahead.keyword "break" ts then breakExpression g structs
  else if Ahead.keyword "continue" ts then do
    keyword "continue"
    discard lifetime?
  else if Ahead.keyword "return" ts then resultExpression g "return"
  else if Ahead.keyword "yield" ts then resultExpression g "yield"
  else if Ahead.keyword "let" ts then patternTest g structs
  else keyword "_"
  pure .other

/-- An operand without anything in front of it or behind it. -/
def atom (g : Grammar) (structs : Bool) : Parser Expression := do
  let ts ← rest
  let second := Ahead.next ts
  if Ahead.literal ts then do
    literal
    pure .other
  else if Ahead.keyword "async" ts && (Ahead.opening .brace second ||
      (Ahead.keyword "move" second && Ahead.opening .brace (Ahead.next second))) then do
    keyword "async"
    discard (keyword? "move")
    block g
    pure .other
  else if closureAhead ts then do
    closure g structs
    pure .other
  else if builtinAhead ts then do
    builtinCall
    pure .asWritten
  else if Ahead.keyword "become" ts then do
    keyword "become"
    discard (g.expression true)
    pure .asWritten
  else if Ahead.pathStart ts || Ahead.symbol "<" ts || Ahead.keyword "Self" ts ||
      (Ahead.keyword "try" ts && (Ahead.symbol "!" second || Ahead.symbol "::" second)) then
    pathExpression g structs
  else if Ahead.opening .parenthesis ts then do
    discard (group .parenthesis (commas (g.expression true)))
    pure .other
  else if Ahead.opening .bracket ts then do
    arrayExpression g
    pure .other
  else if ← blockLike? g then pure .block
  else if Ahead.symbol ".." ts then do
    rangeExpression g structs
    pure .range
  else if Ahead.lifetime ts then do
    labeled g
    pure .block
  else keywordExpression g structs

/-! ## What stands behind an operand -/

/-- The parts of a number with a point that counts two fields, and whether the point ends it. -/
def splitFields (text : List Char) : List (List Char) × Bool :=
  let trailing := text.getLast? = some '.'
  let text := if trailing then text.dropLast else text
  let first := text.takeWhile (· != '.')
  match text.drop first.length with
  | _ :: second => ([first, second], trailing)
  | [] => ([first], trailing)

/-- A field, a method call or the end of an asynchronous call behind its point. -/
def member (g : Grammar) : Parser Unit := do
  if ← keyword? "await" then pure ()
  else
    let named ← fieldMember
    let generic ← if named && (← peek (Ahead.symbol "::")) then do
        discard (symbol? "::")
        printInBrackets (← argumentsInBrackets (genericArgument g))
        pure true
      else pure false
    if generic || (← peek (Ahead.opening .parenthesis)) then
      if named then discard (group .parenthesis (commas (g.expression true)))

/-- One or two fields that are written like one number. -/
def fieldPair (parts : List (List Char)) : Parser Unit := do
  match parts.mapM fieldIndex? with
  | some indices =>
    silently literal
    print (List.intersperse (.alone '.') (indices.map indexTree))
  | none => failure

/-- What follows a point behind an operand. -/
def afterPoint (g : Grammar) : Parser Unit := do
  symbol "."
  match ← rest with
  | .token (.literal text) :: _ =>
    -- Two fields one behind the other look like a number with a point in it.
    if isFractional text.toList then
      let (parts, trailing) := splitFields text.toList
      fieldPair parts
      if trailing then
        print [.alone '.']
        member g
    else member g
  | _ => member g

/-- The calls, indices and fields behind an operand. -/
def trailers (g : Grammar) (start : Expression) : Parser Expression :=
  repeating start fun operand => do
    let ts ← rest
    if Ahead.opening .parenthesis ts then
      discard (group .parenthesis (commas (g.expression true)))
      pure (.inl .other)
    else if Ahead.point ts && operand ≠ .range then
      afterPoint g
      pure (.inl .other)
    else if Ahead.opening .bracket ts then
      discard (group .bracket (g.expression true))
      pure (.inl .other)
    else if Ahead.symbol "?" ts && operand ≠ .range then
      symbol "?"
      pure (.inl .other)
    else pure (.inr operand)

/-- A reference to a place. -/
def referenceExpression (g : Grammar) (structs : Bool) : Parser Unit := do
  symbol "&"
  let ts ← rest
  if Ahead.keyword "raw" ts && Ahead.keywordIn ["mut", "const"] (Ahead.next ts) then
    discard word
    discard word
  else discard (keyword? "mut")
  discard (g.operand structs)

/-- An operand with the operators in front of it. -/
def operand (g : Grammar) (structs : Bool) : Parser Expression :=
  verbatimIf do
    let attributed ← operandAttributes g
    let ts ← rest
    if Ahead.symbol "&" ts then
      referenceExpression g structs
      pure (.other, false)
    else if Ahead.symbol "*" ts || Ahead.symbol "!" ts || Ahead.symbol "-" ts then
      symbol (if Ahead.symbol "*" ts then "*" else if Ahead.symbol "!" ts then "!" else "-")
      discard (g.operand structs)
      pure (.other, false)
    else
      let found ← trailers g (← atom g structs)
      require !(attributed && found = .range)
      pure (found, found = .asWritten)

/-! ## Binary operators -/

/-- Nothing may be called on or taken from a cast. -/
def castEnds (ts : List TokenTree) : Bool :=
  !(Ahead.point ts || Ahead.symbol "?" ts || Ahead.opening .bracket ts ||
    Ahead.opening .parenthesis ts)

/-- The type ends with a word that takes no arguments although it is part of a path. -/
def endsWithPlainWord (type : TypeTree) : Bool :=
  match type.trees.getLast? with
  | some last => Ahead.keywordIn ["super", "self", "crate", "try"] [last]
  | none => false

/-- A cast behind its left operand, which is all that is printed. In front of an operator that
starts with an opening angle bracket it stands in parentheses, if the end of its type could take
that bracket for arguments. -/
def castExpression (g : Grammar) : Parser Unit := do
  keyword "as"
  let type ← g.type false
  let ts ← rest
  require (castEnds ts)
  if endsWithPlainWord type && angleAhead ts then enclose

/-- The operators of at least a level behind a left operand, which is all that is printed. -/
def operators (g : Grammar) (structs : Bool) (level : Nat) (start : Expression) :
    Parser Expression :=
  repeating start fun left => do
    let ts ← rest
    -- No operator goes on with a range,
    if left = .range then pure (.inr left)
    else match binaryOperator? ts with
      | some (spelling, found) =>
        if found.strength < level then pure (.inr left)
        else
          -- and comparisons do not chain.
          require !(found = .comparison && left = .comparison)
          symbol spelling
          discard (rightOperand g structs found)
          pure (.inl (if found = .comparison then .comparison else .other))
      | none =>
        if level ≤ Level.assignment.strength && assignmentAhead ts then
          symbol "="
          discard (rightOperand g structs .assignment)
          pure (.inl .other)
        else if level ≤ Level.range.strength && Ahead.symbol ".." ts then
          rangeExpression g structs
          pure (.inl .range)
        else if level ≤ Level.cast.strength && Ahead.keyword "as" ts then
          castExpression g
          pure (.inl .other)
        else pure (.inr left)

/-- An expression. -/
def expression (g : Grammar) (structs : Bool) : Parser Expression :=
  afresh do
    let left ← g.operand structs
    g.operators structs Level.lowest.strength left

/-- An expression that a control structure or a block at its start ends, unless something is taken
from it or called on it right behind. Gives its first operand and the whole of it. -/
def endedByBlock (g : Grammar) : Parser (Expression × Expression) := do
  let ts ← rest
  let start ←
    if ← blockLike? g then pure .block
    else if Ahead.lifetime ts then do
      labeled g
      pure .block
    else g.operand true
  let ts ← rest
  let start ←
    -- Something is taken from the block, so it does not end the expression.
    if start = .block && (Ahead.point ts || Ahead.symbol "?" ts) then trailers g start
    else pure start
  if start = .block then pure (start, start)
  else pure (start, ← g.operators true Level.lowest.strength start)

/-- An expression that a block at its start ends. Attributes in front of it belong to its first
operand, which loses them if it is printed as it is written; those of a range, which a statement
may be as a whole, stand in front of parentheses. -/
def leading (g : Grammar) (inStatement : Bool) : Parser Expression := do
  let ((), attributes) ← captured (outerAttributes g)
  let ((start, whole), trees) ← captured (endedByBlock g)
  let attributed := if inStatement then whole else start
  if start = .asWritten && attributed ≠ .range then print trees
  else printAttributed attributes trees (attributed = .range)
  pure whole

end UnitLoader.Syntax
