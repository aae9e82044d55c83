import UnitLoader.Syntax.Path

/-!
# Patterns
-/

namespace UnitLoader.Syntax

open UnitLoader.Syntax.Parser

/-- The end of a range: whether it is included. Three points are an old spelling of an included
end. -/
def rangeLimit (oldSpelling : Bool) : Parser Bool := do
  let ts ← rest
  if Ahead.symbol "..=" ts then do symbol "..="; pure true
  else if Ahead.symbol "..." ts then do
    require oldSpelling
    symbolAs "..." "..="
    pure true
  else do
    symbol ".."
    pure false

/-- An alternative of a pattern may follow. -/
def alternativeAhead (ts : List TokenTree) : Bool :=
  Ahead.symbol "|" ts && !Ahead.symbol "||" ts && !Ahead.symbol "|=" ts

/-- A pattern with alternatives. -/
def alternatives (g : Grammar) : Parser Pattern := do
  let leading ← symbol? "|"
  let first ← g.pattern
  if leading || alternativeAhead (← rest) then
    repeating () fun _ => do
      if alternativeAhead (← rest) then
        symbol "|"
        discard g.pattern
        pure (.inl ())
      else pure (.inr ())
    pure .other
  else pure first

/-- The end of a range in a pattern, if it has one. -/
def rangeBound (g : Grammar) : Parser Bool := do
  let ts ← rest
  if ts.isEmpty || Ahead.symbol "|" ts || Ahead.symbol "=" ts || Ahead.colon ts ||
      Ahead.symbol "," ts || Ahead.symbol ";" ts || Ahead.keyword "if" ts then
    pure false
  else if Ahead.literal ts then do literal; pure true
  else if Ahead.pathStart ts || Ahead.symbol "<" ts || Ahead.keyword "Self" ts then do
    discard (qualifiedPath g true)
    pure true
  else do
    keyword "const"
    body g
    pure true

/-- What follows the start of a range. -/
def rangeFrom (g : Grammar) : Parser Pattern := do
  let included ← rangeLimit true
  let bounded ← rangeBound g
  require (bounded || !included)
  pure (if bounded then .range else .openRange)

/-- A range without a start, or two points alone. -/
def rangeTo (g : Grammar) : Parser Pattern := do
  let included ← rangeLimit false
  let bounded ← rangeBound g
  require (bounded || !included)
  pure (if bounded then .openRange else .rest)

/-- The tree of the number of a field, which is printed in decimal digits. -/
def indexTree (index : Nat) : TokenTree := .token (.literal (toString index))

/-- The name or the number of a field; tells whether it is a name. -/
def fieldMember : Parser Bool := do
  match ← rest with
  | .token (.literal text) :: _ =>
    match fieldIndex? text.toList with
    | some index =>
      silently literal
      print [indexTree index]
      pure false
    | none => failure
  | _ =>
    discard name
    pure true

/-- The pattern of a field. -/
def fieldPattern (g : Grammar) : Parser Unit := do
  let boxed ← keyword? "box"
  let byRef ← keyword? "ref"
  let isMutable ← keyword? "mut"
  if boxed || byRef || isMutable then discard name
  else
    let named ← fieldMember
    if !named || (← peek (Ahead.symbol ":")) then
      symbol ":"
      discard (alternatives g)

/-- The fields of a structure's pattern. -/
def structurePattern (g : Grammar) : Parser Unit :=
  group .brace <| repeating () fun _ => do
    if ← atEnd then pure (.inr ())
    else
      outerAttributes g
      if ← symbol? ".." then pure (.inr ())
      else
        fieldPattern g
        if ← atEnd then pure (.inr ())
        else do
          symbol ","
          pure (.inl ())

/-- A pattern that starts with a path. -/
def pathPattern (g : Grammar) : Parser Pattern := do
  let (qualified, p) ← qualifiedPath g true
  let ts ← rest
  if !qualified && Ahead.bang ts && p.isPlain then do
    discard macroArguments
    pure .other
  else if Ahead.opening .brace ts then do
    structurePattern g
    pure .other
  else if Ahead.opening .parenthesis ts then do
    discard (group .parenthesis (commas (alternatives g)))
    pure .other
  else if Ahead.symbol ".." ts then rangeFrom g
  else pure .other

/-- A pattern that starts with a literal or a constant block. -/
def literalPattern (g : Grammar) : Parser Pattern := do
  require (← rangeBound g)
  if ← peek (Ahead.symbol "..") then rangeFrom g else pure .other

/-- A pattern that binds a name. -/
def bindingPattern (g : Grammar) : Parser Pattern := do
  discard (keyword? "ref")
  discard (keyword? "mut")
  let n ← if ← peek (Ahead.keyword "self") then word else name
  if ← symbol? "@" then discard g.pattern
  pure (.binding n)

/-- The elements of a slice; a range in it has both ends or stands in parentheses. -/
def slicePattern (g : Grammar) : Parser Unit :=
  group .bracket <| discard <| commas do
    let element ← alternatives g
    require (element ≠ .openRange)

/-- A pattern starts with a path. -/
def pathPatternAhead (ts : List TokenTree) : Bool :=
  let second := Ahead.next ts
  (Ahead.name ts &&
    (Ahead.symbol "::" second || Ahead.symbol "!" second || Ahead.opening .brace second ||
      Ahead.opening .parenthesis second || Ahead.symbol ".." second)) ||
    (Ahead.keyword "self" ts && Ahead.symbol "::" second) ||
    Ahead.symbol "::" ts || Ahead.symbol "<" ts || Ahead.keywordIn ["Self", "super", "crate"] ts

/-- A pattern without alternatives. One behind `box` is printed as it is written. -/
def pattern (g : Grammar) : Parser Pattern := do
  let ts ← rest
  if pathPatternAhead ts then pathPattern g
  else if Ahead.keyword "_" ts then do
    keyword "_"
    pure .other
  else if Ahead.keyword "box" ts then
    verbatim do
      keyword "box"
      discard g.pattern
      pure .boxed
  else if Ahead.symbol "-" ts || Ahead.literal ts || Ahead.keyword "const" ts then
    literalPattern g
  else if Ahead.keywordIn ["ref", "mut", "self"] ts || Ahead.name ts then bindingPattern g
  else if Ahead.symbol "&" ts then do
    symbol "&"
    discard (keyword? "mut")
    discard g.pattern
    pure .other
  else if Ahead.opening .parenthesis ts then do
    discard (group .parenthesis (commas (alternatives g)))
    pure .other
  else if Ahead.opening .bracket ts then do
    slicePattern g
    pure .other
  else if Ahead.symbol ".." ts && !Ahead.symbol "..." ts then rangeTo g
  else failure

end UnitLoader.Syntax
