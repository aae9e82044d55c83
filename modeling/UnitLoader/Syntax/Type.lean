import UnitLoader.Syntax.Path

/-!
# Types
-/

namespace UnitLoader.Syntax

open UnitLoader.Syntax.Parser

/-- Makes a type from the trees it is written by. -/
abbrev TypeShape := List TokenTree → TypeTree

/-- The string literal behind `extern`. -/
def abi? : Parser Bool := do
  if ← keyword? "extern" then
    if ← peek Ahead.string then literal
    pure true
  else pure false

/-- A mutable instance parameter starts here. -/
def mutSelfAhead (ts : List TokenTree) : Bool :=
  Ahead.keyword "mut" ts && Ahead.keyword "self" (Ahead.next ts)

/-- A parameter of a function type. The first one may be an instance parameter without a type, and
a mutable one is printed as it is written. -/
def functionTypeParam (g : Grammar) (isFirst : Bool) : Parser Unit := do
  outerAttributes g
  verbatimIf do
    let isMutable := isFirst && mutSelfAhead (← rest)
    if isMutable then keyword "mut"
    let ts ← rest
    let ofSelf := isFirst && Ahead.keyword "self" ts
    let isNamed := (Ahead.name ts || Ahead.keyword "_" ts || ofSelf) && Ahead.colon (Ahead.next ts)
    if isNamed then
      discard word
      symbol ":"
    if isFirst && !(isNamed && ofSelf) && mutSelfAhead (← rest) then
      keyword "mut"
      keyword "self"
      pure ((), true)
    else if isMutable && !isNamed then
      keyword "self"
      pure ((), true)
    else
      discard (g.type true)
      pure ((), isMutable)

/-- The parameters of a function type: those before a variadic one, and the variadic one. -/
def functionTypeParams (g : Grammar) : Parser Unit :=
  repeating true fun isFirst => do
    if ← atEnd then pure (.inr ())
    else
      outerAttributes g
      let ts ← rest
      let second := Ahead.next ts
      if Ahead.symbol "..." ts ||
          ((Ahead.name ts || Ahead.keyword "_" ts) && Ahead.symbol ":" second &&
            Ahead.symbol "..." (Ahead.next second)) then
        unless Ahead.symbol "..." ts do
          discard word
          symbol ":"
        symbol "..."
        discard (symbol? ",")
        pure (.inr ())
      else
        functionTypeParam g isFirst
        if ← atEnd then pure (.inr ())
        else do
          symbol ","
          pure (.inl false)

/-- A function type. -/
def functionType (g : Grammar) : Parser Unit := do
  discard (boundLifetimes? g)
  discard (keyword? "unsafe")
  discard abi?
  keyword "fn"
  group .parenthesis (functionTypeParams g)
  discard (returnType g false)

/-- The bounds of a trait object, one of which has to be a trait; tells whether there is exactly
one bound and nothing behind it. -/
def objectBounds (g : Grammar) (plus : Bool) : Parser Bool := do
  let (held, open') ← bounds g plus false false
  require (held.contains .trait)
  pure (held.length == 1 && !open')

/-- A trait object that may be marked. -/
def objectType (g : Grammar) : Parser TypeShape := do
  let marked ← keyword? "dyn"
  return .object marked (← objectBounds g true)

/-- Further bounds behind the first one, which stands in parentheses. -/
def furtherBounds (g : Grammar) : Parser Bool :=
  repeating true fun single => do
    if ← symbol? "+" then
      discard (g.bound false false)
      pure (.inl false)
    else pure (.inr single)

/-- What parentheses hold: a tuple, or one type. -/
def insideParentheses (g : Grammar) : Parser (Option TypeTree) := do
  let first ← g.type true
  if ← symbol? "," then do
    discard (commas (g.type true))
    pure none
  else pure (some first)

/-- A type in parentheses: a tuple, a bound of a trait object, or a type by itself. -/
def parenthesizedType (g : Grammar) (plus : Bool) (content : List TokenTree) :
    Parser TypeShape := do
  if content.isEmpty then
    discard anyGroup
    return .other
  -- What starts like this, or with a question mark, can only be a bound.
  if Ahead.lifetime content then
    discard (group .parenthesis (objectType g))
    return .parenthesized
  if Ahead.symbol "?" content then
    discard (group .parenthesis (traitBound g false))
    return .object false (← furtherBounds g)
  match ← group .parenthesis (insideParentheses g) with
  | none => return .other
  | some first =>
    let isBound := match first with
      | .object false true _ => true
      | _ => first.path?.isSome
    -- In front of a plus sign a path in parentheses was a bound, and no type.
    if plus && isBound && (← peek (Ahead.symbol "+")) then
      return .object false (← furtherBounds g)
    return .parenthesized

/-- The bounds behind a path that turn it into a trait object. -/
def pathBounds (g : Grammar) : Parser Bool :=
  repeating true fun single => do
    if ← symbol? "+" then
      if ← peek (boundAhead false) then
        discard (g.bound false false)
        pure (.inl false)
      else pure (.inr false)
    else pure (.inr single)

/-- A type that starts with a path: the path, a macro call, or a trait object; `introduced` if
lifetimes stand in front. -/
def namedType (g : Grammar) (plus introduced : Bool) : Parser TypeShape := do
  let (qualified, p) ← qualifiedPath g false
  if qualified then return .path true p
  if p.isPlain && (← peek Ahead.bang) then
    discard macroArguments
    return .other
  -- Behind lifetimes, and in front of a plus sign, the path is a bound of a trait object.
  if introduced || (plus && (← peek (Ahead.symbol "+"))) then
    return .object false (← if plus then pathBounds g else pure true)
  return .ofPath p

/-- The pointed-to type of a pointer. -/
def pointerType (g : Grammar) : Parser TypeShape := do
  symbol "*"
  unless ← keyword? "const" do keyword "mut"
  discard (g.type false)
  return .other

/-- A reference. -/
def referenceType (g : Grammar) : Parser TypeShape := do
  symbol "&"
  let lifetime ← lifetime?
  let isMutable ← keyword? "mut"
  let element ← g.type false
  return fun _ => .reference lifetime isMutable element

/-- An array or a slice. -/
def arrayType (g : Grammar) : Parser TypeShape := do
  group .bracket do
    discard (g.type true)
    if ← symbol? ";" then discard (g.expression true)
  return .other

/-- A marked trait object. -/
def markedObject (g : Grammar) (plus : Bool) : Parser TypeShape := do
  let object : Parser Bool := do
    keyword "dyn"
    discard (symbol? "*")
    objectBounds g plus
  -- With a star behind the mark the whole is printed as it is written.
  if Ahead.symbol "*" (Ahead.next (← rest)) then
    discard (verbatim object)
    return .other
  return .object true (← object)

/-- A type that only its bounds are told of. -/
def opaqueType (g : Grammar) (plus : Bool) : Parser TypeShape := do
  keyword "impl"
  let (held, _) ← bounds g plus true true
  require (held.contains .trait)
  return .other

/-- A type behind the lifetimes that it introduces, if there are any. -/
def typeBehindLifetimes (g : Grammar) (plus introduced : Bool) : Parser TypeShape := do
  let ts ← rest
  match ts with
  | .group .parenthesis content _ :: _ => parenthesizedType g plus content
  | .group .bracket _ _ :: _ => arrayType g
  | _ =>
    if Ahead.keywordIn ["fn", "unsafe", "extern"] ts then
      functionType g
      return .other
    else if Ahead.pathStart ts || Ahead.keyword "Self" ts || Ahead.symbol "<" ts then
      namedType g plus introduced
    else if Ahead.keyword "dyn" ts then markedObject g plus
    else if Ahead.symbol "*" ts then pointerType g
    else if Ahead.symbol "&" ts then referenceType g
    else if Ahead.symbol "!" ts then do
      symbol "!"
      return .other
    else if Ahead.keyword "impl" ts then opaqueType g plus
    else if Ahead.keyword "_" ts then do
      keyword "_"
      return .other
    else if Ahead.lifetime ts then objectType g
    else failure

/-- A type. A call of something built into the compiler is printed as it is written. -/
def typeShape (g : Grammar) (plus : Bool) : Parser TypeShape :=
  verbatimIf do
    let introduced ← boundLifetimes? g
    let ts ← rest
    if introduced then
      require (Ahead.name ts ||
        Ahead.keywordIn ["fn", "unsafe", "extern", "super", "self", "Self", "crate"] ts)
    if builtinAhead ts then
      builtinCall
      return (.other, true)
    return (← typeBehindLifetimes g plus introduced, false)

/-- A type, with the trees it is written by. -/
def type (g : Grammar) (plus : Bool) : Parser TypeTree := do
  let (shape, trees) ← captured (typeShape g plus)
  print trees
  pure (shape trees)

end UnitLoader.Syntax
