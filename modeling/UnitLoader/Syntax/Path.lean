import UnitLoader.Syntax.Attribute

/-!
# Paths and bounds

Generic parameters, paths with generic arguments, and the bounds that types are held to.
-/

namespace UnitLoader.Syntax

open UnitLoader.Syntax.Parser

/-- An argument that is a constant: a literal, a name or a block. -/
def constArgument (g : Grammar) : Parser Unit := do
  let ts ← rest
  if Ahead.literal ts then literal
  else if Ahead.name ts then discard name
  else body g

/-- The type behind an arrow. -/
def returnType (g : Grammar) (plus : Bool) : Parser (Option TypeTree) := do
  if ← symbol? "->" then some <$> g.type plus else pure none

/-! ## Arguments and parameters in angle brackets -/

/-- What stands between angle brackets: the lifetime that it is, if it is one, the trees it is
written by, and whether a comma follows it. -/
structure Argument where
  lifetime : Option Name
  trees : List TokenTree
  hasComma : Bool

/-- The argument is a lifetime. -/
def Argument.isLifetime (a : Argument) : Bool := a.lifetime.isSome

/-- A comma, if there is one. -/
def commaIf (has : Bool) : List TokenTree := if has then [.alone ','] else []

/-- The trees of arguments. Lifetimes are written in front of the others, with a comma between
the two kinds. -/
def Argument.arrange (arguments : List Argument) : List TokenTree :=
  let lifetimes := arguments.filter (·.isLifetime)
  let front := lifetimes.flatMap fun a => a.trees ++ commaIf a.hasComma
  -- The last lifetime may have been written last of all, without a comma.
  let closed := (lifetimes.getLast?.map (·.hasComma)).getD true
  let step := fun (state : List TokenTree × Bool) (a : Argument) =>
    (state.1 ++ commaIf (!state.2) ++ a.trees ++ commaIf a.hasComma, a.hasComma)
  ((arguments.filter (!·.isLifetime)).foldl step (front, closed)).1

/-- Arguments up to a closing angle bracket, which are not printed. The parser of one gives the
lifetime that it is, if it is one. -/
def argumentsInBrackets (argument : Parser (Option Name)) : Parser (List Argument) := do
  silently (symbol "<")
  let arguments ← repeating [] fun taken => do
    if ← peek (Ahead.symbol ">") then pure (.inr taken.reverse)
    else
      let (lifetime, trees) ← captured argument
      if ← peek (Ahead.symbol ">") then pure (.inr (⟨lifetime, trees, false⟩ :: taken).reverse)
      else
        silently (symbol ",")
        pure (.inl (⟨lifetime, trees, true⟩ :: taken))
  silently (symbol ">")
  pure arguments

/-- Prints arguments in angle brackets. -/
def printInBrackets (arguments : List Argument) : Parser Unit :=
  print (.alone '<' :: Argument.arrange arguments ++ [.alone '>'])

/-- Bounds behind a colon, if one stands here, up to one of the ends. A colon without bounds is not
printed. Tells whether there is a colon. -/
def boundsBehindColon {α : Type} (ended : List TokenTree → Bool) (bound : Parser α) :
    Parser Bool := do
  if ← silently (symbol? ":") then
    let (held, trees) ← captured (separatedUntil ended "+" bound)
    unless held.isEmpty do print (.alone ':' :: trees)
    pure true
  else pure false

/-- A lifetime parameter with its bounds. -/
def lifetimeParam : Parser Name := do
  let n ← lifetime
  let ended := fun ts => ts.isEmpty || Ahead.symbol "," ts || Ahead.symbol ">" ts
  discard (boundsBehindColon ended lifetime)
  pure n

/-- A type parameter with its bounds and its default. -/
def typeParam (g : Grammar) : Parser Unit := do
  discard name
  let ended := fun ts =>
    ts.isEmpty || Ahead.symbol "," ts || Ahead.symbol ">" ts || Ahead.symbol "=" ts
  discard (boundsBehindColon ended (g.bound false true))
  if ← symbol? "=" then discard (g.type true)

/-- A constant parameter with its type and its default. -/
def constParam (g : Grammar) : Parser Unit := do
  keyword "const"
  discard name
  symbol ":"
  discard (g.type true)
  if ← symbol? "=" then constArgument g

/-- A parameter of a generic item; with `anonymous`, an underscore may stand for one. -/
def genericParam (g : Grammar) (anonymous : Bool) : Parser GenericParam := do
  outerAttributes g
  let ts ← rest
  if Ahead.lifetime ts then .lifetime <$> lifetimeParam
  else if Ahead.name ts then do typeParam g; pure .other
  else if Ahead.keyword "const" ts then do constParam g; pure .other
  else do
    require anonymous
    keyword "_"
    pure .other

/-- The parameters of a generic item, if it has any. Angle brackets around nothing are not
printed. -/
def generics (g : Grammar) : Parser (List GenericParam) := do
  if ← peek (Ahead.symbol "<") then
    let params ← argumentsInBrackets (GenericParam.lifetime? <$> genericParam g true)
    unless params.isEmpty do printInBrackets params
    pure (params.map fun param => .ofLifetime? param.lifetime)
  else pure []

/-- The lifetimes that a bound introduces, if there are any. -/
def boundLifetimes? (g : Grammar) : Parser Bool := do
  if ← keyword? "for" then
    symbol "<"
    discard (separatedUntil (Ahead.symbol ">") "," (genericParam g false))
    symbol ">"
    pure true
  else pure false

/-- What may stand behind the name of an associated item in angle brackets: its value or its
bounds. -/
def associated (g : Grammar) : Parser Unit := do
  if ← symbol? "=" then
    let ts ← rest
    if Ahead.literal ts || Ahead.opening .brace ts then constArgument g
    else discard (g.type true)
  else if ← symbol? ":" then
    let stop := fun ts => Ahead.symbol "," ts || Ahead.symbol ">" ts
    discard (separatedUntil stop "+" (g.bound false true))

/-- An argument in angle brackets; gives the lifetime that it is, if it is one. -/
def genericArgument (g : Grammar) : Parser (Option Name) := do
  let ts ← rest
  -- In front of a plus sign a lifetime is the first bound of a trait object.
  if Ahead.lifetime ts && !Ahead.symbol "+" (Ahead.next ts) then some <$> lifetime
  else if Ahead.literal ts || Ahead.opening .brace ts then do constArgument g; pure none
  else
    match (← g.type true).path? with
    -- A single name may be that of an associated item.
    | some ⟨false, [_]⟩ => associated g
    | _ => pure ()
    pure none

/-- Arguments in angle brackets behind a part of a path. -/
def angledArguments (g : Grammar) : Parser PathArguments := do
  let separated ← symbol? "::"
  let arguments ← argumentsInBrackets (genericArgument g)
  printInBrackets arguments
  pure (.angled arguments.isEmpty separated)

/-- Arguments in parentheses, with the type behind an arrow. -/
def parenthesizedArguments (g : Grammar) : Parser Unit := do
  discard (group .parenthesis (commas (g.type true)))
  discard (returnType g false)

/-! ## Paths -/

/-- The arguments are none, so that arguments in parentheses may take their place. -/
def PathArguments.isVacant : PathArguments → Bool
  | .none => true
  | .angled isEmpty _ => isEmpty

/-- The arguments of the last part of a path. -/
def Path.lastArguments (p : Path) : PathArguments :=
  (p.segments.getLast?.map (·.arguments)).getD .none

/-- Parentheses for arguments stand in front, perhaps behind a path separator. -/
def parenthesesAhead (ts : List TokenTree) : Bool :=
  Ahead.opening .parenthesis ts ||
    (Ahead.symbol "::" ts && Ahead.opening .parenthesis (Ahead.next2 ts))

/-- Drops the trees printed last. -/
def unprint (count : Nat) : Parser Unit := reprint (·.drop count)

/-- Arguments in parentheses in the place of vacant ones; neither those nor a separator in front
are printed. -/
def replaceArguments (g : Grammar) (vacant : PathArguments) : Parser Unit := do
  match vacant with
  | .angled true separated => unprint (if separated then 4 else 2)
  | _ => pure ()
  discard (silently (symbol? "::"))
  parenthesizedArguments g

/-- An opening angle bracket stands in front, and not an operator that compares or assigns. -/
def angleAhead (ts : List TokenTree) : Bool :=
  Ahead.symbol "<" ts && !Ahead.symbol "<=" ts && !Ahead.symbol "<<=" ts

/-- A part of a path. In an expression a separator has to stand in front of angle brackets. -/
def pathSegment (g : Grammar) (inExpression : Bool) : Parser PathSegment := do
  if ← peek (Ahead.keywordIn ["super", "self", "crate", "try"]) then
    return ⟨← word, .none⟩
  let n ← if ← peek (Ahead.keyword "Self") then word else name
  let ts ← rest
  if (!inExpression && angleAhead ts) ||
      (Ahead.symbol "::" ts && Ahead.symbol "<" (Ahead.next2 ts)) then
    return ⟨n, ← angledArguments g⟩
  return ⟨n, .none⟩

/-- The further parts of a path, up to a separator in front of parentheses. -/
def pathRest (g : Grammar) (inExpression : Bool) (start : Path) : Parser Path :=
  repeating start fun p => do
    let ts ← rest
    if Ahead.symbol "::" ts && !Ahead.opening .parenthesis (Ahead.next2 ts) then
      symbol "::"
      let segment ← pathSegment g inExpression
      pure (.inl { p with segments := p.segments ++ [segment] })
    else pure (.inr p)

/-- A path. -/
def path (g : Grammar) (inExpression : Bool) : Parser Path := do
  let isGlobal ← symbol? "::"
  let first ← pathSegment g inExpression
  pathRest g inExpression ⟨isGlobal, [first]⟩

/-- The parts of a path behind the type it is relative to. -/
def relativeParts (g : Grammar) (inExpression : Bool) : Parser (List PathSegment) :=
  repeating [] fun taken => do
    let segment ← pathSegment g inExpression
    if ← symbol? "::" then pure (.inl (segment :: taken))
    else pure (.inr (segment :: taken).reverse)

/-- A path that may be relative to a type, in angle brackets; tells whether it is. -/
def qualifiedPath (g : Grammar) (inExpression : Bool) : Parser (Bool × Path) := do
  if ← symbol? "<" then
    discard (g.type true)
    if ← keyword? "as" then discard (path g false)
    symbol ">"
    symbol "::"
    pure (true, ⟨true, ← relativeParts g inExpression⟩)
  else pure (false, ← path g inExpression)

/-! ## Bounds -/

/-- A trait that a type is held to; tells whether it is marked as constant. -/
def traitBound (g : Grammar) (constant : Bool) : Parser Bool := do
  let early ← boundLifetimes? g
  let ts ← rest
  let conditional := Ahead.opening .bracket ts
  let unconditional := Ahead.keyword "const" ts
  if conditional then group .bracket (keyword "const")
  else if unconditional then keyword "const"
  require (constant || !(conditional || unconditional))
  let maybe ← symbol? "?"
  let late ← if !early && maybe then boundLifetimes? g else pure false
  let p ← path g false
  if p.lastArguments.isVacant && parenthesesAhead (← rest) then
    replaceArguments g p.lastArguments
  -- Lifetimes and a question mark exclude each other.
  require !((early || late) && maybe)
  pure (conditional || unconditional)

/-- The list of captured parameters. -/
def captures : Parser Unit := do
  keyword "use"
  let params ← argumentsInBrackets do
    let ts ← rest
    if Ahead.lifetime ts then some <$> lifetime
    else do
      require (Ahead.name ts || Ahead.keyword "Self" ts)
      discard word
      pure none
  printInBrackets params

/-- A bound. One that is marked as constant is printed as it is written. -/
def bound (g : Grammar) (capture constant : Bool) : Parser Bound := do
  let ts ← rest
  if Ahead.lifetime ts then do discard lifetime; pure .lifetime
  else if Ahead.keyword "use" ts then do
    captures
    require capture
    pure .capture
  else
    let trait :=
      if Ahead.opening .parenthesis ts then group .parenthesis (traitBound g constant)
      else traitBound g constant
    verbatimIf ((.trait, ·) <$> trait)

/-- Another bound may start here. -/
def boundAhead (constant : Bool) (ts : List TokenTree) : Bool :=
  Ahead.word ts || Ahead.symbol "::" ts || Ahead.symbol "?" ts || Ahead.lifetime ts ||
    Ahead.opening .parenthesis ts || (constant && Ahead.opening .bracket ts)

/-- Bounds that are part of a type: one, or with `plus` several. Tells for each what it is, and
whether a plus sign stands behind the last one. -/
def bounds (g : Grammar) (plus capture constant : Bool) : Parser (List Bound × Bool) :=
  repeating [] fun taken => do
    let taken := (← g.bound capture constant) :: taken
    if plus && (← peek (Ahead.symbol "+")) then
      symbol "+"
      if ← peek (boundAhead constant) then pure (.inl taken)
      else pure (.inr (taken.reverse, true))
    else pure (.inr (taken.reverse, false))

/-- Generic parameters stand in front, and not a path that is relative to a type. -/
def genericsAhead (ts : List TokenTree) : Bool :=
  let second := Ahead.next ts
  let third := Ahead.next2 ts
  Ahead.symbol "<" ts &&
    (Ahead.symbol ">" second || Ahead.symbol "#" second ||
      ((Ahead.lifetime second || Ahead.name second) &&
        (Ahead.symbol ">" third || Ahead.symbol "," third || Ahead.colon third ||
          Ahead.symbol "=" third)) ||
      Ahead.keyword "const" second)

/-- A list of conditions or bounds ends here. -/
def conditionsEnd (ts : List TokenTree) : Bool :=
  ts.isEmpty || Ahead.opening .brace ts || Ahead.symbol "," ts || Ahead.symbol ";" ts ||
    Ahead.colon ts || Ahead.symbol "=" ts

/-- What a type or a lifetime is held to. -/
def condition (g : Grammar) : Parser Unit := do
  let ts ← rest
  if Ahead.lifetime ts && Ahead.symbol ":" (Ahead.next ts) then
    discard lifetime
    symbol ":"
    let ended := fun ts => conditionsEnd ts || Ahead.symbol ":" ts
    discard (separatedUntil ended "+" lifetime)
  else
    discard (boundLifetimes? g)
    discard (g.type true)
    symbol ":"
    discard (separatedUntil conditionsEnd "+" (g.bound false true))

/-- The conditions behind `where`, if it stands here. The word is not printed without any. -/
def whereClause? (g : Grammar) : Parser Bool := do
  if ← silently (keyword? "where") then
    -- Conditions have no parameters of their own.
    require !genericsAhead (← rest)
    let (conditions, trees) ← captured (separatedUntil conditionsEnd "," (condition g))
    unless conditions.isEmpty do print (.word ⟨"where", false, by decide⟩ :: trees)
    pure true
  else pure false

end UnitLoader.Syntax
