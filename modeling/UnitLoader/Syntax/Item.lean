import UnitLoader.Syntax.Function
import UnitLoader.Syntax.Statement

/-!
# Items

An item that is not analysed further, such as a constant without a value, is printed as it is
written. The parsers of the parts that decide this tell what they found.
-/

namespace UnitLoader.Syntax

open UnitLoader.Syntax.Parser

/-! ## Declarations of types -/

/-- A field with its name; the name may be an underscore in front of nested fields, which are
printed as they are written. -/
def namedField (g : Grammar) (nested : Parser Unit) : Parser Unit := do
  outerAttributes g
  discard visibility
  let anonymous ← peek (Ahead.keyword "_")
  discard (if anonymous then word else name)
  symbol ":"
  let ts ← rest
  if anonymous && (Ahead.keyword "struct" ts ||
      (Ahead.keyword "union" ts && Ahead.opening .brace (Ahead.next ts))) then
    verbatim do
      discard word
      nested
  else discard (g.type true)

/-- Fields in braces, nested at most `depth` deep. -/
def namedFieldsUpTo (g : Grammar) : Nat → Parser Unit
  | 0 => failure
  | depth + 1 => group .brace (discard (commas (namedField g (namedFieldsUpTo g depth))))

/-- Fields in braces. -/
def namedFields (g : Grammar) : Parser Unit := do
  namedFieldsUpTo g (TokenTree.sizeAll (← rest) + 1)

/-- Fields in parentheses. -/
def positionalFields (g : Grammar) : Parser Unit :=
  group .parenthesis <| discard <| commas do
    outerAttributes g
    discard visibility
    discard (g.type true)

/-- A structure behind its visibility. -/
def structItem (g : Grammar) : Parser Item := do
  keyword "struct"
  let n ← name
  let params ← generics g
  let conditioned ← whereClause? g
  let ts ← rest
  -- Conditions stand behind fields in parentheses, and in front of fields in braces.
  if !conditioned && Ahead.opening .parenthesis ts then
    positionalFields g
    discard (whereClause? g)
    symbol ";"
  else if Ahead.opening .brace ts then namedFields g
  else symbol ";"
  pure (.declaration n params)

/-- A variant of an enumeration. Its visibility is not printed. -/
def variant (g : Grammar) : Parser Unit := do
  outerAttributes g
  discard (silently visibility)
  discard name
  let ts ← rest
  if Ahead.opening .brace ts then namedFields g
  else if Ahead.opening .parenthesis ts then positionalFields g
  if ← symbol? "=" then discard (g.expression true)

/-- An enumeration behind its visibility. -/
def enumItem (g : Grammar) : Parser Item := do
  keyword "enum"
  let n ← name
  let params ← generics g
  discard (whereClause? g)
  discard (group .brace (commas (variant g)))
  pure (.declaration n params)

/-- A union behind its visibility. -/
def unionItem (g : Grammar) : Parser Item := do
  keyword "union"
  let n ← name
  let params ← generics g
  discard (whereClause? g)
  namedFields g
  pure (.declaration n params)

/-! ## Parts that several kinds of items have -/

/-- Where the conditions of a type alias stand. -/
inductive WherePlace where
  | beforeValue
  | afterValue
  | both
  deriving DecidableEq

/-- The parts that a type alias may have or lack. -/
structure AliasParts where
  hasBounds : Bool
  hasValue : Bool

/-- A type alias behind its visibility; every part but the name may be missing. -/
def typeAlias (g : Grammar) (place : WherePlace) : Parser AliasParts := do
  keyword "type"
  discard name
  discard (generics g)
  let ended := fun ts =>
    Ahead.keyword "where" ts || Ahead.symbol "=" ts || Ahead.symbol ";" ts
  let hasBounds ← boundsBehindColon ended (g.bound false true)
  let early ← if place = .afterValue then pure false else whereClause? g
  let hasValue ← symbol? "="
  if hasValue then discard (g.type true)
  if place ≠ .beforeValue && !early then discard (whereClause? g)
  symbol ";"
  pure ⟨hasBounds, hasValue⟩

/-- The alias gives a type and no bounds. -/
def AliasParts.areUsual (parts : AliasParts) : Bool := parts.hasValue && !parts.hasBounds

/-- The parts that a constant may have or lack. -/
structure ConstantParts where
  isGeneric : Bool
  hasValue : Bool
  hasConditions : Bool

/-- A constant; its name may be an underscore. -/
def constant (g : Grammar) : Parser ConstantParts := do
  keyword "const"
  let ts ← rest
  require (Ahead.name ts || Ahead.keyword "_" ts)
  discard word
  let isGeneric ← peek (Ahead.symbol "<")
  discard (generics g)
  symbol ":"
  discard (g.type true)
  let hasValue ← symbol? "="
  if hasValue then discard (g.expression true)
  let hasConditions ← whereClause? g
  symbol ";"
  pure ⟨isGeneric, hasValue, hasConditions⟩

/-- The constant has no parameters and no conditions. -/
def ConstantParts.arePlain (parts : ConstantParts) : Bool :=
  !parts.isGeneric && !parts.hasConditions

/-- The constant has a value, and neither parameters nor conditions. -/
def ConstantParts.areUsual (parts : ConstantParts) : Bool := parts.arePlain && parts.hasValue

/-- A macro call that stands as an item: a semicolon has to follow unless it is in braces. -/
def macroItem (named : Bool) : Parser Unit := do
  discard plainPath
  symbol "!"
  if named then
    let ts ← rest
    if Ahead.keyword "try" ts || Ahead.name ts then discard word
  let delimiter ← anyGroup
  if delimiter ≠ .brace then symbol ";"

/-! ## Implementations -/

/-- A function of an implementation, if it has a body. -/
def implFunction (g : Grammar) : Parser (Option Method) := do
  let seen ← visibility
  discard (keyword? "default")
  let head ← signature g false
  if ← symbol? ";" then pure none
  else
    body g
    pure (some ⟨seen, head⟩)

/-- A part of an implementation behind its attributes, and whether it is printed as it is
written. -/
def implPartBody (g : Grammar) : Parser (Option Method × Bool) := do
  let start ← rest
  -- The visibility is looked at here, and parsed by the part that it belongs to.
  let (seen, behind) := ((do
      let seen ← visibility
      pure (seen, ← rest) : Parser _).run ⟨start, []⟩).map Prod.fst |>.getD (.inherited, start)
  let isDefault := Ahead.keyword "default" behind && !Ahead.symbol "!" (Ahead.next behind)
  let behind := if isDefault then Ahead.next behind else behind
  if signatureAhead false behind then
    let found ← implFunction g
    pure (found, found.isNone)
  else if Ahead.keyword "const" behind then
    discard visibility
    if isDefault then keyword "default"
    pure (none, !(← constant g).areUsual)
  else if Ahead.keyword "type" behind then
    discard visibility
    if isDefault then keyword "default"
    pure (none, !(← typeAlias g .afterValue).areUsual)
  else
    require (seen = .inherited && !isDefault && Ahead.pathStart behind)
    macroItem false
    pure (none, false)

/-- A part of an implementation. -/
def implPart (g : Grammar) : Parser (Option Method) :=
  verbatimIf do
    outerAttributes g
    implPartBody g

/-- An implementation behind its visibility. It is passed over and printed as it is written if it
has a visibility or a mark for constants, or if it is of something that is no path. -/
def implItem (g : Grammar) (seen : Visibility) : Parser (Item × Bool) := do
  discard (keyword? "default")
  discard (keyword? "unsafe")
  keyword "impl"
  -- An angle bracket may belong to the type, too.
  let params ← if genericsAhead (← rest) then generics g else pure []
  let ts ← rest
  let isConst := Ahead.keyword "const" ts ||
    (Ahead.symbol "?" ts && Ahead.keyword "const" (Ahead.next ts))
  if isConst then
    discard (symbol? "?")
    keyword "const"
  let ts ← rest
  let isNegative := Ahead.symbol "!" ts && !Ahead.opening .brace (Ahead.next ts)
  if isNegative then symbol "!"
  let first ← g.type true
  let isFor ← keyword? "for"
  -- It is a trait that a type is denied.
  require (isFor || !isNegative)
  let self ← if isFor then g.type true else pure first
  discard (whereClause? g)
  let methods ← group .brace do
    innerAttributes g
    many (implPart g)
  if seen ≠ .inherited || isConst || (isFor && first.path?.isNone) then pure (.other, true)
  else pure (.implementation isFor params self (methods.filterMap id), false)

/-! ## Traits -/

/-- A function with a body or a semicolon. -/
def declaredFunction (g : Grammar) : Parser Unit := do
  discard (signature g false)
  if ← peek (Ahead.opening .brace) then body g else symbol ";"

/-- A part of a trait. One with a visibility or a default mark is printed as it is written. -/
def traitPart (g : Grammar) : Parser Unit :=
  verbatimIf do
    outerAttributes g
    let seen ← visibility
    let isDefault ← keyword? "default"
    let isMarked := seen ≠ .inherited || isDefault
    let ts ← rest
    if signatureAhead false ts then
      declaredFunction g
      pure ((), isMarked)
    else if Ahead.keyword "const" ts then
      let parts ← constant g
      pure ((), isMarked || !parts.arePlain)
    else if Ahead.keyword "type" ts then
      discard (typeAlias g .afterValue)
      pure ((), isMarked)
    else
      require (!isMarked && Ahead.pathStart ts)
      macroItem false
      pure ((), false)

/-- What follows the generic parameters of a trait. -/
def traitBody (g : Grammar) : Parser Unit := do
  let ended := fun ts => Ahead.keyword "where" ts || Ahead.opening .brace ts
  discard (boundsBehindColon ended (g.bound false true))
  discard (whereClause? g)
  group .brace do
    innerAttributes g
    discard (many (traitPart g))

/-- A trait behind its visibility. -/
def traitItem (g : Grammar) : Parser Unit := do
  discard (keyword? "unsafe")
  discard (keyword? "auto")
  keyword "trait"
  discard name
  discard (generics g)
  traitBody g

/-- A trait or a name for bounds, behind its visibility. -/
def traitOrAlias (g : Grammar) : Parser Unit := do
  keyword "trait"
  discard name
  discard (generics g)
  if ← symbol? "=" then
    let ended := fun ts => Ahead.keyword "where" ts || Ahead.symbol ";" ts
    discard (separatedUntil ended "+" (g.bound false false))
    discard (whereClause? g)
    symbol ";"
  else traitBody g

/-! ## Foreign items -/

/-- A foreign function; tells whether it is marked as safe or has a body. -/
def foreignFunction (g : Grammar) : Parser Bool := do
  let head ← signature g true
  if ← peek (Ahead.opening .brace) then
    body g
    pure true
  else
    symbol ";"
    pure head.isSafe

/-- A foreign static variable; tells whether it is marked as safe or unsafe, or has a value. -/
def foreignStatic (g : Grammar) : Parser Bool := do
  let isMarked ← peek (Ahead.keywordIn ["unsafe", "safe"])
  if isMarked then discard word
  keyword "static"
  discard (keyword? "mut")
  discard name
  symbol ":"
  discard (g.type true)
  let hasValue ← symbol? "="
  if hasValue then discard (g.expression true)
  symbol ";"
  pure (isMarked || hasValue)

/-- A part of a block of foreign items. One that has more than a declaration needs is printed as
it is written. -/
def foreignPart (g : Grammar) : Parser Unit :=
  verbatimIf do
    outerAttributes g
    let seen ← visibility
    let ts ← rest
    let isMarked := Ahead.keywordIn ["unsafe", "safe"] ts
    if signatureAhead true ts then
      pure ((), ← foreignFunction g)
    else if Ahead.keyword "static" ts || (isMarked && Ahead.keyword "static" (Ahead.next ts)) then
      pure ((), ← foreignStatic g)
    else if Ahead.keyword "type" ts then
      let parts ← typeAlias g .both
      pure ((), parts.hasBounds || parts.hasValue)
    else
      require (seen = .inherited && Ahead.pathStart ts)
      macroItem false
      pure ((), false)

/-- A block of foreign items. -/
def foreignBlock (g : Grammar) : Parser Unit := do
  discard (keyword? "unsafe")
  require (← abi?)
  group .brace do
    innerAttributes g
    discard (many (foreignPart g))

/-! ## Imports and modules -/

/-- The name behind `as`, which may be an underscore. -/
def rename : Parser Unit := do
  let ts ← rest
  require (Ahead.name ts || Ahead.keyword "_" ts)
  discard word

/-- What is imported; with `root`, the parts of a group may start with a path separator. Tells
whether one does. -/
def useTree (g : Grammar) (root : Bool) : Parser Bool := do
  let ts ← rest
  if Ahead.name ts || Ahead.keywordIn ["self", "super", "crate", "try"] ts then
    discard word
    if ← symbol? "::" then g.useTree false
    else
      if ← keyword? "as" then rename
      pure false
  else if Ahead.symbol "*" ts then
    symbol "*"
    pure false
  else
    let parts ← group .brace <| commas do
      let fromRoot ← if root then symbol? "::" else pure false
      let inner ← g.useTree (root && !fromRoot)
      pure (fromRoot || inner)
    pure (parts.contains true)

/-- An import behind its visibility; tells whether a part of a group starts with a path
separator. -/
def useItem (g : Grammar) : Parser Bool := do
  keyword "use"
  let fromRoot ← symbol? "::"
  let hasRoots ← useTree g (!fromRoot)
  symbol ";"
  pure hasRoots

/-- The import of a crate behind its visibility. -/
def crateItem : Parser Unit := do
  keyword "extern"
  keyword "crate"
  if ← peek (Ahead.keyword "self") then discard word else discard name
  if ← keyword? "as" then rename
  symbol ";"

/-- The name of a module, which may be the word `try` too. -/
def moduleName : Parser Name := do
  if ← peek (Ahead.keyword "try") then word else name

/-- A module behind its name. -/
def moduleEnd (g : Grammar) (n : Name) : Parser Item := do
  if ← symbol? ";" then pure .other
  else
    let (items, close) ← groupWithEnd .brace do
      innerAttributes g
      many g.item
    pure (.inlineModule n close items)

/-- A module behind its visibility. -/
def moduleItem (g : Grammar) : Parser Item := do
  discard (keyword? "unsafe")
  keyword "mod"
  moduleEnd g (← moduleName)

/-! ## Other items -/

/-- A function behind its visibility; tells whether its body is missing. -/
def functionItem (g : Grammar) : Parser Bool := do
  discard (signature g false)
  if ← symbol? ";" then pure true
  else
    body g
    pure false

/-- A static variable behind its visibility; tells whether its type or its value is missing. -/
def staticItem (g : Grammar) : Parser Bool := do
  keyword "static"
  discard (keyword? "mut")
  discard name
  let hasType ← if ← peek (Ahead.symbol "=") then pure false else do
    symbol ":"
    discard (g.type true)
    pure true
  let hasValue ← symbol? "="
  if hasValue then discard (g.expression true)
  symbol ";"
  pure !(hasType && hasValue)

/-- A macro by its rules, behind its visibility. -/
def macroRules : Parser Unit := do
  keyword "macro"
  discard name
  if ← peek (Ahead.opening .parenthesis) then discard anyGroup
  require (← peek (Ahead.opening .brace))
  discard anyGroup

/-- An item that starts with `extern`. -/
def externItem (g : Grammar) (seen : Visibility) (ts : List TokenTree) : Parser Unit := do
  if Ahead.keyword "crate" (Ahead.next ts) then crateItem
  else
    require (seen = .inherited)
    foreignBlock g

/-- An item that starts with `unsafe` and is no implementation. -/
def unsafeItem (g : Grammar) (seen : Visibility) (ts : List TokenTree) : Parser Item := do
  let second := Ahead.next ts
  if Ahead.keyword "trait" second ||
      (Ahead.keyword "auto" second && Ahead.keyword "trait" (Ahead.next second)) then
    traitItem g
    pure .other
  else if Ahead.keyword "extern" second then
    require (seen = .inherited)
    foreignBlock g
    pure .other
  else moduleItem g

/-- Parses something that is of no interest and tells whether it is printed as it is written. -/
def other (p : Parser Bool) : Parser (Item × Bool) := (.other, ·) <$> p

/-- Parses something that is not printed as it is written. -/
def usual {α : Type} (p : Parser α) : Parser (α × Bool) := (·, false) <$> p

/-- Parses something that is of no interest. -/
def usualOther (p : Parser Unit) : Parser (Item × Bool) := usual (do p; pure .other)

/-- An item behind its attributes, and whether it is printed as it is written. -/
def itemBody (g : Grammar) : Parser (Item × Bool) := do
  let seen ← visibility
  let ts ← rest
  let second := Ahead.next ts
  if signatureAhead false ts then other (functionItem g)
  else if Ahead.keyword "extern" ts then usualOther (externItem g seen ts)
  else if Ahead.keyword "use" ts then other (useItem g)
  else if Ahead.keyword "static" ts then other (staticItem g)
  else if Ahead.keyword "const" ts then other ((!·.areUsual) <$> constant g)
  else if Ahead.keyword "unsafe" ts then
    if Ahead.keyword "impl" second then implItem g seen else usual (unsafeItem g seen ts)
  else if Ahead.keyword "mod" ts then usual (moduleItem g)
  else if Ahead.keyword "type" ts then other ((!·.areUsual) <$> typeAlias g .beforeValue)
  else if Ahead.keyword "struct" ts then usual (structItem g)
  else if Ahead.keyword "enum" ts then usual (enumItem g)
  -- In front of anything but a name this word is a name itself.
  else if Ahead.keyword "union" ts && Ahead.name second then usual (unionItem g)
  else if Ahead.keyword "trait" ts then usualOther (traitOrAlias g)
  else if Ahead.keyword "auto" ts && Ahead.keyword "trait" second then usualOther (traitItem g)
  else if Ahead.keyword "impl" ts || (Ahead.keyword "default" ts && !Ahead.symbol "!" second) then
    implItem g seen
  else if Ahead.keyword "macro" ts then other (do macroRules; pure true)
  else
    require (seen = .inherited && Ahead.pathStart ts)
    usualOther (macroItem true)

/-- An item. -/
def item (g : Grammar) : Parser Item :=
  verbatimIf do
    outerAttributes g
    itemBody g

end UnitLoader.Syntax
