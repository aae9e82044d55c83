import UnitLoader.Syntax.Grammar

/-!
# Attributes, visibility and macro calls

The parts that stand around every item.
-/

namespace UnitLoader.Syntax

open UnitLoader.Syntax.Parser

/-- A path without arguments. -/
def plainPath : Parser Path := do
  let isGlobal ← symbol? "::"
  let segments ← repeating [] fun taken => do
    let ts ← rest
    require (Ahead.name ts || Ahead.keywordIn ["super", "self", "Self", "crate"] ts)
    let taken := ⟨← word, .none⟩ :: taken
    if ← symbol? "::" then pure (.inl taken) else pure (.inr taken.reverse)
  pure ⟨isGlobal, segments⟩

/-- What an attribute says: a path, alone, with a group, or with a value. -/
def attributeBody (g : Grammar) : Parser Unit := do
  unless ← keyword? "unsafe" do discard plainPath
  let ts ← rest
  if Ahead.anyOpening ts then discard anyGroup
  else if Ahead.symbol "=" ts && !Ahead.symbol "==" ts && !Ahead.symbol "=>" ts then
    symbol "="
    match ← attempt (do literal; require (← atEnd)) with
    | some _ => pure ()
    | none =>
      let ts ← rest
      require !(Ahead.symbol "#" ts && Ahead.opening .bracket (Ahead.next ts))
      discard (g.expression true)

/-- One attribute on what follows it. -/
def outerAttribute (g : Grammar) : Parser Unit := do
  symbol "#"
  group .bracket (attributeBody g)

/-- The attributes on what follows them. -/
def outerAttributes (g : Grammar) : Parser Unit :=
  repeating () fun _ => do
    if ← peek (Ahead.symbol "#") then .inl <$> outerAttribute g else pure (.inr ())

/-- The trees behind the attributes in front. -/
def behindAttributes : List TokenTree → List TokenTree
  | .token (.mark '#' _) :: .group .bracket _ _ :: rest => behindAttributes rest
  | ts => ts

/-- The attributes on what encloses them. -/
def innerAttributes (g : Grammar) : Parser Unit :=
  repeating () fun _ => do
    let ts ← rest
    if Ahead.symbol "#" ts && Ahead.symbol "!" (Ahead.next ts) then
      symbol "#"
      symbol "!"
      .inl <$> group .bracket (attributeBody g)
    else pure (.inr ())

/-- The visibility in front of an item. Parentheses behind `pub` belong to it only if they name a
module. -/
def visibility : Parser Visibility := do
  if ← keyword? "pub" then
    match ← rest with
    | .group .parenthesis content _ :: _ =>
      if Ahead.keywordIn ["crate", "self", "super"] content && content.length == 1 then
        discard anyGroup
        pure (if Ahead.keyword "crate" content then .crate else .restricted)
      else if Ahead.keyword "in" content then
        let path ← group .parenthesis (do keyword "in"; plainPath)
        pure (if path = ⟨false, [⟨⟨"crate", false, by decide⟩, .none⟩]⟩ then .crate
          else .restricted)
      else pure .everyone
    | _ => pure .everyone
  else pure .inherited

/-- The part of a macro call behind its path. -/
def macroArguments : Parser Delimiter := do
  symbol "!"
  anyGroup

/-- A call of something built into the compiler starts here. -/
def builtinAhead (ts : List TokenTree) : Bool :=
  Ahead.keyword "builtin" ts && Ahead.symbol "#" (Ahead.next ts)

/-- A call of something built into the compiler. -/
def builtinCall : Parser Unit := do
  keyword "builtin"
  symbol "#"
  discard name
  require (← peek (Ahead.opening .parenthesis))
  discard anyGroup

/-- A block. -/
def block (g : Grammar) : Parser Unit := group .brace g.statements

/-- A block that may start with attributes on itself. -/
def body (g : Grammar) : Parser Unit :=
  group .brace do
    innerAttributes g
    g.statements

end UnitLoader.Syntax
