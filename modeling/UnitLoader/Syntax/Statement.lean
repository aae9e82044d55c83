import UnitLoader.Syntax.Expression

/-!
# Statements
-/

namespace UnitLoader.Syntax

open UnitLoader.Syntax.Parser

/-- An item starts here, and not an expression. -/
def itemAhead (ts : List TokenTree) : Bool :=
  let second := Ahead.next ts
  let third := Ahead.next2 ts
  let notConstItem := Ahead.opening .brace second || Ahead.keywordIn ["static", "move"] second ||
    Ahead.symbol "|" second ||
    (Ahead.keyword "async" second && !Ahead.keywordIn ["unsafe", "extern", "fn"] third)
  Ahead.keywordIn ["pub", "extern", "use", "fn", "mod", "type", "struct", "enum", "trait", "impl",
      "macro"] ts ||
    (Ahead.keyword "crate" ts && !Ahead.symbol "::" second) ||
    (Ahead.keyword "static" ts && (Ahead.keyword "mut" second || Ahead.name second)) ||
    (Ahead.keyword "const" ts && !notConstItem) ||
    (Ahead.keyword "unsafe" ts && !Ahead.opening .brace second) ||
    (Ahead.keyword "async" ts && Ahead.keywordIn ["unsafe", "extern", "fn"] second) ||
    (Ahead.keyword "union" ts && Ahead.name second) ||
    (Ahead.keyword "auto" ts && Ahead.keyword "trait" second) ||
    (Ahead.keyword "default" ts && Ahead.keywordIn ["unsafe", "impl"] second)

/-- How a statement that starts with a path and an exclamation mark goes on. -/
inductive MacroStatement where
  /-- It is no macro call, or one that is part of an expression. -/
  | none
  /-- The macro call is an item. -/
  | item
  /-- The macro call is a statement in braces. -/
  | braced
  deriving DecidableEq

/-- How the trees behind the path of a macro call decide. -/
def macroStatement (behind : List TokenTree) : MacroStatement :=
  let second := Ahead.next behind
  let third := Ahead.next2 behind
  if !Ahead.symbol "!" behind then .none
  else if Ahead.name second || Ahead.keyword "try" second then .item
  else if Ahead.opening .brace second && !(Ahead.point third || Ahead.symbol "?" third) then
    .braced
  else .none

/-- A group in braces is the last tree that was taken. -/
def endedInBraces (before after : List TokenTree) : Bool :=
  match before.take (before.length - after.length) |>.getLast? with
  | some (.group .brace _ _) => true
  | _ => false

/-- A declaration of local names. -/
def localStatement (g : Grammar) : Parser Unit := do
  keyword "let"
  discard g.pattern
  if ← symbol? ":" then discard (g.type true)
  if ← symbol? "=" then
    let before ← rest
    discard (g.expression true)
    let after ← rest
    if !endedInBraces before after && Ahead.keyword "else" after then
      keyword "else"
      block g
  symbol ";"

/-- A statement that is an expression, with its attributes; tells whether a semicolon is still
owed. -/
def expressionStatement (g : Grammar) : Parser Bool := do
  let found ← g.leading true
  let ended ← symbol? ";"
  pure (!ended && found ≠ .block && found ≠ .macroCall true)

/-- A statement; tells whether a semicolon is still owed if another one follows. -/
def statement (g : Grammar) : Parser Bool := do
  let ts := behindAttributes (← rest)
  let kind := match (do discard plainPath; rest : Parser _).run ⟨ts, []⟩ with
    | some (behind, _) => macroStatement behind
    | none => .none
  if kind = .braced then
    outerAttributes g
    discard plainPath
    discard macroArguments
    discard (symbol? ";")
    pure false
  else if Ahead.keyword "let" ts then do
    outerAttributes g
    localStatement g
    pure false
  else if itemAhead ts || kind = .item then do
    discard g.item
    pure false
  else expressionStatement g

/-- The semicolons in front of a statement. -/
def semicolons : Parser Unit :=
  repeating () fun _ => do
    if ← symbol? ";" then pure (.inl ()) else pure (.inr ())

/-- The statements of a block. -/
def statements (g : Grammar) : Parser Unit :=
  repeating () fun _ => do
    semicolons
    if ← atEnd then pure (.inr ())
    else
      let owed ← statement g
      if ← atEnd then pure (.inr ())
      else do
        require !owed
        pure (.inl ())

end UnitLoader.Syntax
