import UnitLoader.Syntax.Pattern
import UnitLoader.Syntax.Type

/-!
# Function heads
-/

namespace UnitLoader.Syntax

open UnitLoader.Syntax.Parser

/-- The words in front of `fn`. -/
structure Qualifiers where
  isAsync : Bool
  isSafe : Bool
  isUnsafe : Bool
  hasAbi : Bool

/-- Reads the words in front of `fn`; with `safe`, that word may stand for `unsafe`. -/
def qualifiers (safe : Bool) : Parser Qualifiers := do
  discard (keyword? "const")
  let isAsync ← keyword? "async"
  let isSafe ← if safe then keyword? "safe" else pure false
  let isUnsafe ← if isSafe then pure false else keyword? "unsafe"
  pure ⟨isAsync, isSafe, isUnsafe, ← abi?⟩

/-- The head of a function starts here. -/
def signatureAhead (safe : Bool) (ts : List TokenTree) : Bool :=
  ((do discard (qualifiers safe); keyword "fn" : Parser Unit).run ⟨ts, []⟩).isSome

/-- The instance parameter of a method up to its name, which no path starts with: whether it is a
reference, and whether it is mutable. -/
def selfParamName : Parser (Bool × Bool) := do
  let isReference ← symbol? "&"
  if isReference then
    discard lifetime?
  let isMutable ← keyword? "mut"
  keyword "self"
  require !(← peek (Ahead.symbol "::"))
  pure (isReference, isMutable)

/-- A parameter of a function; `none` for a variadic one. A type may stand without a pattern, in
whose place an underscore is printed. -/
def fnParam (g : Grammar) : Parser (Option FnParam) := do
  match ← attempt selfParamName with
  | some (isReference, isMutable) =>
    let isTyped ← if isReference then pure false else symbol? ":"
    if isTyped then discard (g.type true)
    pure (some (.receiver ⟨isReference, isMutable, isTyped⟩))
  | none =>
    let ts ← rest
    if Ahead.name ts && Ahead.symbol "<" (Ahead.next ts) then
      print [.word ⟨"_", false, by decide⟩, .alone ':']
      pure (some (.typed .other (← g.type true)))
    else
      let p ← g.pattern
      symbol ":"
      if ← symbol? "..." then pure none
      else pure (some (.typed p (← g.type true)))

/-- The end of the parameters behind a variadic one. -/
def variadicEnd : Parser Unit := do
  unless ← atEnd do symbol ","

/-- The parameters of a function, and whether the last one is variadic. An instance parameter
comes first. -/
def fnParams (g : Grammar) : Parser (List FnParam × Bool) :=
  repeating [] fun taken => do
    if ← atEnd then pure (.inr (taken.reverse, false))
    else
      outerAttributes g
      if ← symbol? "..." then
        variadicEnd
        pure (.inr (taken.reverse, true))
      else match ← fnParam g with
        | none =>
          variadicEnd
          pure (.inr (taken.reverse, true))
        | some param =>
          let misplaced := match param with
            | .receiver _ => !taken.isEmpty
            | .typed _ _ => false
          require !misplaced
          if ← atEnd then pure (.inr ((param :: taken).reverse, false))
          else do
            symbol ","
            pure (.inl (param :: taken))

/-- The head of a function. -/
def signature (g : Grammar) (safe : Bool) : Parser Signature := do
  let q ← qualifiers safe
  keyword "fn"
  let n ← name
  let generics ← generics g
  let (params, isVariadic) ← group .parenthesis (fnParams g)
  let output ← returnType g true
  discard (whereClause? g)
  pure ⟨q.isAsync, q.isSafe, q.isUnsafe, q.hasAbi, isVariadic, n, generics, params, output⟩

end UnitLoader.Syntax
