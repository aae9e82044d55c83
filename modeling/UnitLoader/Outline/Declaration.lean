import UnitLoader.Outline.Token

/-!
# The declared type

A unit declares the first `struct`, `enum` or `union` of its outline that stands at module level.
The name of that type is the path of the inline modules around it and its own name. `declaredPath`
reads the outline token by token: `State.step` keeps the number of open braces, the inline modules
that are open with the depth of their bodies, and what the last token makes the reader expect.
-/

namespace UnitLoader.Outline

/-- What the tokens just read make the reader expect of the next one. -/
inductive Expectation where
  /-- Nothing in particular. -/
  | any
  /-- A hash sign may open an attribute. -/
  | attribute
  /-- Only the bracket of an attribute may follow its hash sign and exclamation mark. -/
  | attributeBracket
  /-- The reader is inside an attribute, with this many further brackets open. -/
  | insideAttribute (depth : Nat)
  /-- The keyword `mod` was read. -/
  | moduleName
  /-- A module's name was read, which an opening brace makes an inline module. -/
  | moduleBody (name : List Char)
  /-- A keyword that declares a type was read. -/
  | typeName
  deriving DecidableEq, Repr

/-- What is known of the text in front of the next token. -/
structure State where
  /-- The number of open braces. -/
  depth : Nat
  /-- The open inline modules, innermost last, each with the number of braces open in its body. -/
  modules : List (List Char × Nat)
  /-- What the next token may be part of. -/
  expectation : Expectation
  deriving DecidableEq, Repr

/-- Nothing is open and nothing is expected at the start of a text. -/
def State.initial : State := ⟨0, [], .any⟩

/-- Every open brace is that of an inline module. -/
def State.atModuleLevel (s : State) : Bool := s.depth == s.modules.length

/-- A keyword that declares a type. -/
def declaresType (word : List Char) : Bool :=
  word == "struct".toList || word == "enum".toList || word == "union".toList

/-- The state after a token that nothing in front of it lays claim to. -/
def State.read (s : State) : Token → State
  | .mark '#' => { s with expectation := .attribute }
  | .mark _ => { s with expectation := .any }
  | .openBrace => { s with depth := s.depth + 1, expectation := .any }
  | .closeBrace =>
    -- A brace that closes no module leaves all of them open.
    let closesModule := s.modules.getLast?.any fun m => m.2 == s.depth
    { depth := s.depth - 1,
      modules := if closesModule then s.modules.dropLast else s.modules,
      expectation := .any }
  | .word w =>
    if s.atModuleLevel && w == "mod".toList then { s with expectation := .moduleName }
    else if s.atModuleLevel && declaresType w then { s with expectation := .typeName }
    else { s with expectation := .any }

/-- The outcome of one token: the path of the declared type, or the state to go on with. -/
def State.step (s : State) (t : Token) : List (List Char) ⊕ State :=
  match s.expectation, t with
  | .attribute, .mark '!' => .inr { s with expectation := .attributeBracket }
  | .attribute, .mark '[' => .inr { s with expectation := .insideAttribute 0 }
  | .attributeBracket, .mark '[' => .inr { s with expectation := .insideAttribute 0 }
  | .insideAttribute depth, .mark '[' =>
    .inr { s with expectation := .insideAttribute (depth + 1) }
  | .insideAttribute 0, .mark ']' => .inr { s with expectation := .any }
  | .insideAttribute (depth + 1), .mark ']' =>
    .inr { s with expectation := .insideAttribute depth }
  | .insideAttribute _, _ => .inr s
  | .moduleName, .word name => .inr { s with expectation := .moduleBody name }
  | .moduleBody name, .openBrace =>
    .inr { depth := s.depth + 1, modules := s.modules ++ [(name, s.depth + 1)],
           expectation := .any }
  | .typeName, .word name => .inl (s.modules.map Prod.fst ++ [name])
  | _, t => .inr (s.read t)

/-- Reads an outline from a state up to the first declaration. -/
def declaredPathFrom (s : State) : List Token → Option (List (List Char))
  | [] => none
  | t :: rest =>
    match s.step t with
    | .inl path => some path
    | .inr next => declaredPathFrom next rest

/-- The path of the type that an outline declares: the enclosing inline modules, outermost first,
and the type's own name. -/
def declaredPath (outline : List Token) : Option (List (List Char)) :=
  declaredPathFrom .initial outline

end UnitLoader.Outline
