import UnitLoader.Syntax.Token

/-!
# Syntax trees

What a parsed source text is made of, as far as anyone asks: modules, type declarations and
implementations with the signatures of their functions. Types tell the trees by which they are
written; bodies, patterns and expressions only leave what the parser itself needs to know of them.
-/

namespace UnitLoader.Syntax

open UnitLoader.Text (Position)

/-- The arguments behind a part of a path. -/
inductive PathArguments where
  | none
  /-- Arguments in angle brackets: whether there are any, and whether a path separator stands in
  front. -/
  | angled (isEmpty separated : Bool)
  deriving DecidableEq, Repr

/-- A part of a path. -/
structure PathSegment where
  /-- The name. -/
  name : Name
  /-- The arguments behind it. -/
  arguments : PathArguments
  deriving DecidableEq, Repr

/-- A path. -/
structure Path where
  /-- The path starts with a separator. -/
  isGlobal : Bool
  /-- The parts, which are never none. -/
  segments : List PathSegment
  deriving DecidableEq, Repr

/-- No part of the path has arguments. -/
def Path.isPlain (p : Path) : Bool := p.segments.all (·.arguments == .none)

/-- A type that is a name without arguments. -/
structure NamedType where
  /-- The name has a path separator in front. -/
  isGlobal : Bool
  /-- The name. -/
  name : Name
  deriving DecidableEq, Repr

/-- The trees by which the type is written. -/
def NamedType.trees (t : NamedType) : List TokenTree :=
  (if t.isGlobal then TokenTree.symbol [':', ':'] else []) ++ [.word t.name]

/-- A type, with the trees by which it is written where its parts do not tell them. -/
inductive TypeTree where
  /-- A name without arguments. -/
  | named (type : NamedType)
  /-- Any other path; `qualified` if it is relative to another type. -/
  | path (qualified : Bool) (path : Path) (trees : List TokenTree)
  /-- A reference. -/
  | reference (lifetime : Option Name) (isMutable : Bool) (element : TypeTree)
  /-- A type in parentheses. -/
  | parenthesized (trees : List TokenTree)
  /-- A trait object: it is marked as one, and it consists of one bound and nothing else. -/
  | object (marked single : Bool) (trees : List TokenTree)
  /-- Any other type. -/
  | other (trees : List TokenTree)
  deriving Repr

/-- The trees of a lifetime. -/
def lifetimeTrees (name : Name) : List TokenTree := [.token (.mark '\'' true), .word name]

/-- The type of a path that is not relative to another type and is written by these trees. -/
def TypeTree.ofPath : Path → List TokenTree → TypeTree
  | ⟨isGlobal, [⟨name, .none⟩]⟩, _ => .named ⟨isGlobal, name⟩
  | p, trees => .path false p trees

/-- The path that a type consists of, if it is one that is not relative to another type. -/
def TypeTree.path? : TypeTree → Option Path
  | .named type => some ⟨type.isGlobal, [⟨type.name, .none⟩]⟩
  | .path false p _ => some p
  | _ => none

/-- The trees by which a type is written. -/
def TypeTree.trees : TypeTree → List TokenTree
  | .named type => type.trees
  | .path _ _ trees => trees
  | .reference lifetime isMutable element =>
    .alone '&' :: (lifetime.map lifetimeTrees).getD [] ++
      (if isMutable then [.word ⟨"mut", false, by decide⟩] else []) ++ element.trees
  | .parenthesized trees => trees
  | .object _ _ trees => trees
  | .other trees => trees

/-- What a bound holds a type to. -/
inductive Bound where
  | lifetime
  | trait
  /-- The parameters that an opaque type captures. -/
  | capture
  deriving DecidableEq, Repr

/-- What the parser needs to know of a pattern. -/
inductive Pattern where
  /-- A name is bound. -/
  | binding (name : Name)
  /-- Two points alone. -/
  | rest
  /-- A range with both ends. -/
  | range
  /-- A range that is open at an end. -/
  | openRange
  /-- A pattern behind `box`. -/
  | boxed
  /-- Any other pattern. -/
  | other
  deriving DecidableEq, Repr

/-- The pattern is a range. -/
def Pattern.isRange : Pattern → Bool
  | .range | .openRange => true
  | _ => false

/-- What the parser needs to know of an expression. -/
inductive Expression where
  /-- A block or a control structure, which ends a statement by itself. -/
  | block
  /-- A macro call, in braces or not. -/
  | macroCall (braced : Bool)
  /-- A range. -/
  | range
  /-- A comparison. -/
  | comparison
  /-- An expression that is printed as it is written. -/
  | asWritten
  /-- Any other expression. -/
  | other
  deriving DecidableEq, Repr

/-- Who sees an item. -/
inductive Visibility where
  /-- The module that holds it. -/
  | inherited
  /-- The crate. -/
  | crate
  /-- Some other module. -/
  | restricted
  /-- Everyone. -/
  | everyone
  deriving DecidableEq, Repr

/-- A parameter of a generic item. -/
inductive GenericParam where
  | lifetime (name : Name)
  /-- A type or a constant. -/
  | other
  deriving DecidableEq, Repr

/-- The lifetime that a parameter is, if it is one. -/
def GenericParam.lifetime? : GenericParam → Option Name
  | .lifetime name => some name
  | .other => none

/-- The parameter that is a lifetime, or else one of the others. -/
def GenericParam.ofLifetime? : Option Name → GenericParam
  | some name => .lifetime name
  | none => .other

/-- The instance parameter of a method. -/
structure SelfParam where
  /-- It is a reference. -/
  isReference : Bool
  /-- It is mutable. -/
  isMutable : Bool
  /-- It has a type of its own. -/
  isTyped : Bool
  deriving DecidableEq, Repr

/-- A parameter of a function. -/
inductive FnParam where
  | receiver (self : SelfParam)
  | typed (pattern : Pattern) (type : TypeTree)
  deriving Repr

/-- The head of a function. -/
structure Signature where
  isAsync : Bool
  isSafe : Bool
  isUnsafe : Bool
  hasAbi : Bool
  isVariadic : Bool
  name : Name
  generics : List GenericParam
  params : List FnParam
  output : Option TypeTree
  deriving Repr

/-- A function of an implementation. -/
structure Method where
  visibility : Visibility
  signature : Signature
  deriving Repr

/-- An item of a module. -/
inductive Item where
  /-- An inline module with the place of its closing brace. -/
  | inlineModule (name : Name) (close : Position) (items : List Item)
  /-- A `struct`, `enum` or `union`. -/
  | declaration (name : Name) (generics : List GenericParam)
  /-- An implementation of a type's own functions (`ofTrait` false) or of a trait. -/
  | implementation (ofTrait : Bool) (generics : List GenericParam) (self : TypeTree)
      (methods : List Method)
  /-- Any other item. -/
  | other
  deriving Repr

end UnitLoader.Syntax
