import UnitLoader.Dispatch.Plan

/-!
# The declared type

The type that a unit is named for stands in a chain of inline modules, of which each is the first
of its name. `declared?` finds it and plans its methods: those of the implementations that stand
beside it, have no parameters of their own and are written for its bare name.
-/

namespace UnitLoader.Dispatch

open Syntax
open UnitLoader.Text (Position)

/-- The inside of a module, or of the file. -/
structure Scope where
  /-- Its items. -/
  items : List Item
  /-- The place of the closing brace, except for the file. -/
  close : Option Position
  deriving Repr

/-- The name of an item is this text. -/
def isNamed (name : Name) (text : List Char) : Bool := name.text.toList == text

/-- The inside of an inline module of a name. -/
def moduleNamed? (text : List Char) : Item → Option Scope
  | .inlineModule name close items => if isNamed name text then some ⟨items, some close⟩ else none
  | _ => none

/-- The scope inside of a chain of modules. -/
def Scope.enter? (s : Scope) : List (List Char) → Option Scope
  | [] => some s
  | text :: rest =>
    -- The first module of the name is entered, whatever stands in the others.
    match s.items.findSome? (moduleNamed? text) with
    | none => none
    | some inner => inner.enter? rest

/-- The parameters of a type declared by this name. -/
def genericsOf? (text : List Char) : Item → Option (List GenericParam)
  | .declaration name generics => if isNamed name text then some generics else none
  | _ => none

/-- The type is written as a path to this name, without arguments. -/
def isSelfType (text : List Char) (type : TypeTree) : Bool :=
  -- Of a path the last part decides.
  match type.path?.bind (·.segments.getLast?) with
  | some ⟨name, .none⟩ => isNamed name text
  | _ => false

/-- The methods that an item gives to the type of this name. -/
def methodsOf (text : List Char) : Item → List Method
  -- Implementations with parameters of their own are left out, as those of traits are.
  | .implementation false [] self methods => if isSelfType text self then methods else []
  | _ => []

/-- A type that was found. -/
structure Declared where
  /-- The type has parameters. -/
  isGeneric : Bool
  /-- The plans of its methods, in the order of the text. -/
  plans : List Plan
  /-- The closing brace of the module that declares it. -/
  anchor : Option Position
  deriving Repr

/-- The type declared by a name in a scope. -/
def Scope.declared? (s : Scope) (text : List Char) : Option Declared :=
  (s.items.findSome? (genericsOf? text)).map fun generics =>
    { isGeneric := !generics.isEmpty
      plans := (s.items.flatMap (methodsOf text)).filterMap planMethod?
      anchor := s.close }

/-- The type that a name of several parts stands for. -/
def declared? (items : List Item) (parts : List (List Char)) : Option Declared :=
  match parts.getLast? with
  | none => none
  | some text =>
    match Scope.enter? ⟨items, none⟩ parts.dropLast with
    | none => none
    | some scope => scope.declared? text

end UnitLoader.Dispatch
