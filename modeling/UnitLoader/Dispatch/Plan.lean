import UnitLoader.Dispatch.TypeText
import UnitLoader.Manifest.Basic
import UnitLoader.Syntax.Tree

/-!
# Plans

A plan says how a method is called from the text of its arguments. `planMethod?` makes one for
every exported method of the plain kind whose parameters can be read from text; any other method
has none. A plan's operation is what the manifest says of it.
-/

namespace UnitLoader.Dispatch

open Syntax

/-- How a call takes an argument that was read from text. -/
inductive Borrow where
  /-- By value. -/
  | owned
  /-- By shared reference. -/
  | shared
  /-- By exclusive reference. -/
  | exclusive
  deriving DecidableEq, Repr

/-- How an argument reaches a parameter. -/
inductive Passing where
  /-- The text itself is passed. -/
  | text
  /-- A value of a type is read from the text and passed. -/
  | parsed (borrow : Borrow) (type : NamedType)
  deriving DecidableEq, Repr

/-- How a method is called. -/
structure Plan where
  /-- The name of the method. -/
  method : Name
  /-- What the manifest says of it. -/
  operation : Operation
  /-- How the arguments reach the parameters, in order. -/
  passings : List Passing
  deriving Repr

/-- The types of which a value can be read from text. -/
def parsableTypes : List String :=
  ["bool", "char", "i8", "i16", "i32", "i64", "i128", "isize", "u8", "u16", "u32", "u64", "u128",
    "usize", "f32", "f64", "String"]

/-- The type, if it is a name without arguments; a raw name does not count. -/
def namedType? : TypeTree → Option NamedType
  | .named type => if type.name.raw then none else some type
  | _ => none

/-- How an argument reaches a parameter of a type; `none` if it cannot be read from text. -/
def passing? : TypeTree → Option Passing
  | .reference _ isMutable element =>
    match namedType? element with
    | none => none
    | some found =>
      -- The text belongs to the caller, so it can be lent but not be changed.
      if found.name.text = "str" then if isMutable then none else some .text
      else if found.name.text ∈ parsableTypes then
        some (.parsed (if isMutable then .exclusive else .shared) found)
      else none
  | type =>
    match namedType? type with
    | none => none
    | some found =>
      if found.name.text ∈ parsableTypes then some (.parsed .owned found) else none

/-- The name of the parameter at a position: that which its pattern binds, or else one made of the
position. -/
def paramName (pattern : Pattern) (position : Nat) : String :=
  match pattern with
  | .binding name => name.text
  | _ => "arg" ++ toString position

/-- How the instance is taken; `none` if it is not taken by plain reference. -/
def receiver? (self : SelfParam) : Option Receiver :=
  if self.isTyped then none
  else if !self.isReference then none
  else some (if self.isMutable then .refMut else .ref)

/-- How the instance is taken, what the manifest says of the parameters, of which the first stands
at `position`, and how the arguments reach them. -/
def planParams? :
    (position : Nat) → List FnParam → Option (Receiver × List Param × List Passing)
  | _, [] => some (.none, [], [])
  | position, .receiver self :: rest =>
    match receiver? self, planParams? position rest with
    -- A receiver is no parameter of the manifest and takes no position.
    | some receiver, some (_, params, passings) => some (receiver, params, passings)
    | _, _ => none
  | position, .typed pattern type :: rest =>
    match passing? type, planParams? (position + 1) rest with
    | some passing, some (receiver, params, passings) =>
      some (receiver, ⟨paramName pattern position, typeText type⟩ :: params, passing :: passings)
    | _, _ => none

/-- The method can be called from outside of its module. -/
def isExported (m : Method) : Bool := m.visibility == .everyone || m.visibility == .crate

/-- The head of the method asks nothing special of a caller. -/
def isPlain (s : Signature) : Bool :=
  !s.isAsync && !s.isUnsafe && !s.hasAbi && !s.isVariadic &&
    -- A caller has to name no lifetimes, so these are the parameters that a method may have.
    s.generics.all (·.lifetime?.isSome)

/-- The plan of a method. -/
def planMethod? (m : Method) : Option Plan :=
  if isExported m && isPlain m.signature then
    (planParams? 0 m.signature.params).map fun (receiver, params, passings) =>
      { method := m.signature.name
        operation :=
          { name := m.signature.name.text, receiver, params
            returns := m.signature.output.map typeText }
        passings }
  else none

end UnitLoader.Dispatch
