import UnitLoader.Json.Writer

/-!
# Manifests

A compiled unit describes itself by a manifest: the interface version, the name of the type it
declares, and the operations of that type.
-/

namespace UnitLoader

/-- How an operation takes the instance it works on. -/
inductive Receiver where
  /-- It takes none. -/
  | none
  /-- By shared reference. -/
  | ref
  /-- By exclusive reference. -/
  | refMut
  deriving DecidableEq, Repr

/-- A parameter of an operation. -/
structure Param where
  /-- The name of the parameter. -/
  name : String
  /-- The text of its type. -/
  type : String
  deriving DecidableEq, Repr

/-- One operation of a type. -/
structure Operation where
  /-- The name of the operation. -/
  name : String
  /-- How it takes the instance. -/
  receiver : Receiver
  /-- Its parameters in order, the instance apart. -/
  params : List Param
  /-- The text of its return type, if it returns a value. -/
  returns : Option String
  deriving DecidableEq, Repr

/-- What a compiled unit says of itself. -/
structure Manifest where
  /-- The version of the interface. -/
  abi : Nat
  /-- The name of the declared type. -/
  typeName : String
  /-- The operations of the type; a call names them by their index. -/
  operations : List Operation
  deriving DecidableEq, Repr

/-- The interface version of this library. -/
def Manifest.currentAbi : Nat := 1

namespace Operation

/-- The operation works on an instance. -/
def needsInstance (o : Operation) : Bool := o.receiver != .none

/-- The text of an operation, as its declaration would start. -/
def signature (o : Operation) : String :=
  let self := match o.receiver with
    | .none => []
    | .ref => ["&self"]
    | .refMut => ["&mut self"]
  let params := o.params.map fun p => p.name ++ ": " ++ p.type
  let head := "fn " ++ o.name ++ "(" ++ ", ".intercalate (self ++ params) ++ ")"
  match o.returns with
  | some type => head ++ " -> " ++ type
  | none => head

end Operation

/-- The name of a receiver in a manifest's text. -/
def Receiver.name : Receiver → String
  | .none => "none"
  | .ref => "ref"
  | .refMut => "ref_mut"

open Json (Value) in
/-- A parameter as a JSON value. -/
def Param.toJson (p : Param) : Value :=
  .object [("name", .text p.name.toList), ("ty", .text p.type.toList)]

open Json (Value) in
/-- An operation as a JSON value. -/
def Operation.toJson (o : Operation) : Value :=
  .object
    [("name", .text o.name.toList),
      ("receiver", .text o.receiver.name.toList),
      ("params", .array (o.params.map Param.toJson)),
      ("returns", match o.returns with
        | some type => .text type.toList
        | none => .null)]

open Json (Value) in
/-- A manifest as a JSON value. -/
def Manifest.toJson (m : Manifest) : Value :=
  .object
    [("abi", .natural m.abi),
      ("type_name", .text m.typeName.toList),
      ("operations", .array (m.operations.map Operation.toJson))]

/-- The compact text of a manifest. -/
def Manifest.text (m : Manifest) : List Char := m.toJson.print

end UnitLoader
