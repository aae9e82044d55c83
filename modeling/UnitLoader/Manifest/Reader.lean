import UnitLoader.Json.Reader
import UnitLoader.Manifest.Basic

/-!
# Reading manifests

`Manifest.parse` reads the JSON text of a manifest. Members may stand in any order, and members
that a manifest does not have are passed over.
-/

namespace UnitLoader

open Json (Reader)

/-- Reads a string as a `String`. -/
def stringReader : Reader String := String.ofList <$> Reader.text

/-- The fields of a parameter that were read so far. -/
structure PartialParam where
  name : Option String
  type : Option String

/-- The form of a parameter. -/
def Param.form : Reader.Record PartialParam where
  start := ⟨none, none⟩
  fields :=
    [("name", (·.name.isSome), fun p => return { p with name := some (← stringReader) }),
      ("ty", (·.type.isSome), fun p => return { p with type := some (← stringReader) })]

/-- Reads a parameter. -/
def Param.reader : Reader Param := do
  let held ← Reader.record Param.form
  return { name := ← Reader.required held.name, type := ← Reader.required held.type }

/-- Reads a receiver. -/
def Receiver.reader : Reader Receiver :=
  Reader.choice ([Receiver.none, .ref, .refMut].map fun r => (r.name, r))

/-- The fields of an operation that were read so far. -/
structure PartialOperation where
  name : Option String
  receiver : Option Receiver
  params : Option (List Param)
  returns : Option (Option String)

/-- The form of an operation. -/
def Operation.form : Reader.Record PartialOperation where
  start := ⟨none, none, none, none⟩
  fields :=
    [("name", (·.name.isSome), fun o => return { o with name := some (← stringReader) }),
      ("receiver", (·.receiver.isSome),
        fun o => return { o with receiver := some (← Receiver.reader) }),
      ("params", (·.params.isSome),
        fun o => return { o with params := some (← Reader.array Param.reader) }),
      ("returns", (·.returns.isSome),
        fun o => return { o with returns := some (← Reader.optional stringReader) })]

/-- Reads an operation; the return type may be left out. -/
def Operation.reader : Reader Operation := do
  let held ← Reader.record Operation.form
  return {
    name := ← Reader.required held.name
    receiver := ← Reader.required held.receiver
    params := ← Reader.required held.params
    returns := held.returns.join }

/-- The fields of a manifest that were read so far. -/
structure PartialManifest where
  abi : Option Nat
  typeName : Option String
  operations : Option (List Operation)

/-- The form of a manifest. The interface version takes 32 bits. -/
def Manifest.form : Reader.Record PartialManifest where
  start := ⟨none, none, none⟩
  fields :=
    [("abi", (·.abi.isSome),
        fun m => return { m with abi := some (← Reader.natural (UInt32.size - 1)) }),
      ("type_name", (·.typeName.isSome),
        fun m => return { m with typeName := some (← stringReader) }),
      ("operations", (·.operations.isSome),
        fun m => return { m with operations := some (← Reader.array Operation.reader) })]

/-- Reads a manifest. -/
def Manifest.reader : Reader Manifest := do
  let held ← Reader.record Manifest.form
  return {
    abi := ← Reader.required held.abi
    typeName := ← Reader.required held.typeName
    operations := ← Reader.required held.operations }

/-- The manifest in a JSON text. -/
def Manifest.parse (bytes : List UInt8) : Except Json.Fault Manifest := Manifest.reader.run bytes

end UnitLoader
