import UnitLoader.Arguments
import UnitLoader.Error
import UnitLoader.Library.Basic
import UnitLoader.Text.Position
import UnitLoader.Text.Quoted

/-!
# What memory holds

Memory holds loaded types and their instances. A type stays for as long as memory does, so a handle
stands for the same type for ever; two handles are equal exactly if they stand for the same loading
of a library. An instance lives until it is dropped.

`LoadedType.call` runs an operation: it finds the operation by its name, hands the request to the
library, gives the output buffer back, and says what the status code means. The code of a library
may write to the outputs of the process, so what was written comes with every result (`Done`).
-/

namespace UnitLoader

/-- Where the image of a loaded library is kept. -/
inductive Image where
  /-- In memory, under a label. -/
  | memory
  /-- In a temporary file. -/
  | temporaryFile
  deriving DecidableEq, Repr

/-- The most bytes that the label of an image in memory may have. -/
def Image.longestLabel : Nat := 249

/-- The label of an image in memory. -/
def Image.label (name : String) : List Char := "hotload:".toList ++ name.toList

/-- Where the image of a name's library is kept: in memory if the name makes a label. -/
def Image.ofName (name : String) : Image :=
  if '\x00' ∈ name.toList ∨ longestLabel < Text.byteLength (label name) then .temporaryFile
  else .memory

/-- A type that is loaded. -/
structure LoadedType where
  /-- The bytes that it was loaded from. -/
  bytes : List UInt8
  /-- The library. -/
  library : Library
  /-- The manifest that the library showed. -/
  manifest : Manifest
  /-- Where the image is kept. -/
  image : Image
  /-- The calls that were made of the library. -/
  trace : Trace

namespace LoadedType

/-- Loads bytes as the artifact of a name. `images` says which bytes are libraries. -/
def load (images : List UInt8 → Option Library) (name : String) (bytes : List UInt8) :
    Except LoadFault LoadedType :=
  match images bytes with
  | none => .error .notLoadable
  | some library =>
    match library.checked name with
    | .error fault => .error fault
    | .ok manifest => .ok ⟨bytes, library, manifest, Image.ofName name, []⟩

/-- The name of the type. -/
def name (t : LoadedType) : String := t.manifest.typeName

/-- The operations of the type. -/
def operations (t : LoadedType) : List Operation := t.manifest.operations

/-- The first operation of a name among operations that start at an index. -/
def findOperation (name : String) : (index : Nat) → List Operation → Option (Nat × Operation)
  | _, [] => none
  | index, o :: rest =>
    if o.name = name then some (index, o) else findOperation name (index + 1) rest

/-- The first operation of a name, with its index. -/
def indexed? (t : LoadedType) (name : String) : Option (Nat × Operation) :=
  findOperation name 0 t.operations

/-- The first operation of a name. -/
def operation? (t : LoadedType) (name : String) : Option Operation :=
  t.operations.find? (·.name = name)

/-- The address of the instance that the library makes if it is asked for one, if it does. -/
def construct (t : LoadedType) : Option Nat := t.library.construct t.trace

/-- The type after calls of its library, one after the other. -/
def after (t : LoadedType) (calls : List Call) : LoadedType :=
  { t with trace := calls.reverse ++ t.trace }

/-- What the library writes during the calls. -/
def writes (t : LoadedType) (calls : List Call) : Written := t.library.writesAll t.trace calls

/-- The text of an output buffer; none is like an empty one. -/
def outputText (output : Option Output) : String :=
  match output with
  | some o => String.ofList (Text.Utf8.decodeLossy o.bytes)
  | none => ""

/-- What a reply means for an operation. -/
def outcome (t : LoadedType) (operation : String) (reply : Reply) : Except Error String :=
  let text := outputText reply.output
  match Interface.Status.ofCode reply.code with
  | .success => .ok text
  | .unknownOperation => .error (.unknownOperation t.name operation)
  | .panic => .error (.invocation t.name operation ("panicked: " ++ text))
  | .badArguments | .missingInstance => .error (.invocation t.name operation text)

/-- What comes of a call. -/
structure CallResult where
  /-- The answer. -/
  result : Except Error String
  /-- The type after the call. -/
  type : LoadedType
  /-- What was written. -/
  written : Written

/-- The request for the operation of an index, on the instance at an address or on none. -/
def requestOf (on : Option Nat) (index : Nat) (arguments : List String) : Request :=
  ⟨index, Arguments.encode arguments, on⟩

/-- How the library answers a request. -/
def replyTo (t : LoadedType) (request : Request) : Reply := t.library.invoke t.trace request

/-- The calls that a request makes of the library. The output buffer is given back whatever the
status. -/
def callsFor (t : LoadedType) (request : Request) : List Call :=
  let reply := t.replyTo request
  .invoke request reply :: (reply.output.map fun o => .free o.buffer).toList

/-- Runs an operation on the instance at an address or on none. -/
def call (t : LoadedType) (on : Option Nat) (operation : String) (arguments : List String) :
    CallResult :=
  match t.indexed? operation with
  | none => ⟨.error (.unknownOperation t.name operation), t, .nothing⟩
  | some (index, o) =>
    if o.needsInstance && on.isNone then
      ⟨.error (.invocation t.name operation ("`" ++ o.signature ++ "` needs an instance")), t,
        .nothing⟩
    else
      let request := requestOf on index arguments
      let calls := t.callsFor request
      ⟨t.outcome operation (t.replyTo request), t.after calls, t.writes calls⟩

/-- What a debugger shows of a type, up to the number of its image. -/
def debugText (t : LoadedType) : String :=
  "TypeHandle \x7b name: " ++ String.ofList (Text.quoted t.name.toList) ++ ", operations: " ++
    toString t.operations.length ++ ", library: LoadedLibrary \x7b image: " ++
    match t.image with
    | .memory => "Memfd("
    | .temporaryFile => "TempFile(NamedTempFile("

/-- What a debugger shows of an instance, up to its address. -/
def instanceDebugText (t : LoadedType) : String :=
  "Instance \x7b type: " ++ String.ofList (Text.quoted t.name.toList) ++ ", ptr: "

end LoadedType

/-- Stands for a loaded type. -/
structure Handle where
  /-- The number of types that were loaded before it. -/
  index : Nat
  deriving DecidableEq, Repr

/-- A value of a loaded type. -/
structure Instance where
  /-- The type. -/
  handle : Handle
  /-- The address that its library knows it by. -/
  address : Nat
  deriving DecidableEq, Repr

/-- What memory holds. -/
structure Memory where
  /-- The types, in the order in which they were loaded. -/
  types : List LoadedType
  /-- The instances, in the order in which they were made; a dropped one leaves its place empty. -/
  instances : List (Option Instance)

/-- What comes of a step that may run the code of a library. -/
structure Done (α : Type) where
  /-- The result. -/
  result : α
  /-- Memory afterwards. -/
  memory : Memory
  /-- What was written. -/
  written : Written

namespace Memory

/-- Nothing is loaded. -/
def empty : Memory := ⟨[], []⟩

/-- The type that a handle stands for. -/
def type? (m : Memory) (h : Handle) : Option LoadedType := m.types[h.index]?

/-- The instance of a number. -/
def instance? (m : Memory) (number : Nat) : Option Instance := (m.instances[number]?).join

/-- Keeps a newly loaded type. -/
def add (m : Memory) (t : LoadedType) : Handle × Memory :=
  (⟨m.types.length⟩, { m with types := m.types ++ [t] })

/-- Puts a type in the place of an earlier state of it. -/
def setType (m : Memory) (h : Handle) (t : LoadedType) : Memory :=
  { m with types := m.types.set h.index t }

/-- Makes an instance of a type: its number, or why there is none. Nothing comes of a handle that
stands for no type. -/
def instantiate (m : Memory) (h : Handle) : Option (Done (Except Error Nat)) :=
  (m.type? h).map fun t =>
    let calls := [.construct t.construct]
    let memory := m.setType h (t.after calls)
    match t.construct with
    | none => ⟨.error (.notInstantiable t.name), memory, t.writes calls⟩
    | some address =>
      ⟨.ok m.instances.length, { memory with instances := m.instances ++ [some ⟨h, address⟩] },
        t.writes calls⟩

/-- Runs an operation of a type without an instance. -/
def callStatic (m : Memory) (h : Handle) (operation : String) (arguments : List String) :
    Option (Done (Except Error String)) :=
  (m.type? h).map fun t =>
    let called := t.call none operation arguments
    ⟨called.result, m.setType h called.type, called.written⟩

/-- Runs an operation on an instance. -/
def call (m : Memory) (number : Nat) (operation : String) (arguments : List String) :
    Option (Done (Except Error String)) :=
  match m.instance? number with
  | none => none
  | some i =>
    (m.type? i.handle).map fun t =>
      let called := t.call (some i.address) operation arguments
      ⟨called.result, m.setType i.handle called.type, called.written⟩

/-- Drops an instance. -/
def drop (m : Memory) (number : Nat) : Option (Done Unit) :=
  match m.instance? number with
  | none => none
  | some i =>
    (m.type? i.handle).map fun t =>
      let calls := [.drop i.address]
      let memory := m.setType i.handle (t.after calls)
      ⟨(), { memory with instances := m.instances.set number none }, t.writes calls⟩

/-- What the libraries write when they are closed. -/
def closing (m : Memory) : List Written := m.types.map fun t => t.library.closing t.trace

end Memory

end UnitLoader
