import UnitLoader.Interface
import UnitLoader.Manifest.Reader

/-!
# Libraries

A library is what an artifact becomes when a process loads it. It is known by what it does when its
interface is used: it makes instances and drops them, runs operations, hands out output buffers and
takes them back. Instances and buffers are memory of the library, which chooses their addresses; two
of them may have the same one. A `Trace` keeps every call that was made of a library since it was
loaded, so whatever a library does in the course of a process is a function of its trace. In another
process the same bytes may do something else. The code of a library can also write to the outputs of
the process that it runs in.
-/

namespace UnitLoader

/-- What is written to the two outputs of a process. -/
structure Written where
  /-- To the standard output. -/
  out : List UInt8
  /-- To the error output. -/
  err : List UInt8
  deriving DecidableEq, Repr

namespace Written

/-- Nothing. -/
def nothing : Written := ⟨[], []⟩

/-- Something, and something else behind it. -/
def append (w w' : Written) : Written := ⟨w.out ++ w'.out, w.err ++ w'.err⟩

instance : Append Written := ⟨append⟩

end Written

/-- A call of an operation, as the library sees it. -/
structure Request where
  /-- The index of the operation. -/
  index : Nat
  /-- The argument list as bytes. -/
  arguments : List UInt8
  /-- The address of the instance, if one is given. -/
  address : Option Nat
  deriving DecidableEq, Repr

/-- An output buffer, as it is given back. -/
structure Buffer where
  /-- Its address. -/
  address : Nat
  /-- Its length in bytes. -/
  length : Nat
  deriving DecidableEq, Repr

/-- An output buffer, as it is handed out. -/
structure Output where
  /-- Its address. -/
  address : Nat
  /-- What it holds. -/
  bytes : List UInt8
  deriving DecidableEq, Repr

/-- What is given back of an output buffer. -/
def Output.buffer (o : Output) : Buffer := ⟨o.address, o.bytes.length⟩

/-- How a library answers a request. -/
structure Reply where
  /-- The status code. -/
  code : Int
  /-- The output buffer, if one is handed out. -/
  output : Option Output
  deriving DecidableEq, Repr

/-- A call of a function of the interface, and what came of it. -/
inductive Call where
  /-- An instance was asked for, and made at an address or not. -/
  | construct (made : Option Nat)
  /-- An instance was dropped. -/
  | drop (address : Nat)
  /-- An operation was run. -/
  | invoke (request : Request) (reply : Reply)
  /-- An output buffer was given back. -/
  | free (buffer : Buffer)
  deriving DecidableEq, Repr

namespace Call

/-- The instance that was made. -/
def made? : Call → Option Nat
  | construct made => made
  | _ => none

/-- The instance that was dropped. -/
def dropped? : Call → Option Nat
  | drop address => some address
  | _ => none

/-- What was asked of an operation. -/
def request? : Call → Option Request
  | invoke request _ => some request
  | _ => none

/-- The output buffer that was handed out. -/
def handedOut? : Call → Option Buffer
  | invoke _ reply => reply.output.map Output.buffer
  | _ => none

/-- The output buffer that was given back. -/
def freed? : Call → Option Buffer
  | free buffer => some buffer
  | _ => none

end Call

/-- The calls that were made of a library, the latest first. -/
abbrev Trace := List Call

namespace Trace

/-- The instances that were made. -/
def made (t : Trace) : List Nat := t.filterMap Call.made?

/-- The instances that were dropped. -/
def dropped (t : Trace) : List Nat := t.filterMap Call.dropped?

/-- What was asked of operations. -/
def requests (t : Trace) : List Request := t.filterMap Call.request?

/-- The output buffers that were handed out. -/
def handedOut (t : Trace) : List Buffer := t.filterMap Call.handedOut?

/-- The output buffers that were given back. -/
def freed (t : Trace) : List Buffer := t.filterMap Call.freed?

end Trace

/-- A library in a process. -/
structure Library where
  /-- The functions that it exports. -/
  exports : Interface.Function → Bool
  /-- The bytes of its manifest, if it shows one. -/
  manifest : Option (List UInt8)
  /-- The instance that it makes if it is asked for one after these calls. -/
  construct : Trace → Option Nat
  /-- How it answers a request after these calls. -/
  invoke : Trace → Request → Reply
  /-- What it writes while it is opened and looked through. -/
  opening : Written
  /-- What it writes during a call, after the calls in the trace. -/
  writes : Trace → Call → Written
  /-- What it writes when it is closed after these calls. -/
  closing : Trace → Written

/-- Why bytes cannot be loaded as the artifact of a name. -/
inductive LoadFault where
  /-- The bytes are no library. -/
  | notLoadable
  /-- A function is not exported. -/
  | missing (function : Interface.Function)
  /-- The library shows no manifest. -/
  | noManifest
  /-- The manifest cannot be read. -/
  | unreadableManifest
  /-- The library has another interface version. -/
  | wrongAbi (abi : Nat)
  /-- The library is the artifact of another name. -/
  | wrongName (name : String)
  deriving DecidableEq, Repr

/-- The text of a fault. For a fault that the system's loader or the reader of manifests found,
`cause` is what these say of it. -/
def LoadFault.message (cause : String) : LoadFault → String
  | .notLoadable => "not a loadable library: " ++ cause
  | .missing function => "missing symbol " ++ function.symbol ++ ": " ++ cause
  | .noManifest => "empty manifest"
  | .unreadableManifest => "unreadable manifest: " ++ cause
  | .wrongAbi abi =>
    "ABI version " ++ toString abi ++ " (expected " ++ toString Manifest.currentAbi ++ ")"
  | .wrongName name => "artifact defines `" ++ name ++ "`"

namespace Library

/-- The manifest of a library, if the library can be used under a name. -/
def checked (l : Library) (name : String) : Except LoadFault Manifest :=
  match Interface.functions.find? fun function => !l.exports function with
  | some function => .error (.missing function)
  | none =>
    match l.manifest with
    | none => .error .noManifest
    | some bytes =>
      match Manifest.parse bytes with
      | .error _ => .error .unreadableManifest
      | .ok manifest =>
        if manifest.abi ≠ Manifest.currentAbi then .error (.wrongAbi manifest.abi)
        else if manifest.typeName ≠ name then .error (.wrongName manifest.typeName)
        else .ok manifest

/-- What a library writes while it is loaded under a name. If it cannot be used, it is closed
again. -/
def loading (l : Library) (name : String) : Written :=
  match l.checked name with
  | .ok _ => l.opening
  | .error _ => l.opening ++ l.closing []

/-- What a library writes during calls that are made one after the other, after those in the
trace. -/
def writesAll (l : Library) (t : Trace) : List Call → Written
  | [] => .nothing
  | c :: rest => l.writes t c ++ l.writesAll (c :: t) rest

end Library

end UnitLoader
