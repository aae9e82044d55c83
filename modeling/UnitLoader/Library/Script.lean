import UnitLoader.Library.Basic
import UnitLoader.Text.Quoted

/-!
# Scripted libraries

A script describes a library by data: what it exports, its manifest, whether it makes instances,
and one reply for every operation.
-/

namespace UnitLoader

/-- What a scripted reply hands out. -/
inductive ScriptOutput where
  /-- No buffer. -/
  | nothing
  /-- These bytes. -/
  | bytes (bytes : List UInt8)
  /-- Whether there is an instance, and the argument list as bytes. -/
  | echo
  /-- How often this was asked of the instance, this time included. -/
  | bump
  /-- How many calls of each kind were made of the library. -/
  | stats
  deriving DecidableEq, Repr

/-- The reply of a script to one operation. -/
structure ScriptReply where
  /-- The status code. -/
  code : Int
  /-- What is handed out. -/
  output : ScriptOutput
  deriving DecidableEq, Repr

/-- A library as data. -/
structure Script where
  /-- The symbol that is not exported, if there is one. -/
  missing : Option String
  /-- The bytes of the manifest, if one is shown. -/
  manifest : Option (List UInt8)
  /-- Instances are made. -/
  constructs : Bool
  /-- The replies, by the index of the operation. -/
  replies : List ScriptReply
  deriving DecidableEq, Repr

namespace Script

/-- A byte as two hexadecimal digits. -/
def hexByte (b : UInt8) : List Char :=
  [Nat.digitChar (b.toNat / 16), Nat.digitChar (b.toNat % 16)]

/-- Bytes as hexadecimal digits. -/
def hex (bytes : List UInt8) : List Char := bytes.flatMap hexByte

/-- The bytes of a text. -/
def textBytes (text : String) : List UInt8 := Text.Utf8.encode text.toList

/-- What an echo shows of a request. -/
def echoText (r : Request) : String :=
  "inst=" ++ (if r.address.isSome then "1" else "0") ++ " args=" ++ String.ofList (hex r.arguments)

/-- What is shown of a trace, with the running request counted. -/
def statsText (t : Trace) : String :=
  "new=" ++ toString t.made.length ++ " drop=" ++ toString t.dropped.length ++
    " invoke=" ++ toString (t.requests.length + 1) ++ " out=" ++ toString t.handedOut.length ++
    " free=" ++ toString t.freed.length

/-- The operation of an index counts. -/
def counts (s : Script) (index : Nat) : Bool :=
  (s.replies[index]?).any fun reply => reply.output = .bump

/-- What the counter of an instance shows next. -/
def nextCount (s : Script) (t : Trace) (address : Nat) : Nat :=
  t.requests.countP (fun r => r.address = some address && s.counts r.index) + 1

/-- The bytes that a scripted reply hands out. -/
def outputBytes (s : Script) (t : Trace) (r : Request) : ScriptOutput → Option (List UInt8)
  | .nothing => none
  | .bytes bytes => some bytes
  | .echo => some (textBytes (echoText r))
  | .bump => r.address.map fun address => textBytes (toString (s.nextCount t address))
  | .stats => some (textBytes (statsText t))

/-- The status code for an index that no operation has. -/
def unknownIndex : Int := -2

/-- How a script answers a request. Output buffers are numbered. -/
def answer (s : Script) (t : Trace) (r : Request) : Reply :=
  match s.replies[r.index]? with
  | none => ⟨unknownIndex, none⟩
  | some reply =>
    ⟨reply.code, (s.outputBytes t r reply.output).map fun bytes => ⟨t.handedOut.length, bytes⟩⟩

/-- The library that a script describes. Its instances are numbered, and it writes nothing. -/
def library (s : Script) : Library where
  exports function := s.missing ≠ some function.symbol
  manifest := s.manifest
  construct t := if s.constructs then some t.made.length else none
  invoke := s.answer
  opening := .nothing
  writes _ _ := .nothing
  closing _ := .nothing

end Script

end UnitLoader
