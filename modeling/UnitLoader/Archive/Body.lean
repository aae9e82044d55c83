import UnitLoader.Archive.Decoder

/-!
# The bytes of an archive

An archive file is a mark, a format version and a list of entries, each a name with its bytes.
`encodeFile` writes such a file. `decodeBody` reads what stands behind the mark; bytes behind the
last entry are not looked at.
-/

namespace UnitLoader.Archive

/-- A name and the bytes it stands for. -/
structure Entry where
  /-- The name. -/
  name : String
  /-- The bytes. -/
  bytes : List UInt8
  deriving DecidableEq, Repr

/-- What every archive file starts with. -/
def mark : List UInt8 := [0x48, 0x4C, 0x41, 0x52, 0x43, 0x48, 0x56, 0x31]

/-- The version of the format. -/
def formatVersion : Nat := 1

/-- A byte string behind its length. -/
def encodeBytes (bytes : List UInt8) : List UInt8 := encodeInteger bytes.length ++ bytes

/-- An entry: its name and its bytes. -/
def Entry.encode (e : Entry) : List UInt8 :=
  encodeBytes (Text.Utf8.encode e.name.toList) ++ encodeBytes e.bytes

/-- What stands behind the mark of an archive. -/
def encodeBody (entries : List Entry) : List UInt8 :=
  encodeInteger formatVersion ++ encodeInteger entries.length ++ entries.flatMap Entry.encode

/-- The file of an archive. -/
def encodeFile (entries : List Entry) : List UInt8 := mark ++ encodeBody entries

namespace Decoder

/-- What an entry is charged for ahead of its content. -/
def entryCharge : Nat := 48

/-- Reads an entry. The charge made for it ahead is given back first. -/
def entry : Decoder Entry := do
  refund entryCharge
  let name ← text
  let bytes ← byteString
  return ⟨name, bytes⟩

/-- Reads a number of entries. -/
def entries : Nat → Decoder (List Entry)
  | 0 => return []
  | count + 1 => do
    let first ← entry
    return first :: (← entries count)

/-- Reads the version and the entries behind it. All entries are charged for ahead. -/
def body : Decoder (Nat × List Entry) := do
  let version ← integer32
  let count ← integer64
  charge (entryCharge * count)
  return (version, ← entries count)

end Decoder

/-- The version and the entries that bytes write. -/
def decodeBody (bytes : List UInt8) : Except Fault (Nat × List Entry) :=
  (Decoder.body.run ⟨bytes, 0⟩).map (·.1)

end UnitLoader.Archive
