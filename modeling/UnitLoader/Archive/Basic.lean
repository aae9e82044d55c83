import UnitLoader.Archive.Body
import UnitLoader.Error
import UnitLoader.NameMap

/-!
# Archives

An archive binds names to compiled artifacts and lives in one file. Where the file names something
twice, the first entry counts. `Archive.ofFile` is what opening a file comes to: it either gives
the archive or says in one way what is wrong with the file.
-/

namespace UnitLoader

/-- An opened archive. -/
structure Archive where
  /-- The path of the file. -/
  location : String
  /-- The artifacts by name. -/
  artifacts : NameMap (List UInt8)

namespace Archive

/-- Why a file is no archive that can be used. -/
inductive OpenFault where
  /-- The file cannot be read. -/
  | unreadable (fault : FileFault)
  /-- The file has too many bytes. -/
  | tooLarge (size : Nat)
  /-- The file does not start like an archive. -/
  | unmarked
  /-- What stands behind the mark cannot be decoded. -/
  | corrupt (fault : Fault)
  /-- The format has another version. -/
  | unsupported (version : Nat)
  deriving DecidableEq, Repr

/-- The most bytes that an archive file may have. -/
def largestFile : Nat := 1 <<< 30

/-- The text of a fault. -/
def OpenFault.message : OpenFault → String
  | .unreadable fault => fault.message
  | .tooLarge size =>
    "archive is " ++ toString size ++ " bytes, limit is " ++ toString largestFile
  | .unmarked => "not a hotload archive"
  | .corrupt fault => "corrupt archive: " ++ fault.message
  | .unsupported version => "unsupported archive format version " ++ toString version

/-- Binds every entry's name, unless an entry in front of it has the name. -/
def index (entries : List Entry) : NameMap (List UInt8) :=
  entries.foldl (fun m e => m.insertIfNew e.name e.bytes) .empty

/-- The archive in a file's bytes. -/
def ofBytes (location : String) (bytes : List UInt8) : Except OpenFault Archive :=
  if largestFile < bytes.length then .error (.tooLarge bytes.length)
  else if !mark.isPrefixOf bytes then .error .unmarked
  else match decodeBody (bytes.drop mark.length) with
    | .error fault => .error (.corrupt fault)
    | .ok (version, entries) =>
      if version = formatVersion then .ok ⟨location, index entries⟩
      else .error (.unsupported version)

/-- The archive in a file, which was read or could not be read. -/
def ofFile (location : String) (content : Except FileFault (List UInt8)) : Except Error Archive :=
  let opened := match content with
    | .ok bytes => ofBytes location bytes
    | .error fault => .error (.unreadable fault)
  opened.mapError fun fault => .invalidLocation location fault.message

/-- The bytes that a name stands for. -/
def get? (a : Archive) (name : String) : Option (List UInt8) := a.artifacts.get? name

/-- The names, in ascending order. -/
def names (a : Archive) : List String := a.artifacts.names

/-- The number of names. -/
def size (a : Archive) : Nat := a.artifacts.size

end Archive

end UnitLoader
