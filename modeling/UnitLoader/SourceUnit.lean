import UnitLoader.Error
import UnitLoader.Outline.Declaration
import UnitLoader.Text.Replace

/-!
# Source units

A unit is a source text together with the name of the type it declares. The names of its virtual
file, its crate and its library follow from that name.
-/

namespace UnitLoader

/-- What stands between the parts of a name. -/
def pathSeparator : List Char := [':', ':']

/-- The name of the type that a source text declares. -/
def resolveName (source : String) : Except Error String :=
  match Outline.declaredPath (Outline.tokens source.toList) with
  | some path => .ok (String.ofList (Text.join pathSeparator path))
  | none =>
    .error (.nameResolution "no top-level struct, enum or union declaration found")

/-- A source text and the name of the type it declares. -/
structure SourceUnit where
  /-- The name. -/
  name : String
  /-- The text. -/
  source : String
  deriving DecidableEq, Repr

namespace SourceUnit

/-- A unit whose name is read off its text. -/
def ofSource (source : String) : Except Error SourceUnit :=
  (resolveName source).map fun name => ⟨name, source⟩

/-- The parts of a name. -/
def nameParts (name : String) : List (List Char) := Text.splitOn pathSeparator name.toList

/-- The file name that diagnostics give for the unit. -/
def virtualPath (u : SourceUnit) : String :=
  "memory:///" ++ String.ofList (Text.replace pathSeparator ['/'] u.name.toList) ++ ".rs"

/-- A character of a name as a crate name has it: letters in lower case, digits, and an underscore
for everything else. -/
def crateChar (c : Char) : Char :=
  if 'A' ≤ c ∧ c ≤ 'Z' then Char.ofNat (c.toNat + 32)
  else if ('a' ≤ c ∧ c ≤ 'z') ∨ ('0' ≤ c ∧ c ≤ '9') then c
  else '_'

/-- The name of the crate that a unit of a name is compiled as. -/
def crateNameOf (name : String) : String :=
  "hotload_unit_" ++ String.ofList (name.toList.map crateChar)

/-- The name of the crate that the unit is compiled as. -/
def crateName (u : SourceUnit) : String := crateNameOf u.name

/-- The file name of the library that the unit is compiled to. -/
def libraryName (u : SourceUnit) : String := "lib" ++ u.crateName ++ ".so"

end SourceUnit

end UnitLoader
