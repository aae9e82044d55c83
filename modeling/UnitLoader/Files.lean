import UnitLoader.Compiler
import UnitLoader.Error
import UnitLoader.Text.Position
import UnitLoader.Text.Replace

/-!
# Files

A `Files` value is a tree of directories with what stands in them. There are two tops: the working
directory, from which a path goes unless it starts with a slash, and the root. `Files.resolve`
follows a path and says where it leads or why it leads nowhere.
-/

namespace UnitLoader

/-- Where something stands: the names on the way from the top. A way from the root starts with the
name `/`. -/
abbrev Place := List String

/-- What can stand at a place. -/
inductive Node where
  /-- A file. -/
  | file (bytes : List UInt8)
  /-- A program that can be run. -/
  | program (compiler : Compiler)
  /-- A directory. -/
  | directory

/-- A tree of directories. -/
structure Files where
  /-- Every place below the tops where something stands. -/
  nodes : List (Place × Node)

namespace Files

/-- The working directory is empty. Of the root there is only the directory for temporary files. -/
def empty : Files := ⟨[(["/", "tmp"], .directory)]⟩

/-- The top that ways from the root start with. -/
def root : Place := ["/"]

/-- What stands at a place. -/
def node? (f : Files) (place : Place) : Option Node :=
  if place = [] ∨ place = root then some .directory else f.nodes.lookup place

/-- Puts something at a place. -/
def put (f : Files) (place : Place) (node : Node) : Files :=
  ⟨(place, node) :: f.nodes.filter fun entry => entry.1 != place⟩

/-- Takes away what stands at a place and below it. -/
def remove (f : Files) (place : Place) : Files :=
  ⟨f.nodes.filter fun entry => !place.isPrefixOf entry.1⟩

/-- Puts a name into ascending names. -/
def insertName (name : String) : List String → List String
  | [] => [name]
  | first :: rest => if name < first then name :: first :: rest else first :: insertName name rest

/-- Makes a directory, which is empty: whatever was kept for places below it is gone. -/
def putDirectory (f : Files) (place : Place) : Files := (f.remove place).put place .directory

/-- The names in a directory, in ascending order. -/
def children (f : Files) (place : Place) : List String :=
  f.nodes.foldr (fun entry names =>
    if entry.1.dropLast = place then
      match entry.1.getLast? with
      | some name => insertName name names
      | none => names
    else names) []

/-- The names of a path. A slash at the end asks for a directory, as the name of a directory for
itself does. -/
def pathNames (path : List Char) : List String :=
  let names := (Text.splitOn ['/'] path).filter (· ≠ []) |>.map String.ofList
  if path.getLast? = some '/' then names ++ ["."] else names

/-- The most bytes that a name may have. -/
def longestName : Nat := 255

/-- The place above a place. A top is above itself. -/
def above (place : Place) : Place := if place = root then root else place.dropLast

/-- Follows one name from a place, which must be that of a directory. -/
def follow (f : Files) (here : Place) (name : String) : Except FileFault Place :=
  match f.node? here with
  | none => .error .notFound
  | some .directory =>
    if name = "." then .ok here
    else if name = ".." then .ok (above here)
    else if longestName < Text.byteLength name.toList then .error .nameTooLong
    else .ok (here ++ [name])
  | some _ => .error .notDirectory

/-- Follows names from a place, one after the other. -/
def walk (f : Files) : Place → List String → Except FileFault Place
  | here, [] => .ok here
  | here, name :: rest =>
    match f.follow here name with
    | .error fault => .error fault
    | .ok next => walk f next rest

/-- The place that a path leads to, whether something stands there or not. -/
def resolve (f : Files) (path : String) : Except FileFault Place :=
  match path.toList with
  | [] => .error .notFound
  | c :: cs =>
    if '\x00' ∈ c :: cs then .error (.other "file name contained an unexpected NUL byte")
    else f.walk (if c = '/' then root else []) (pathNames (c :: cs))

/-- What stands where a path leads. -/
def find (f : Files) (path : String) : Except FileFault Node :=
  match f.resolve path with
  | .error fault => .error fault
  | .ok place =>
    match f.node? place with
    | none => .error .notFound
    | some node => .ok node

/-- The bytes of a file. -/
def read (f : Files) (path : String) : Except FileFault (List UInt8) :=
  match f.find path with
  | .error fault => .error fault
  | .ok .directory => .error .isDirectory
  -- Nothing depends on the text of a program.
  | .ok (.program _) => .ok []
  | .ok (.file bytes) => .ok bytes

/-- A path without the slashes at its end. -/
def withoutSlashes (path : String) : String :=
  String.ofList (path.toList.reverse.dropWhile (· == '/')).reverse

/-- Writes a file, in place of one that stands there. A path that ends with a slash is that of a
directory, even if none stands there. -/
def write (f : Files) (path : String) (bytes : List UInt8) : Except FileFault Files :=
  if path.toList.getLast? = some '/' then
    -- The path of a top, which is there.
    if withoutSlashes path = "" then .error .isDirectory
    else
      match f.resolve (withoutSlashes path) with
      | .error fault => .error fault
      | .ok _ => .error .isDirectory
  else
    match f.resolve path with
    | .error fault => .error fault
    | .ok place =>
      match f.node? place with
      | some .directory => .error .isDirectory
      | _ => .ok (f.put place (.file bytes))

/-- Makes one directory where nothing stands yet. -/
def makeDirectory (f : Files) (path : String) : Except FileFault Files :=
  match f.resolve path with
  | .error fault => .error fault
  | .ok place =>
    match f.node? place with
    | none => .ok (f.putDirectory place)
    | some _ => .error .alreadyExists

/-- Makes the directories on the way from a place along names. `begun` says that one was made
already. The directories made before a fault stay. A missing directory cannot be made under its
name for itself. -/
def makeWay (f : Files) (begun : Bool) : Place → List String → Except FileFault Unit × Files
  | _, [] => (.ok (), f)
  | here, name :: rest =>
    if name = "." then makeWay f begun here rest
    else if name = ".." then makeWay f begun (above here) rest
    else if longestName < Text.byteLength name.toList then (.error .nameTooLong, f)
    else
      match f.node? (here ++ [name]) with
      | none =>
        -- All that is left are names of this directory for itself.
        if !rest.isEmpty && rest.all (· == ".") then (.error .notFound, f)
        else makeWay (f.putDirectory (here ++ [name])) true (here ++ [name]) rest
      | some .directory => makeWay f begun (here ++ [name]) rest
      | some _ => (.error (if rest.isEmpty || begun then .alreadyExists else .notDirectory), f)

/-- Makes a directory and those on the way to it, as far as they are missing. -/
def makeDirectories (f : Files) (path : String) : Except FileFault Unit × Files :=
  match path.toList with
  | [] => (.ok (), f)
  | c :: cs =>
    if '\x00' ∈ c :: cs then (.error (.other "file name contained an unexpected NUL byte"), f)
    else f.makeWay false (if c = '/' then root else []) (pathNames (withoutSlashes path).toList)

/-- The names in the directory where a path leads, if one stands there. -/
def listing (f : Files) (path : String) : Option (List String) :=
  match f.resolve path with
  | .error _ => none
  | .ok place =>
    match f.node? place with
    | some .directory => some (f.children place)
    | _ => none

/-- The path of a name in a directory. -/
def join (directory name : String) : String :=
  match directory.toList.getLast? with
  | none => name
  | some '/' => directory ++ name
  | some _ => directory ++ "/" ++ name

/-- The program where a path with a slash leads. -/
def program (f : Files) (path : String) : Except FileFault Compiler :=
  match f.find path with
  | .error fault => .error fault
  | .ok (.program compiler) => .ok compiler
  | .ok _ => .error .notExecutable

/-- The paths at which a name is searched for, in order. -/
def candidates (searchPath : Option String) (name : String) : List String :=
  match searchPath with
  | none => []
  | some directories =>
    (Text.splitOn [':'] directories.toList).map fun directory =>
      join (String.ofList directory) name

/-- The first path of a program among several. -/
def firstProgram? (f : Files) (paths : List String) : Option (String × Compiler) :=
  paths.findSome? fun path =>
    match f.program path with
    | .ok compiler => some (path, compiler)
    | .error _ => none

/-- The program that is run under a name: where the path leads if it has a slash, and else the
first one in the directories of the search path. -/
def command (f : Files) (searchPath : Option String) (name : String) : Except FileFault Compiler :=
  if '/' ∈ name.toList then f.program name
  else match f.firstProgram? (candidates searchPath name) with
    | some (_, compiler) => .ok compiler
    | none => .error .notFound

end Files

end UnitLoader
