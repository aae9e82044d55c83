import UnitLoader.Diagnostic.Basic
import UnitLoader.Text.Duration

/-!
# Errors

What can go wrong between a source text and the answer of an operation. `Error.message` is the one
place that holds the wording.
-/

namespace UnitLoader

open UnitLoader.Text (Duration)

/-- What the file system refuses. -/
inductive FileFault where
  | notFound
  | alreadyExists
  | notDirectory
  | isDirectory
  | nameTooLong
  | notExecutable
  /-- Any other cause, in words. -/
  | other (text : String)
  deriving DecidableEq, Repr

/-- The text of a file system fault with its number. -/
def FileFault.message : FileFault → String
  | .notFound => "No such file or directory (os error 2)"
  | .notExecutable => "Permission denied (os error 13)"
  | .alreadyExists => "File exists (os error 17)"
  | .notDirectory => "Not a directory (os error 20)"
  | .isDirectory => "Is a directory (os error 21)"
  | .nameTooLong => "File name too long (os error 36)"
  | .other text => text

/-- What can go wrong. -/
inductive Error where
  /-- No name can be read off a source text. -/
  | nameResolution (text : String)
  /-- There is no compiler. -/
  | toolchainUnavailable (text : String)
  /-- The compiler refused a unit. -/
  | compile (name : String) (diagnostics : List Diagnostic)
  /-- The compiler took too long. -/
  | timeout (name : String) (after : Duration)
  /-- Nothing defines a name. -/
  | resolution (name : String)
  /-- A file is no archive. -/
  | invalidLocation (location reason : String)
  /-- A name is loaded and may not be defined anew. -/
  | redefinitionHazard (name : String)
  /-- The bytes found for a name cannot be loaded. -/
  | invalidArtifact (name reason : String)
  /-- A type has no constructor. -/
  | notInstantiable (name : String)
  /-- A type has no operation of a name. -/
  | unknownOperation (typeName operation : String)
  /-- An operation failed. -/
  | invocation (typeName operation message : String)
  /-- A value cannot be written. -/
  | serialization (text : String)
  /-- The file system refused. -/
  | io (fault : FileFault)
  deriving DecidableEq, Repr

namespace Error

/-- The text of an error. -/
def message : Error → String
  | .nameResolution text => "name resolution failed: " ++ text
  | .toolchainUnavailable text => "toolchain unavailable: " ++ text
  | .compile name diagnostics =>
    "compilation of `" ++ name ++ "` failed with " ++ toString diagnostics.length ++
      " diagnostic(s)"
  | .timeout name after => "compilation of `" ++ name ++ "` timed out after " ++ after.text
  | .resolution name => "cannot resolve `" ++ name ++ "`"
  | .invalidLocation location reason => "invalid archive location " ++ location ++ ": " ++ reason
  | .redefinitionHazard name =>
    "`" ++ name ++ "` is already loaded; refusing to replace its definition"
  | .invalidArtifact name reason => "invalid artifact for `" ++ name ++ "`: " ++ reason
  | .notInstantiable name => "`" ++ name ++ "` cannot be instantiated"
  | .unknownOperation typeName operation =>
    "`" ++ typeName ++ "` has no operation `" ++ operation ++ "`"
  | .invocation typeName operation message =>
    "`" ++ typeName ++ "::" ++ operation ++ "` failed: " ++ message
  | .serialization text => "serialization error: " ++ text
  | .io fault => "IO error: " ++ fault.message

/-- No later call can succeed after this error. -/
def isFatal : Error → Bool
  | .toolchainUnavailable _ => true
  | _ => false

/-- The diagnostics that an error carries. -/
def diagnostics : Error → List Diagnostic
  | .compile _ diagnostics => diagnostics
  | _ => []

end Error

end UnitLoader
