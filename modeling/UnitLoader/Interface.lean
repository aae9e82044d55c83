/-!
# The interface of an artifact

A compiled artifact exports five functions: one that gives its manifest, one that makes an
instance, one that drops it, one that runs an operation, and one that takes an output buffer back.
-/

namespace UnitLoader.Interface

/-- The functions that an artifact exports. -/
inductive Function where
  | manifest
  | construct
  | drop
  | invoke
  | free
  deriving DecidableEq, Repr

/-- The symbol that a function is exported under. -/
def Function.symbol : Function → String
  | .manifest => "__hotload_manifest"
  | .construct => "__hotload_new"
  | .drop => "__hotload_drop"
  | .invoke => "__hotload_invoke"
  | .free => "__hotload_free"

/-- All functions, in the order in which they are looked up. -/
def functions : List Function := [.manifest, .construct, .drop, .invoke, .free]

/-- How a run of an operation ends. -/
inductive Status where
  | success
  | badArguments
  | unknownOperation
  | missingInstance
  | panic
  deriving DecidableEq, Repr

/-- The end that a status code stands for; codes without a meaning of their own count as a
panic. -/
def Status.ofCode : Int → Status
  | 0 => .success
  | -1 => .badArguments
  | -2 => .unknownOperation
  | -3 => .missingInstance
  | _ => .panic

end UnitLoader.Interface
