import UnitLoader.Archive.Basic
import UnitLoader.Config
import UnitLoader.Memory

/-!
# Namespaces

A namespace says what a name stands for. Artifacts are looked for in its registry, then in its
archives, then in the sources that were added, each in order. A name is loaded at most once:
whatever is registered for it later, it stands for the type that it was loaded as.

Whoever registers or loads a name opens its load slot first. A slot is empty until a load of its
name succeeds, and one that is still empty when the work is over is given back. Registering and
loading give the namespace they leave behind also if they fail.
-/

namespace UnitLoader

/-- A compiled artifact. -/
structure Artifact where
  /-- The name that it defines. -/
  name : String
  /-- Its bytes. -/
  bytes : List UInt8
  deriving DecidableEq, Repr

/-- A further place where artifacts are found. -/
structure Source where
  /-- What it is called in the log. -/
  label : String
  /-- The bytes that it has for a name. -/
  find? : String → Option (List UInt8)

/-- A source that holds entries, of which the first for a name counts. -/
def Source.ofEntries (label : String) (entries : List (String × List UInt8)) : Source :=
  ⟨label, fun name => entries.lookup name⟩

/-- What names stand for. -/
structure Namespace where
  /-- The registered artifacts. -/
  registry : NameMap (List UInt8)
  /-- The archives, in the order in which they are searched. -/
  archives : List Archive
  /-- The further sources, in the order in which they are searched. -/
  sources : List Source
  /-- The load slots of names. -/
  slots : NameMap (Option Handle)
  /-- What happens to a new definition of a loaded name. -/
  policy : RedefinitionPolicy

namespace Namespace

/-- A namespace that knows no name. -/
def empty (policy : RedefinitionPolicy) : Namespace := ⟨.empty, [], [], .empty, policy⟩

/-- What the registry is called in the log. -/
def registryLabel (n : Namespace) : String :=
  "registry (" ++ toString n.registry.size ++ " artifact(s))"

/-- What the archives are called in the log. -/
def archivesLabel (n : Namespace) : String :=
  "archive search path (" ++ toString n.archives.length ++ " archive(s))"

/-- The bytes that the archives have for a name. -/
def lookupArchives (n : Namespace) (name : String) : Option (List UInt8) :=
  n.archives.findSome? fun a => a.get? name

/-- All places where artifacts are found, in the order in which they are searched. -/
def allSources (n : Namespace) : List Source :=
  ⟨n.registryLabel, n.registry.get?⟩ :: ⟨n.archivesLabel, n.lookupArchives⟩ :: n.sources

/-- The bytes that a name stands for, and where they were found. -/
def find? (n : Namespace) (name : String) : Option (String × List UInt8) :=
  n.allSources.findSome? fun s => (s.find? name).map fun bytes => (s.label, bytes)

/-- The types that are loaded. -/
def loaded (n : Namespace) : NameMap Handle := n.slots.filterMap id

/-- The type in the slot of a name, if there is a slot and it is full. -/
def handle? (n : Namespace) (name : String) : Option Handle := (n.slots.get? name).join

/-- The name is loaded. -/
def isLoaded (n : Namespace) (name : String) : Bool := (n.handle? name).isSome

/-- Opens the slot of a name: an empty one, unless it has one already. -/
def openSlot (n : Namespace) (name : String) : Namespace :=
  { n with slots := n.slots.insertIfNew name none }

/-- Gives the slot of a name back if it is still empty. -/
def release (n : Namespace) (name : String) : Namespace :=
  match n.slots.get? name with
  | some none => { n with slots := n.slots.erase name }
  | _ => n

/-- Puts an artifact into the registry, whatever is loaded. -/
def insert (n : Namespace) (a : Artifact) : Namespace :=
  { n with registry := n.registry.insert a.name a.bytes }

/-- Registers an artifact whose slot is open, in place of an earlier one of the name. A loaded name
is refused under the policy to reject; otherwise what is loaded stays. -/
def define (n : Namespace) (a : Artifact) : Except Error (List LogLine) × Namespace :=
  if n.isLoaded a.name then
    match n.policy with
    | .reject => (.error (.redefinitionHazard a.name), n)
    | .allow =>
      (.ok [.warn (a.name ++ " is already loaded; new bytes only affect other namespaces")],
        n.insert a)
  else (.ok [], n.insert a)

/-- Registers an artifact: what is told of it, and the namespace that it leaves behind. -/
def register (n : Namespace) (a : Artifact) : Except Error (List LogLine) × Namespace :=
  let (outcome, after) := (n.openSlot a.name).define a
  (outcome, after.release a.name)

/-- The registered artifact of a name. -/
def registered? (n : Namespace) (name : String) : Option Artifact :=
  (n.registry.get? name).map fun bytes => ⟨name, bytes⟩

/-- Takes a name out of the registry. -/
def unregister (n : Namespace) (name : String) : Namespace :=
  { n with registry := n.registry.erase name }

/-- Takes every name out of the registry. -/
def clear (n : Namespace) : Namespace := { n with registry := .empty }

/-- The registered artifacts in order of their names. -/
def artifacts (n : Namespace) : List Artifact :=
  n.registry.entries.map fun (name, bytes) => ⟨name, bytes⟩

/-- Searches an archive behind all others. -/
def append (n : Namespace) (a : Archive) : Namespace × List LogLine :=
  ({ n with archives := n.archives ++ [a] },
    [.info ("Appended " ++ a.location ++ " (" ++ toString a.size ++
      " artifact(s)) to the search path")])

/-- Searches a source behind all others. -/
def push (n : Namespace) (s : Source) : Namespace := { n with sources := n.sources ++ [s] }

/-- What comes of a load. -/
structure Loading where
  /-- The type that the name stands for. -/
  handle : Handle
  /-- Memory after the load. -/
  memory : Memory
  /-- What is told of it. -/
  log : List LogLine

/-- The library that is opened when a name is loaded: that of the bytes found for it, unless the
name is loaded already. `images` says which bytes are libraries. -/
def opens? (n : Namespace) (images : List UInt8 → Option Library) (name : String) :
    Option Library :=
  if n.isLoaded name then none
  else (n.find? name).bind fun found => images found.2

/-- Fills the slot of a name, which is open, with the type of the bytes found for it. A slot that
is full stays as it is. `images` says which bytes are libraries, and `causes` what the system's
loader and the reader of manifests say of a fault in bytes. -/
def materialize (n : Namespace) (images : List UInt8 → Option Library)
    (causes : List UInt8 → LoadFault → String) (m : Memory) (name : String) :
    Except Error Loading × Namespace :=
  match n.handle? name with
  | some handle => (.ok ⟨handle, m, []⟩, n)
  | none =>
    match n.find? name with
    | none => (.error (.resolution name), n)
    | some (origin, bytes) =>
      match LoadedType.load images name bytes with
      | .error fault => (.error (.invalidArtifact name (fault.message (causes bytes fault))), n)
      | .ok t =>
        let (handle, memory) := m.add t
        (.ok {
          handle
          memory
          log := [.info ("Loaded " ++ name ++ " from " ++ origin ++ " (" ++
            toString t.operations.length ++ " operation(s))")] },
          { n with slots := n.slots.insert name (some handle) })

/-- Loads a name: the type that it was loaded as, or else that of the bytes found for it. Also
gives the namespace that the load leaves behind. -/
def load (n : Namespace) (images : List UInt8 → Option Library)
    (causes : List UInt8 → LoadFault → String) (m : Memory) (name : String) :
    Except Error Loading × Namespace :=
  match (n.openSlot name).materialize images causes m name with
  | (.ok loading, after) => (.ok loading, after)
  | (.error e, after) => (.error e, after.release name)

/-- The name of a policy as a debugger shows it. -/
def policyText : RedefinitionPolicy → String
  | .allow => "Allow"
  | .reject => "Reject"

/-- What a debugger shows of a namespace. -/
def debugText (n : Namespace) : String :=
  let loaded := n.loaded.names.map fun name => String.ofList (Text.quoted name.toList)
  "LoaderNamespace \x7b registered: " ++ toString n.registry.size ++ ", archives: " ++
    toString n.archives.length ++ ", loaded: [" ++ ", ".intercalate loaded ++ "], policy: " ++
    policyText n.policy ++ " \x7d"

end Namespace

end UnitLoader
