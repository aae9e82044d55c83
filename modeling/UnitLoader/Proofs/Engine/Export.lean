import UnitLoader.Proofs.Archive.Limits
import UnitLoader.Proofs.Engine.ResolutionOrder
import UnitLoader.Proofs.Files.Walk

/-!
# What is exported is found again

Exporting writes one entry for each registered name (`exportArchive_eq`), and the file reads as it
was written (`Files.read_of_write`). So an engine that searches the archive finds the bytes that the
registry held (`map_snd_find?_reopened`): the index of the archive counts the first entry of a name,
and among the entries of a registry there is only one. `reopened_run` says this of every registry
that a run can come to, as long as an archive can hold it.
-/

namespace UnitLoader

namespace Namespace

/-- What an archive of the registry holds: an entry for each name. -/
def exported (n : Namespace) : List Archive.Entry := n.artifacts.map fun a => ⟨a.name, a.bytes⟩

/-- There are as many entries as names. -/
theorem length_exported (n : Namespace) : n.exported.length = n.registry.names.length := by
  rw [exported, artifacts, NameMap.names, List.length_map, List.length_map, List.length_map]

/-- The first entry of a name holds what the registry has for it. -/
theorem find?_exported (n : Namespace) (name : String) :
    (n.exported.find? (·.name = name)).map Archive.Entry.bytes = n.registry.get? name := by
  unfold exported artifacts NameMap.get?
  induction n.registry.entries with
  | nil => rfl
  | cons entry rest ih =>
    rw [List.map_cons, List.map_cons, List.lookup_cons]
    by_cases h : entry.1 = name
    · rw [List.find?_cons_of_pos (by simpa using h), beq_iff_eq.2 h.symm]
      rfl
    · rw [List.find?_cons_of_neg (by simpa using h), beq_false_of_ne (Ne.symm h)]
      exact ih

end Namespace

namespace Engine

open UnitLoader.Engine.Action

variable {s s' : State} {location : String} {count : Nat}

/-- Exporting writes the registry into a file and gives the number of its names, or the file system
refuses the file and nothing is changed. -/
theorem exportArchive_eq (location : String) (s : State) :
    exportArchive location s =
      match s.world.files.write location (Archive.encodeFile s.engine.loader.exported) with
      | .error fault => .error (.error (.io fault)) s
      | .ok files =>
        .ok s.engine.loader.artifacts.length { s with world := { s.world with files } } := by
  change EStateM.bind (EStateM.bind (ofFiles (s.world.files.write location
    (Archive.encodeFile s.engine.loader.exported))) _) _ s = _
  cases s.world.files.write location (Archive.encodeFile s.engine.loader.exported) <;> rfl

/-- After an export the file holds the archive of the registry, and its number is that of the
names. -/
theorem read_of_exportArchive (h : exportArchive location s = .ok count s') :
    count = s.engine.loader.registry.names.length ∧
      s'.world.files.read location = .ok (Archive.encodeFile s.engine.loader.exported) := by
  rw [exportArchive_eq] at h
  split at h
  · contradiction
  · rename_i files hwrite
    obtain ⟨rfl, rfl⟩ := EStateM.Result.ok.inj h
    have hcount : s.engine.loader.artifacts.length = s.engine.loader.registry.names.length := by
      rw [← Namespace.length_exported, Namespace.exported, List.length_map]
    exact ⟨hcount, Files.read_of_write hwrite⟩

/-- The archive that a file holds is searched behind the others, and nothing else is changed. -/
theorem appendArchive_of_ofFile {archive : Archive}
    (h : Archive.ofFile location (s.world.files.read location) = .ok archive) :
    ∃ s', appendArchive location s = .ok () s' ∧ At s.engine.config
      { s.engine.loader with archives := s.engine.loader.archives ++ [archive] } s.world s' := by
  have hensures := ensures_appendArchive (c := s.engine.config) (n := s.engine.loader)
    (w := s.world) location
  cases hrun : appendArchive location s with
  | ok u s' =>
    obtain ⟨opened, hopened, hs'⟩ := hensures.of_ok (at_self s) hrun
    rw [h] at hopened
    obtain rfl := Except.ok.inj hopened
    exact ⟨s', rfl, hs'⟩
  | error e s' =>
    obtain ⟨fault, hfault, -⟩ := hensures.of_error (at_self s) hrun
    rw [h] at hfault
    contradiction

/-- A name is found in an engine that has nothing but one archive exactly as it is in the
archive. -/
theorem map_snd_find?_reopened (policy : RedefinitionPolicy) (archive : Archive) (name : String) :
    (({ Namespace.empty policy with archives := [archive] } : Namespace).find? name).map Prod.snd =
      archive.get? name := by
  have hregistry : (Namespace.empty policy).registry.get? name = none := rfl
  rw [Namespace.map_snd_find?, Namespace.lookupArchives, List.findSome?_singleton, hregistry]
  exact Option.or_none

/-- What it means that an engine finds in an archive what a registry held. -/
structure Reopens (registry : NameMap (List UInt8)) (location : String) (s s' : State) : Prop where
  /-- The archive is searched. -/
  appended : appendArchive location s = .ok () s'
  /-- For every name are found the bytes that the registry held for it, and nothing for any
  other. -/
  found : ∀ name, (s'.engine.loader.find? name).map Prod.snd = registry.get? name
  /-- The engine's own registry stays empty. -/
  registry : s'.engine.loader.registry = .empty

/-- **What is exported is found again:** whatever registry a run comes to, as long as an archive can
hold it, the export tells the number of its names, and a new engine that searches the archive finds
for every name exactly what the registry held for it, wherever the file still reads as it was left
by the export. -/
theorem reopened_run (config : Config) (world : World) (log : List LogLine) (events : List Event)
    {location : String} {count : Nat} {s' : State}
    (hsize : Archive.weight (runFrom (start config world log) events).engine.loader.exported ≤
      Archive.largestFile)
    (hrun : exportArchive location (runFrom (start config world log) events) = .ok count s') :
    count = (runFrom (start config world log) events).engine.loader.registry.names.length ∧
      ∀ (config' : Config) (world' : World) (log' : List LogLine),
        world'.files.read location = s'.world.files.read location →
        ∃ s'', Reopens (runFrom (start config world log) events).engine.loader.registry location
          (start config' world' log') s'' := by
  generalize runFrom (start config world log) events = s at hsize hrun
  obtain ⟨hcount, hread⟩ := read_of_exportArchive hrun
  refine ⟨hcount, fun config' world' log' hworld => ?_⟩
  -- What the export wrote is within the limits, so it is opened again.
  obtain ⟨archive, hopen, hget⟩ :=
    Archive.ofFile_of_withinLimits location (Archive.withinLimits_of_weight hsize)
  have hfile : Archive.ofFile location
      ((start config' world' log').world.files.read location) = .ok archive := by
    rw [start, hworld, hread, hopen]
  obtain ⟨s'', happended, hs''⟩ := appendArchive_of_ofFile hfile
  refine ⟨s'', happended, fun name => ?_, ?_⟩
  · calc (s''.engine.loader.find? name).map Prod.snd
        = archive.get? name := by
          rw [hs''.loader]
          exact map_snd_find?_reopened config'.policy archive name
      _ = s.engine.loader.registry.get? name := by rw [hget, Namespace.find?_exported]
  · rw [hs''.loader]
    rfl

/-- A name is registered, another one is registered twice, and a third is taken out again. -/
def overwritten : List Event :=
  [.command (.register ⟨"b", [1]⟩), .command (.register ⟨"a", [2]⟩),
    .command (.register ⟨"b", [3, 4]⟩), .command (.register ⟨"c", [5]⟩),
    .command (.unregister "c")]

/-- The two names that are left are found in the archive, with the bytes registered last. -/
theorem reopened_run_overwritten :
    let s := runFrom (start .standard plainWorld []) overwritten
    Archive.weight s.engine.loader.exported ≤ Archive.largestFile ∧
      ∃ s', exportArchive "x.hla" s = .ok 2 s' ∧
        ∃ s'', Reopens s.engine.loader.registry "x.hla" (start .standard s'.world []) s'' ∧
          (s''.engine.loader.find? "b").map Prod.snd = some [3, 4] ∧
          (s''.engine.loader.find? "c").map Prod.snd = none := by
  intro s
  have hsize : Archive.weight s.engine.loader.exported ≤ Archive.largestFile := by decide +kernel
  refine ⟨hsize, ?_⟩
  obtain ⟨s', hrun⟩ : ∃ s', exportArchive "x.hla" s = .ok 2 s' := ⟨_, rfl⟩
  obtain ⟨-, hreopens⟩ := reopened_run .standard plainWorld [] overwritten hsize hrun
  obtain ⟨s'', h⟩ := hreopens .standard s'.world [] rfl
  refine ⟨s', hrun, s'', h, ?_, ?_⟩
  · rw [h.found]
    rfl
  · rw [h.found]
    rfl

end Engine

end UnitLoader
