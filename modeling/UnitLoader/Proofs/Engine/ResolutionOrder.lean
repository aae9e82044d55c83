import UnitLoader.Proofs.Engine.History

/-!
# Which bytes a name is loaded from

A name that is not loaded is loaded from one candidate, and the deeds of a run tell which one: the
bytes stored last for the name since it was last taken out of the registry; or else those of the
archive added first that defines the name; or else those of the source added first that has them.
`Deed.candidate?` reads this off the deeds without a look at any namespace, `find?_run` says that a
namespace comes to the same, and `loadsFrom_run` what comes of the load: it succeeds exactly if the
candidate can be used under the name, and never turns to any other bytes.
-/

namespace UnitLoader

namespace Deed

/-! ## The rule -/

/-- The bytes stored last for a name since it was last taken out. The latest deed comes first. -/
def storedLast? (name : String) : List Deed → Option (List UInt8)
  | [] => none
  | .stored a :: earlier => if a.name = name then some a.bytes else storedLast? name earlier
  | .removed other :: earlier => if other = name then none else storedLast? name earlier
  | .cleared :: _ => none
  | .appended _ :: earlier => storedLast? name earlier
  | .pushed _ :: earlier => storedLast? name earlier

/-- The bytes of a name in an archive that was added. -/
def inArchive? (name : String) : Deed → Option (List UInt8)
  | .appended archive => archive.get? name
  | _ => none

/-- The bytes that a source that was added has for a name. -/
def inSource? (name : String) : Deed → Option (List UInt8)
  | .pushed source => source.find? name
  | _ => none

/-- The bytes that a name is to be loaded from after deeds, the earliest of which comes first. -/
def candidate? (name : String) (deeds : List Deed) : Option (List UInt8) :=
  (storedLast? name deeds.reverse).or
    ((deeds.findSome? (inArchive? name)).or (deeds.findSome? (inSource? name)))

end Deed

/-! ## What a namespace finds -/

namespace Namespace

variable (n : Namespace) (name : String) (deeds : List Deed)

/-- A namespace looks into the registry first, then into the archives, then into the sources. -/
theorem map_snd_find? : (n.find? name).map Prod.snd =
    (n.registry.get? name).or ((n.lookupArchives name).or
      (n.sources.findSome? fun source => source.find? name)) := by
  have hsources : (n.find? name).map Prod.snd =
      n.allSources.findSome? fun source => source.find? name := by
    rw [find?, List.map_findSome?]
    congr 1
    funext source
    cases h : source.find? name <;> simp [h]
  rw [hsources, allSources, List.findSome?_cons, List.findSome?_cons]
  dsimp only
  cases n.registry.get? name <;> cases n.lookupArchives name <;> rfl

/-- The registry holds what was stored last. -/
theorem get?_registry_afterAll (policy : RedefinitionPolicy) :
    ((empty policy).afterAll deeds).registry.get? name = Deed.storedLast? name deeds.reverse := by
  -- The latest deed is the one that is looked at first.
  obtain ⟨latestFirst, rfl⟩ : ∃ latestFirst, deeds = latestFirst.reverse :=
    ⟨deeds.reverse, (List.reverse_reverse deeds).symm⟩
  rw [List.reverse_reverse]
  induction latestFirst with
  | nil => rfl
  | cons d earlier ih =>
    have hlast : (empty policy).afterAll (d :: earlier).reverse =
        ((empty policy).afterAll earlier.reverse).after d := by
      rw [List.reverse_cons, afterAll, List.foldl_append]
      rfl
    rw [hlast]
    cases d with
    | stored a =>
      rw [after, insert, NameMap.get?_insert, ih, Deed.storedLast?]
      simp only [eq_comm]
    | removed other =>
      rw [after, unregister, NameMap.get?_erase, ih, Deed.storedLast?]
      simp only [eq_comm]
    | cleared => rfl
    | appended archive => exact ih
    | pushed source => exact ih

/-- If each deed adds its own behind what is found, deeds add behind it what the first of them
has. -/
theorem or_afterAll (look : Namespace → Option (List UInt8))
    {adds : Deed → Option (List UInt8)} (h : ∀ n d, look (n.after d) = (look n).or (adds d)) :
    look (n.afterAll deeds) = (look n).or (deeds.findSome? adds) := by
  induction deeds generalizing n with
  | nil => exact Option.or_none.symm
  | cons d rest ih =>
    calc look ((n.after d).afterAll rest)
        = ((look n).or (adds d)).or (rest.findSome? adds) := by rw [ih, h]
      _ = (look n).or ((d :: rest).findSome? adds) := by
        rw [Option.or_assoc, List.findSome?_cons]
        cases adds d <;> rfl

/-- The archives that were there are looked into before those that were added. -/
theorem lookupArchives_afterAll : (n.afterAll deeds).lookupArchives name =
    (n.lookupArchives name).or (deeds.findSome? (Deed.inArchive? name)) := by
  refine or_afterAll n deeds (·.lookupArchives name) fun n d => ?_
  cases d with
  | appended archive =>
    rw [lookupArchives, after, List.findSome?_append, List.findSome?_singleton]
    rfl
  | _ => exact Option.or_none.symm

/-- So it is with the sources. -/
theorem findSome?_sources_afterAll :
    ((n.afterAll deeds).sources.findSome? fun source => source.find? name) =
      (n.sources.findSome? fun source => source.find? name).or
        (deeds.findSome? (Deed.inSource? name)) := by
  refine or_afterAll n deeds (fun n => n.sources.findSome? fun source => source.find? name)
    fun n d => ?_
  cases d with
  | pushed source =>
    rw [after, push, List.findSome?_append, List.findSome?_singleton]
    rfl
  | _ => exact Option.or_none.symm

/-- So the candidate is what is found. -/
theorem map_snd_find?_afterAll (policy : RedefinitionPolicy) :
    (((empty policy).afterAll deeds).find? name).map Prod.snd = Deed.candidate? name deeds := by
  rw [map_snd_find?, get?_registry_afterAll, lookupArchives_afterAll, findSome?_sources_afterAll]
  rfl

end Namespace

namespace Engine

/-! ## What a load comes to -/

/-- In every run the bytes found for a name at the end are the candidate of the deeds. -/
theorem find?_run (config : Config) (world : World) (log : List LogLine) (events : List Event)
    (name : String) :
    ((runFrom (start config world log) events).engine.loader.find? name).map Prod.snd =
      Deed.candidate? name (deeds (start config world log) events) := by
  rw [← Namespace.map_snd_find?_afterAll, ← unloaded_run config world log events]
  rfl

/-- What comes of loading a name from the candidate alone. Without one the load fails and says so. A
candidate that can be used under the name becomes a new type, and for any other the load fails for
the fault of the candidate. All that is left of a load that fails is that an image may have been
opened. -/
def LoadsFrom (s : State) (name : String) : (candidate : Option (List UInt8)) → Prop
  | none => load name s = .error (.error (.resolution name)) s
  | some bytes =>
    (Loadable s.world.images name bytes ∧ ∃ t s', t.bytes = bytes ∧
      s.world.images bytes = some t.library ∧ load name s = .ok (s.world.memory.add t).1 s' ∧
      s'.world.memory = (s.world.memory.add t).2) ∨
    (¬Loadable s.world.images name bytes ∧ ∃ fault,
      LoadedType.load s.world.images name bytes = .error fault ∧
      load name s = .error (.error (.invalidArtifact name
          (fault.message (s.world.causes s.usage.opened bytes fault))))
        { s with usage := s.usageOf name })

/-- A name that is not loaded is loaded from what the namespace finds first, and from nothing
else. -/
theorem loadsFrom_find? {s : State} (htidy : s.engine.loader.Tidy) {name : String}
    (h : s.engine.loader.isLoaded name = false) :
    LoadsFrom s name ((s.engine.loader.find? name).map Prod.snd) := by
  rcases load_cases htidy name with ⟨handle, hfull, -⟩ | ⟨-, e, hfault, hrun⟩ |
    ⟨-, origin, bytes, t, log, hfind, htype, hrun⟩
  · rw [Namespace.isLoaded, hfull] at h
    contradiction
  · -- Nothing is found, or what is found cannot be used; nothing else is looked for then.
    rcases hfault with ⟨hnone, rfl⟩ | ⟨origin, bytes, fault, hfind, hload, rfl⟩
    · rw [s.usageOf_of_find? hnone] at hrun
      rw [hnone]
      exact hrun
    · rw [hfind]
      refine .inr ⟨fun hloadable => ?_, fault, hload, hrun⟩
      obtain ⟨t, ht⟩ := LoadedType.loadable_iff.1 hloadable
      rw [hload] at ht
      contradiction
  · rw [hfind]
    obtain ⟨library, manifest, himage, -, rfl⟩ := LoadedType.load_eq_ok_iff.1 htype
    exact .inl ⟨LoadedType.loadable_iff.2 ⟨_, htype⟩, _, _, rfl, himage, hrun, rfl⟩

/-- **The order of resolution:** after every run, a name that is not loaded is loaded from the
candidate that the deeds of the run tell, and from nothing else. -/
theorem loadsFrom_run (config : Config) (world : World) (log : List LogLine) (events : List Event)
    (name : String)
    (h : (runFrom (start config world log) events).engine.loader.isLoaded name = false) :
    LoadsFrom (runFrom (start config world log) events) name
      (Deed.candidate? name (deeds (start config world log) events)) := by
  rw [← find?_run]
  exact loadsFrom_find? (tidy_run config world log events) h

/-- A library that shows the manifest of a name without operations. -/
def plainLibrary (name : String) : Library where
  exports _ := true
  manifest := some (Text.Utf8.encode
    (Manifest.text { abi := Manifest.currentAbi, typeName := name, operations := [] }))
  construct _ := none
  invoke _ _ := ⟨0, none⟩
  opening := .nothing
  writes _ _ := .nothing
  closing _ := .nothing

/-- What the system says of an image, by the number of those that were opened before. -/
def describedImage (opened : Nat) : String :=
  "/proc/self/fd/" ++ toString (3 + opened) ++ ": invalid ELF header"

/-- There are no files, and two bytes are a library of a name. -/
def plainWorld : World where
  files := .empty
  environment := ⟨[]⟩
  images bytes := if bytes = [1, 2] then some (plainLibrary "A") else none
  causes opened _ _ := describedImage opened
  draws := .counting
  memory := .empty
  calls := []

/-- A source has a name, and something else is stored for it and taken out again. -/
def uncovered : List Event :=
  [.command (.push (.ofEntries "s" [("A", [1, 2])])), .command (.insert ⟨"A", [3]⟩),
    .command (.unregister "A")]

/-- The name is loaded from the source again. -/
theorem loadsFrom_run_uncovered :
    let s := start .standard plainWorld []
    (runFrom s uncovered).engine.loader.isLoaded "A" = false ∧
      Deed.candidate? "A" (deeds s uncovered) = some [1, 2] ∧
      LoadsFrom (runFrom s uncovered) "A" (some [1, 2]) := by
  intro s
  have h : (runFrom s uncovered).engine.loader.isLoaded "A" = false := rfl
  have hcandidate : Deed.candidate? "A" (deeds s uncovered) = some [1, 2] := rfl
  refine ⟨h, hcandidate, ?_⟩
  rw [← hcandidate]
  exact loadsFrom_run .standard plainWorld [] uncovered "A" h

end Engine

end UnitLoader
