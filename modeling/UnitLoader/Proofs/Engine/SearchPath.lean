import UnitLoader.Proofs.Archive.Limits
import UnitLoader.Proofs.Engine.History

/-!
# Searching archives is searching their concatenation

The first one counts, and it does so twice: in the index of an archive the first entry of a name,
and among the archives the first that has the name. `findSome?_ofEntries` makes one rule of the two:
the archives of some lists of entries have for a name what the first entry of the name has among
all of them.

Which archives there are is told by the attempts to append one. Each adds the archive in its file
behind the others or, if there is none in it, nothing (`archives_run`). So if the files that can
be opened are those that were written from some lists of entries (`Appended`), every name is looked
up as in the one archive that is written from all of these lists.
-/

namespace UnitLoader

/-! ## Two rules in one -/

namespace Archive

/-- The archive in a file that was written from entries. -/
def ofEntries (location : String) (entries : List Entry) : Archive := ⟨location, index entries⟩

/-- The first archive that has a name has the bytes of the first entry of the name among all. -/
theorem findSome?_ofEntries (parts : List (String × List Entry)) (name : String) :
    ((parts.map fun part => ofEntries part.1 part.2).findSome? fun a => a.get? name) =
      ((parts.flatMap Prod.snd).find? (·.name = name)).map Entry.bytes := by
  have hpart (part : String × List Entry) : (ofEntries part.1 part.2).get? name =
      (part.2.find? (·.name = name)).map Entry.bytes := get?_index part.2 name
  calc ((parts.map fun part => ofEntries part.1 part.2).findSome? fun a => a.get? name)
      = parts.findSome? fun part => (part.2.find? (·.name = name)).map Entry.bytes := by
        rw [List.findSome?_map]
        exact congrArg (parts.findSome? ·) (funext hpart)
    _ = (parts.findSome? fun part => part.2.find? (·.name = name)).map Entry.bytes :=
        List.map_findSome?.symm
    _ = ((parts.flatMap Prod.snd).find? (·.name = name)).map Entry.bytes := by
        rw [List.find?_flatMap]

end Archive

/-! ## Which archives there are -/

/-- The archive that a deed added. -/
def Deed.archive? : Deed → Option Archive
  | .appended archive => some archive
  | _ => none

/-- The archives that were there stay in front, and deeds add theirs behind them. -/
theorem Namespace.archives_afterAll (n : Namespace) (deeds : List Deed) :
    (n.afterAll deeds).archives = n.archives ++ deeds.filterMap Deed.archive? := by
  induction deeds generalizing n with
  | nil => exact (List.append_nil n.archives).symm
  | cons d rest ih =>
    have hfirst : (n.after d).archives = n.archives ++ d.archive?.toList := by
      cases d with
      | appended archive => rfl
      | _ => exact (List.append_nil n.archives).symm
    have hlist : (d :: rest).filterMap Deed.archive? =
        d.archive?.toList ++ rest.filterMap Deed.archive? := by
      cases d <;> rfl
    calc ((n.after d).afterAll rest).archives
        = (n.after d).archives ++ rest.filterMap Deed.archive? := ih (n.after d)
      _ = n.archives ++ (d :: rest).filterMap Deed.archive? := by
        rw [hfirst, hlist, List.append_assoc]

namespace Engine

/-- An attempt to append the archive in a file. -/
structure Attempt where
  /-- The path of the file. -/
  location : String
  /-- What is read from it, if it can be read. -/
  content : Except FileFault (List UInt8)
  deriving DecidableEq

/-- The attempt that an event is, if it is one. -/
def Event.attempt? (s : State) : Event → Option Attempt
  | .command (.append location) => some ⟨location, s.world.files.read location⟩
  | _ => none

/-- The attempts among events. -/
def attempts (s : State) : List Event → List Attempt
  | [] => []
  | e :: rest => (e.attempt? s).toList ++ attempts (e.after s) rest

/-- The archive that comes of an attempt, if one does. -/
def Attempt.archive? (attempt : Attempt) : Option Archive :=
  (Archive.ofFile attempt.location attempt.content).toOption

/-- A compilation adds no archive. -/
theorem archive?_storedBy? (result : EStateM.Result Failure State Compiled) :
    (storedBy? result).bind Deed.archive? = none := by
  cases result <;> rfl

/-- The archive that an event adds is that of the attempt that it is. -/
theorem archive?_deed? (s : State) (e : Event) :
    (e.deed? s).bind Deed.archive? = (e.attempt? s).bind Attempt.archive? := by
  cases e with
  | change c => rfl
  | command c =>
    -- An append is the one attempt that there is; no other command adds an archive.
    cases c with
    | append location =>
      change ((Archive.ofFile location (s.world.files.read location)).toOption.map
        Deed.appended).bind Deed.archive? =
          (Archive.ofFile location (s.world.files.read location)).toOption
      cases Archive.ofFile location (s.world.files.read location) <;> rfl
    | register a =>
      unfold Event.deed? Command.deed?
      dsimp only
      cases Engine.register a s <;> rfl
    | compile name source options => exact archive?_storedBy? _
    | compileWithin name source options limit => exact archive?_storedBy? _
    | compileAndLoad source options =>
      change ((resolveName source).toOption.bind _).bind Deed.archive? = none
      cases resolveName source with
      | error e => rfl
      | ok name => exact archive?_storedBy? _
    | _ => rfl

/-- So it is with the archives that events add. -/
theorem archive?_deeds (s : State) (events : List Event) :
    (deeds s events).filterMap Deed.archive? =
      (attempts s events).filterMap Attempt.archive? := by
  have htoList {α : Type} (o : Option α) (f : α → Option Archive) :
      o.toList.filterMap f = (o.bind f).toList := by
    cases o with
    | none => rfl
    | some value => cases hvalue : f value <;> simp [hvalue]
  induction events generalizing s with
  | nil => rfl
  | cons e rest ih =>
    rw [deeds, attempts, List.filterMap_append, List.filterMap_append, htoList, htoList,
      archive?_deed?, ih]

/-- The archives at the end of a run are those that came of its attempts, in the same order. -/
theorem archives_run (config : Config) (world : World) (log : List LogLine)
    (events : List Event) :
    (runFrom (start config world log) events).engine.loader.archives =
      (attempts (start config world log) events).filterMap Attempt.archive? := by
  have hunloaded := congrArg Namespace.archives (unloaded_run config world log events)
  calc (runFrom (start config world log) events).engine.loader.archives
      = ((Namespace.empty config.policy).afterAll
          (deeds (start config world log) events)).archives := hunloaded
    _ = (deeds (start config world log) events).filterMap Deed.archive? :=
        Namespace.archives_afterAll _ _
    _ = (attempts (start config world log) events).filterMap Attempt.archive? :=
        archive?_deeds _ events

/-! ## Archives that were written -/

/-- The files that were to be appended were written from lists of entries, but for some that cannot
be opened. -/
inductive Appended : List Attempt → List (String × List Archive.Entry) → Prop where
  /-- There are none. -/
  | nil : Appended [] []
  /-- The file was written from entries. -/
  | written {location : String} {entries : List Archive.Entry} {later : List Attempt}
      {parts : List (String × List Archive.Entry)} (h : Appended later parts) :
      Appended (⟨location, .ok (Archive.encodeFile entries)⟩ :: later)
        ((location, entries) :: parts)
  /-- The file cannot be opened. -/
  | refused {attempt : Attempt} {later : List Attempt}
      {parts : List (String × List Archive.Entry)} {e : Error}
      (hrefused : Archive.ofFile attempt.location attempt.content = .error e)
      (h : Appended later parts) :
      Appended (attempt :: later) parts

/-- What comes of the attempts is the archives of the entries. -/
theorem Appended.archives {tried : List Attempt} {parts : List (String × List Archive.Entry)}
    (h : Appended tried parts)
    (hlimits : ∀ part ∈ parts, Archive.WithinLimits (Archive.encodeFile part.2)) :
    tried.filterMap Attempt.archive? = parts.map fun part => Archive.ofEntries part.1 part.2 := by
  induction h with
  | nil => rfl
  | @written location entries later parts h ih =>
    obtain ⟨hfirst, hrest⟩ := List.forall_mem_cons.1 hlimits
    have harchive : Attempt.archive? ⟨location, .ok (Archive.encodeFile entries)⟩ =
        some (Archive.ofEntries location entries) :=
      congrArg Except.toOption (Archive.ofFile_eq_of_withinLimits location hfirst)
    rw [List.filterMap_cons_some harchive, ih hrest, List.map_cons]
  | @refused attempt later parts e hrefused h ih =>
    have hnone : attempt.archive? = none := congrArg Except.toOption hrefused
    rw [List.filterMap_cons_none hnone, ih hlimits]

/-- **Searching archives is searching their concatenation.** In a run let the files that were to be
appended be written from lists of entries, but for some that cannot be opened, and let a file that
is written from all the entries be within the limits. Then every one of the archives is added, in
the order of the attempts. The file of all entries is opened, wherever it stands, and every name
stands in it for what is looked up for the name: the bytes of the first entry that has it. And
wherever an archive cannot be appended, the namespace stays as it is, with all that is looked up. -/
theorem lookupArchives_run (config : Config) (world : World) (log : List LogLine)
    (events : List Event) {parts : List (String × List Archive.Entry)}
    (hparts : Appended (attempts (start config world log) events) parts)
    (hlimits : Archive.WithinLimits (Archive.encodeFile (parts.flatMap Prod.snd))) :
    let n := (runFrom (start config world log) events).engine.loader
    n.archives.map Archive.location = parts.map Prod.fst ∧
      (∀ location, ∃ whole, Archive.ofFile location
          (.ok (Archive.encodeFile (parts.flatMap Prod.snd))) = .ok whole ∧
        ∀ name, n.lookupArchives name = whole.get? name ∧
          whole.get? name =
            ((parts.flatMap Prod.snd).find? (·.name = name)).map Archive.Entry.bytes) ∧
      ∀ s location e s', appendArchive location s = .error e s' →
        s'.engine.loader = s.engine.loader := by
  intro n
  -- Each list of entries is a part of all, so its file is within the limits too.
  have hpart (part : String × List Archive.Entry) (hmem : part ∈ parts) :
      Archive.WithinLimits (Archive.encodeFile part.2) :=
    hlimits.of_sublist (List.sublist_flatten_of_mem (List.mem_map_of_mem hmem))
  have harchives : n.archives = parts.map fun part => Archive.ofEntries part.1 part.2 :=
    calc n.archives
        = (attempts (start config world log) events).filterMap Attempt.archive? :=
          archives_run config world log events
      _ = parts.map fun part => Archive.ofEntries part.1 part.2 := hparts.archives hpart
  refine ⟨?_, fun location => ?_, fun s location e s' hrun => ?_⟩
  · rw [harchives, List.map_map]
    rfl
  · obtain ⟨whole, hopen, hget⟩ := Archive.ofFile_of_withinLimits location hlimits
    refine ⟨whole, hopen, fun name => ⟨?_, hget name⟩⟩
    rw [Namespace.lookupArchives, harchives, Archive.findSome?_ofEntries, hget]
  · obtain ⟨-, -, hs'⟩ := (ensures_appendArchive location).of_error (at_self s) hrun
    exact hs'.loader

/-- Two lists of entries with names that are repeated within them and across. -/
def shelves : List (String × List Archive.Entry) :=
  [("x", [⟨"A", [1]⟩, ⟨"B", [2]⟩, ⟨"A", [3]⟩]), ("y", [⟨"B", [4]⟩, ⟨"C", [5]⟩, ⟨"C", [6]⟩])]

/-- There are the files that are written from them, and one with something else. -/
def shelvesWorld : World where
  files := ⟨(["z"], .file [0]) ::
    shelves.map fun shelf => ([shelf.1], .file (Archive.encodeFile shelf.2))⟩
  environment := ⟨[]⟩
  images _ := none
  causes _ _ _ := ""
  draws := .counting
  memory := .empty
  calls := []

/-- All three are to be appended. -/
def shelving : List Event :=
  ["x", "z", "y"].map fun location => .command (.append location)

/-- The two archives are added, and of every name the first entry counts. -/
theorem lookupArchives_run_shelving :
    let n := (runFrom (start .standard shelvesWorld []) shelving).engine.loader
    n.archives.map Archive.location = ["x", "y"] ∧ n.lookupArchives "A" = some [1] ∧
      n.lookupArchives "B" = some [2] ∧ n.lookupArchives "C" = some [5] ∧
      n.lookupArchives "D" = none := by
  have htried : attempts (start .standard shelvesWorld []) shelving =
      [⟨"x", .ok (Archive.encodeFile [⟨"A", [1]⟩, ⟨"B", [2]⟩, ⟨"A", [3]⟩])⟩, ⟨"z", .ok [0]⟩,
        ⟨"y", .ok (Archive.encodeFile [⟨"B", [4]⟩, ⟨"C", [5]⟩, ⟨"C", [6]⟩])⟩] := by
    decide +kernel
  have hrefused : Archive.ofFile "z" (.ok [0]) =
      .error (.invalidLocation "z" "not a hotload archive") := rfl
  have hparts : Appended (attempts (start .standard shelvesWorld []) shelving) shelves := by
    rw [htried]
    exact .written (.refused hrefused (.written .nil))
  have hlimits : Archive.WithinLimits (Archive.encodeFile (shelves.flatMap Prod.snd)) :=
    Archive.withinLimits_of_weight (by decide)
  obtain ⟨hlocations, hwhole, -⟩ :=
    lookupArchives_run .standard shelvesWorld [] shelving hparts hlimits
  obtain ⟨whole, -, hlookup⟩ := hwhole "w"
  refine ⟨hlocations, ?_, ?_, ?_, ?_⟩
  all_goals
    obtain ⟨hname, hfirst⟩ := hlookup _
    rw [hname, hfirst]
    rfl

end Engine

end UnitLoader
