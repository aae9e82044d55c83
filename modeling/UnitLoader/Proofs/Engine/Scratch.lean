import UnitLoader.Engine.Scratch
import UnitLoader.Proofs.Engine.Ensures
import UnitLoader.Proofs.Files.Entry
import UnitLoader.Proofs.Files.Within
import UnitLoader.Proofs.Text.Places

/-!
# Scratch directories leave no trace

A scratch directory is made where nothing stands (`Scratch.Opened`). While it stands, files differ
from what they were only at its place and below (`Files.Within`), and it is taken away with all that
is below it, so that nothing is left of it: `ensures_during` says so of every action that works in a
scratch directory. What may be left is what was made to reach it, the directories of the configured
root (`Files.Leaves`).

Any text can be the name of a unit: it may hold slashes, dots and null characters, or be empty. What
is left of it in the name of the crate are small letters, digits and underscores
(`Scratch.isCrateChar_of_mem_crateName`), so the library and the log of a unit are entries of the
scratch directory (`Scratch.paths_in_scratch`).
-/

namespace UnitLoader

namespace Engine

open UnitLoader.Engine.Action

/-- Nothing differs from a world but the files in the directory at a place. -/
def WorkingAt (c : Config) (n : Namespace) (w : World) (f : Files) (place : Place) (s : State) :
    Prop :=
  ∃ g, f.Within place g ∧ At c n { w with files := g } s

/-- Nothing differs from a world but what a scratch directory leaves of the files. -/
def LeftAt (c : Config) (n : Namespace) (w : World) (s : State) : Prop :=
  ∃ f', w.files.Leaves c.scratchRoot f' ∧ At c n { w with files := f' } s

/-- If nothing was done, nothing differs. -/
theorem At.left {c : Config} {n : Namespace} {w : World} {s : State} (h : At c n w s) :
    LeftAt c n w s := ⟨w.files, .untouched, h⟩

/-- What is left of a namespace is the namespace itself. -/
theorem LeftAt.loader {c : Config} {n : Namespace} {w : World} {s : State} (h : LeftAt c n w s) :
    s.engine.loader = n := by
  obtain ⟨f', -, hs⟩ := h
  exact hs.loader

/-! ## Names in a scratch directory -/

namespace Scratch

/-- A small letter, a digit or an underscore. -/
def IsCrateChar (c : Char) : Prop := ('a' ≤ c ∧ c ≤ 'z') ∨ ('0' ≤ c ∧ c ≤ '9') ∨ c = '_'

/-- Whatever the character of a name is, that of the crate name is one of these. -/
theorem isCrateChar_crateChar (c : Char) : IsCrateChar (SourceUnit.crateChar c) := by
  unfold SourceUnit.crateChar
  split
  · -- A capital letter becomes a small one.
    rename_i hupper
    have hlow : 65 ≤ c.toNat := hupper.1
    have hhigh : c.toNat ≤ 90 := hupper.2
    have hlower : (Char.ofNat (c.toNat + 32)).toNat = c.toNat + 32 := by
      rw [Char.ofNat, dif_pos (.inl (by omega))]
      rfl
    refine .inl ⟨?_, ?_⟩
    · change 97 ≤ (Char.ofNat (c.toNat + 32)).toNat
      omega
    · change (Char.ofNat (c.toNat + 32)).toNat ≤ 122
      omega
  split
  · rename_i hsame
    exact hsame.imp_right .inl
  · exact .inr (.inr rfl)

/-- The name of a crate holds no others. -/
theorem isCrateChar_of_mem_crateName {u : SourceUnit} {c : Char} (h : c ∈ u.crateName.toList) :
    IsCrateChar c := by
  have hprefix : ∀ c ∈ "hotload_unit_".toList, IsCrateChar c := by
    unfold IsCrateChar
    decide
  rw [SourceUnit.crateName, SourceUnit.crateNameOf, String.toList_append, List.mem_append] at h
  obtain h | h := h
  · exact hprefix c h
  · rw [String.toList_ofList] at h
    obtain ⟨d, -, rfl⟩ := List.mem_map.1 h
    exact isCrateChar_crateChar d

/-- A crate name can stand in a directory. -/
theorem isEntryName_crateName (u : SourceUnit) : Files.IsEntryName u.crateName where
  starts := ⟨'h', _, by decide, String.toList_append⟩
  noSlash h := absurd (isCrateChar_of_mem_crateName h) (by unfold IsCrateChar; decide)
  noNul h := absurd (isCrateChar_of_mem_crateName h) (by unfold IsCrateChar; decide)

/-- So can the name of a log. -/
theorem isEntryName_logName (u : SourceUnit) : Files.IsEntryName (logName u) :=
  (isEntryName_crateName u).append (by decide) (by decide)

/-- So can the name of a library. -/
theorem isEntryName_libraryName (u : SourceUnit) : Files.IsEntryName u.libraryName := by
  have hstem : Files.IsEntryName "lib" := ⟨⟨'l', "ib".toList, by decide, rfl⟩, by decide, by decide⟩
  have hcrate := isEntryName_crateName u
  exact (hstem.append hcrate.noSlash hcrate.noNul).append (by decide) (by decide)

/-- No log has the name of a library, whatever the units are. -/
theorem libraryName_ne_logName (u v : SourceUnit) : u.libraryName ≠ logName v := by
  have hlog : (logName v).toList.head? = some 'h' := by
    rw [logName, SourceUnit.crateName, SourceUnit.crateNameOf, String.toList_append,
      String.toList_append]
    rfl
  have hlibrary : u.libraryName.toList.head? = some 'l' := by
    rw [SourceUnit.libraryName, String.toList_append, String.toList_append]
    rfl
  -- The one starts with the name of the crate, the other with that of a library.
  intro same
  rw [same, hlog] at hlibrary
  contradiction

/-- Where the name of the log is not too long, that of the library is not either. -/
theorem byteLength_libraryName_le (u : SourceUnit) :
    Text.byteLength u.libraryName.toList ≤ Text.byteLength (logName u).toList := by
  have hlead : Text.byteLength "lib".toList = 3 := by decide
  have hend : Text.byteLength ".so".toList = 3 := by decide
  have hlog : Text.byteLength ".stderr".toList = 7 := by decide
  rw [SourceUnit.libraryName, logName]
  simp only [String.toList_append, Text.byteLength_append, hlead, hend, hlog]
  omega

/-- **No name leads out of the scratch directory.** Whatever the name of a unit is, the name of its
crate starts with the prefix and holds small letters, digits and underscores only. The paths of its
library and its log are those of two entries of the scratch directory, and the log of no unit is
where the library is. -/
theorem paths_in_scratch (s : Scratch) (u : SourceUnit) :
    (∃ stem, u.crateName = "hotload_unit_" ++ stem) ∧ (∀ c ∈ u.crateName.toList, IsCrateChar c) ∧
    Files.IsEntryPath s.path u.libraryName (s.artifactPath u) ∧
    Files.IsEntryPath s.path (logName u) (s.logPath u) ∧
    ∀ v, s.artifactPath u ≠ s.logPath v := by
  refine ⟨⟨_, rfl⟩, fun c => isCrateChar_of_mem_crateName, ?_, ?_, fun v same => ?_⟩
  · exact Files.isEntryPath_join s.path (isEntryName_libraryName u)
  · exact Files.isEntryPath_join s.path (isEntryName_logName u)
  · exact libraryName_ne_logName u v (Files.join_injective s.path same)

example : (SourceUnit.mk "../É\x00b/" "").crateName = "hotload_unit______b_" := by decide

/-! ## Opening -/

/-- A scratch directory that can be made: its path leads to a place where nothing stands. -/
structure Opened (scratch : Scratch) (f : Files) (place : Place) : Prop where
  /-- The path leads to the place. -/
  resolve : f.resolve scratch.path = .ok place
  /-- Nothing stands there. -/
  free : f.node? place = none

section

variable {scratch : Scratch} {f g : Files} {place : Place} {c : Config} {n : Namespace} {w : World}
  {E : Failure → State → Prop}

theorem Opened.not_isTop (h : scratch.Opened f place) : ¬Files.IsTop place :=
  Files.not_isTop_of_node? (f := f) (by simp [h.free])

/-- While the directory stands, its path leads to it. -/
theorem Opened.resolve_within (h : scratch.Opened f place) (hg : f.Within place g) :
    g.resolve scratch.path = .ok place :=
  (Files.resolve_of_ok h.free (hg.agreeOutside h.not_isTop) h.resolve).1

/-- What stands in the directory stands at no top. -/
theorem Opened.not_isTop_entry (h : scratch.Opened f place) (name : String) :
    ¬Files.IsTop (place ++ [name]) :=
  fun htop => h.not_isTop (htop.of_prefix (List.prefix_append place [name]))

/-- Nothing stands in a new directory. -/
theorem Opened.node?_putDirectory (h : scratch.Opened f place) (name : String) :
    (f.putDirectory place).node? (place ++ [name]) = none := by
  rw [Files.node?_putDirectory f h.not_isTop, if_neg, if_pos (List.prefix_append place [name])]
  exact fun same => List.cons_ne_nil _ _ (List.append_right_eq_self.1 same)

/-- What is put into the directory under a name changes nothing under another. -/
theorem Opened.node?_put (h : scratch.Opened f place) (g : Files) (name other : String)
    (node : Node) : (g.put (place ++ [name]) node).node? (place ++ [other]) =
      if other = name then some node else g.node? (place ++ [other]) := by
  rw [Files.node?_put g (h.not_isTop_entry name)]
  simp

/-- A directory is made only where nothing stands. -/
theorem makeDirectory_eq_ok {path : String} (h : f.makeDirectory path = .ok g) :
    ∃ place, f.resolve path = .ok place ∧ f.node? place = none ∧ g = f.putDirectory place := by
  unfold Files.makeDirectory at h
  split at h
  · contradiction
  · rename_i place hresolve
    split at h
    · rename_i hnone
      exact ⟨place, hresolve, hnone, (Except.ok.inj h).symm⟩
    · contradiction

/-- Whatever name is found, nothing else comes of looking for it. -/
theorem ensures_newName (taken : List String) :
    Ensures (At c n w) (newName taken) (fun _ => At c n w)
      (fun e s => ¬e.IsReport ∧ At c n w s) := by
  refine ensures_get fun s _ => ?_
  split
  · exact (ensures_modifyUsage _).bind fun _ =>
      ensures_throw fun s hs => ⟨not_isReport_io _, hs⟩
  · exact (ensures_modifyUsage _).bind fun _ => ensures_pure fun s hs => hs

theorem ensures_makeIn (directory : String) :
    Ensures (At c n w) (makeIn directory)
      (fun scratch s => ∃ place, scratch.Opened w.files place ∧
        At c n { w with files := w.files.putDirectory place } s)
      (fun e s => ¬e.IsReport ∧ At c n w s) := by
  refine ensures_get fun s hs => (ensures_newName _).bind fun name => ?_
  rw [hs.world]
  refine (ensures_ofFiles fun fault s _ hs => ⟨not_isReport_io fault, hs⟩).bind fun files =>
    ensures_and fun hfiles => ?_
  obtain ⟨place, hresolve, hfree, rfl⟩ := makeDirectory_eq_ok hfiles
  refine (ensures_setFiles _).bind fun _ => ensures_pure fun s hs => ?_
  exact ⟨place, ⟨hresolve, hfree⟩, hs⟩

/-- A scratch directory is made in the scratch root, whose directories are made first. -/
theorem ensures_make :
    Ensures (At c n w) make
      (fun scratch s => ∃ place, scratch.Opened (w.files.rooted c.scratchRoot) place ∧
        At c n { w with files := (w.files.rooted c.scratchRoot).putDirectory place } s)
      (fun e s => ¬e.IsReport ∧ At c n { w with files := w.files.rooted c.scratchRoot } s) := by
  refine ensures_get fun s hs => ?_
  rw [hs.config]
  cases c.scratchRoot with
  | none => exact ensures_makeIn systemDirectory
  | some root => exact (ensures_changeFiles _).bind fun _ => ensures_makeIn root

/-! ## Writing -/

/-- A file is written, or the file system refuses it and nothing happens. -/
theorem ensures_writeFile (path : String) (bytes : List UInt8) :
    Ensures (At c n w) (writeFile path bytes)
      (fun _ s => ∃ files, w.files.write path bytes = .ok files ∧ At c n { w with files } s)
      (fun e s => ∃ fault, w.files.write path bytes = .error fault ∧ ¬e.IsReport ∧ At c n w s) := by
  refine ensures_get fun s hs => ?_
  rw [hs.world]
  refine Ensures.bind (ensures_ofFiles fun fault s hfault hs =>
    ⟨fault, hfault, not_isReport_io fault, hs⟩) fun files =>
    ensures_and fun hfiles => ?_
  exact (ensures_setFiles files).mono_ok fun _ s hs => ⟨files, hfiles, hs⟩

/-- A file is written into the scratch directory, unless its name is too long. -/
theorem ensures_writeEntry (h : scratch.Opened f place) (hg : f.Within place g) {name : String}
    (hname : Files.IsEntryName name) (hfree : g.node? (place ++ [name]) ≠ some .directory)
    (bytes : List UInt8) :
    Ensures (At c n { w with files := g }) (writeFile (Files.join scratch.path name) bytes)
      (fun _ s => Text.byteLength name.toList ≤ Files.longestName ∧
        At c n { w with files := g.put (place ++ [name]) (.file bytes) } s)
      (fun e s => ¬Text.byteLength name.toList ≤ Files.longestName ∧ ¬e.IsReport ∧
        At c n { w with files := g } s) := by
  -- The directory is there and the place is free; so only the length of the name may be refused.
  have hwrite : g.write (Files.join scratch.path name) bytes =
      if Text.byteLength name.toList ≤ Files.longestName then
        .ok (g.put (place ++ [name]) (.file bytes))
      else .error .nameTooLong := by
    rw [Files.write_join (h.resolve_within hg) hg.directory hname]
    split
    · split
      · contradiction
      · rfl
    · rfl
  refine (ensures_writeFile _ bytes).mono (fun _ s ⟨files, hfiles, hs⟩ => ?_)
    fun _ s ⟨fault, hfault, hreport, hs⟩ => ⟨fun hlong => ?_, hreport, hs⟩
  · dsimp only at hfiles
    rw [hwrite] at hfiles
    split at hfiles
    · rename_i hlong
      exact ⟨hlong, Except.ok.inj hfiles ▸ hs⟩
    · contradiction
  · dsimp only at hfault
    rw [hwrite, if_pos hlong] at hfault
    contradiction

/-! ## Closing -/

/-- The scratch directory is taken away, and what differs is with it. -/
theorem ensures_discard (h : scratch.Opened f place) (hg : f.Within place g) :
    Ensures (At c n { w with files := g }) scratch.discard
      (fun _ => At c n { w with files := f.remove place }) E := by
  refine (ensures_modifyWorld _).mono_ok fun _ s hs => ?_
  dsimp only at hs
  rw [h.resolve_within hg] at hs
  dsimp only at hs
  rwa [hg.outside] at hs

/-- Whatever is done in a scratch directory, if nothing differs but the files in it, the calls of
compilers and, where the action succeeds, the namespace, then nothing but the directories of the
scratch root is left of it in the files. -/
theorem ensures_during {α : Type} {body : Scratch → Action α}
    {R : α → Namespace → List CompilerCall → Prop} {F : Failure → List CompilerCall → Prop}
    (hmake : ∀ e : Failure, ¬e.IsReport → F e w.calls)
    (hbody : ∀ (scratch : Scratch) (f : Files) (place : Place), scratch.Opened f place →
      Ensures (At c n { w with files := f.putDirectory place }) (body scratch)
        (fun value s => ∃ after calls, R value after calls ∧
          WorkingAt c after { w with calls } f place s)
        (fun e s => ∃ calls, F e calls ∧ WorkingAt c n { w with calls } f place s)) :
    Ensures (At c n w) (during body)
      (fun value s => ∃ after calls, R value after calls ∧ LeftAt c after { w with calls } s)
      (fun e s => ∃ calls, F e calls ∧ LeftAt c n { w with calls } s) := by
  refine Ensures.bind (ensures_make.mono_error fun e s ⟨hreport, hs⟩ =>
    ⟨w.calls, hmake e hreport, _, .unopened, hs⟩)
    fun scratch => ensures_exists fun place => ensures_and fun hopened => ?_
  -- Whatever was done in it, the directory is taken away.
  have hclosed (after : Namespace) (calls : List CompilerCall) {E : Failure → State → Prop} :
      Ensures (WorkingAt c after { w with calls } (w.files.rooted c.scratchRoot) place)
        scratch.discard (fun _ => LeftAt c after { w with calls }) E :=
    ensures_exists fun g => ensures_and fun hg => (ensures_discard hopened hg).mono_ok
      fun _ s hs => ⟨_, .closed place hopened.free, hs⟩
  refine (hbody scratch _ place hopened).attempt.bind fun outcome => ?_
  cases outcome with
  | ok value =>
    refine ensures_exists fun after => ensures_exists fun calls => ensures_and fun hR => ?_
    refine (hclosed after calls).bind fun _ => ?_
    exact ensures_pure fun s hs => ⟨after, calls, hR, hs⟩
  | error failure =>
    refine ensures_exists fun calls => ensures_and fun hF => (hclosed n calls).bind fun _ => ?_
    exact ensures_throw fun s hs => ⟨calls, hF, hs⟩

end

end Scratch

end Engine

end UnitLoader
