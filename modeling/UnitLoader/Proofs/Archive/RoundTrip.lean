import Mathlib.Algebra.Ring.Nat
import Mathlib.Data.Finset.Card
import UnitLoader.Archive.Basic
import UnitLoader.Proofs.Archive.Account
import UnitLoader.Proofs.NameMap

/-!
# An archive gives back what was put into it

`ofFile_encodeFile` opens the file of any entries that are not too large together: every name stands
for the bytes of its first entry, and no other name for anything. What entries count for leaves room
both for their bytes in the file (`length_encodeFile_le`) and for the highest that the account gets
(`peak_le_weight`).
-/

namespace UnitLoader.Archive

/-- What an entry may count for in a file: its name, its bytes, and a fixed amount for the rest. -/
def Entry.weight (e : Entry) : Nat := 64 + Text.byteLength e.name.toList + e.bytes.length

/-- What entries may count for in a file, the version and their number included. -/
def weight (entries : List Entry) : Nat := 12 + (entries.map Entry.weight).sum

/-! ## The account -/

namespace Decoder

/-- What entries count for leaves room for the highest that the account gets. -/
theorem peak_le_weight (list : List Entry) : bodyCharge + peak list ≤ weight list := by
  suffices h : peak list ≤ (list.map Entry.weight).sum by
    unfold bodyCharge weight
    omega
  induction list with
  | nil => exact Nat.le_refl 0
  | cons e others ih =>
    have hahead := entryCharge_mul_le_peak others
    rw [peak, List.map_cons, List.sum_cons, Entry.weight, entryCost]
    unfold entryCharge at hahead ⊢
    omega

end Decoder

/-! ## The file -/

/-- A number takes nine bytes at most. -/
theorem length_encodeInteger_le (n : Nat) : (encodeInteger n).length ≤ 9 := by
  unfold encodeInteger
  repeat' split
  all_goals simp [Bytes.length_lowFirst]

/-- An entry takes at least eight bytes less than it counts for. -/
theorem Entry.length_encode_le (e : Entry) : e.encode.length + 8 ≤ e.weight := by
  have hname := length_encodeInteger_le (Text.byteLength e.name.toList)
  have hbytes := length_encodeInteger_le e.bytes.length
  unfold Entry.encode encodeBytes Entry.weight
  rw [List.length_append, List.length_append, List.length_append, Text.Utf8.length_encode]
  omega

/-- The bytes of a file are no more than what its entries count for. -/
theorem length_encodeFile_le (list : List Entry) : (encodeFile list).length ≤ weight list := by
  have hcount : (encodeInteger list.length).length ≤ 1 + 8 * list.length := by
    -- Without entries their number is one byte, and else there is an entry to count for it.
    cases list with
    | nil => exact Nat.le_refl 1
    | cons e others =>
      have := length_encodeInteger_le (e :: others).length
      rw [List.length_cons] at this ⊢
      omega
  have hentries : (list.flatMap Entry.encode).length + 8 * list.length ≤
      (list.map Entry.weight).sum := by
    clear hcount
    induction list with
    | nil => exact Nat.le_refl 0
    | cons e others ih =>
      have hfirst := e.length_encode_le
      rw [List.flatMap_cons, List.length_append, List.length_cons, List.map_cons, List.sum_cons]
      omega
  have hmark : mark.length = 8 := rfl
  have hversion : (encodeInteger formatVersion).length = 1 := rfl
  unfold encodeFile encodeBody weight
  rw [List.length_append, List.length_append, List.length_append, hmark, hversion]
  omega

/-- An entry takes no less than its name and its bytes, and a byte for the length of each. -/
theorem Entry.le_length_encode (e : Entry) :
    2 + Text.byteLength e.name.toList + e.bytes.length ≤ e.encode.length := by
  have hpos (n : Nat) : 1 ≤ (encodeInteger n).length := by
    unfold encodeInteger
    repeat' split
    all_goals simp
  have hname := hpos (Text.byteLength e.name.toList)
  have hbytes := hpos e.bytes.length
  unfold Entry.encode encodeBytes
  rw [List.length_append, List.length_append, List.length_append, Text.Utf8.length_encode]
  omega

/-- In a file that is not too large every length can be written. -/
theorem writable_of_size {list : List Entry} (h : (encodeFile list).length ≤ largestFile) :
    Writable list := by
  have hlimit : largestFile < UInt64.size := by decide
  have hentries : (list.flatMap Entry.encode).length ≤ largestFile := by
    unfold encodeFile encodeBody at h
    rw [List.length_append, List.length_append, List.length_append] at h
    omega
  -- Every entry takes at least one byte, so there are no more of them than bytes.
  have hcount : list.length ≤ (list.flatMap Entry.encode).length := by
    clear h hentries
    induction list with
    | nil => exact Nat.le_refl 0
    | cons e others ih =>
      have hfirst := e.le_length_encode
      rw [List.flatMap_cons, List.length_append, List.length_cons]
      omega
  -- No entry takes more bytes than the whole file, and so neither do its name and its bytes.
  have hpart : ∀ e ∈ list, e.encode.length ≤ largestFile := by
    intro e he
    obtain ⟨front, behind, rfl⟩ := List.append_of_mem he
    rw [List.flatMap_append, List.flatMap_cons, List.length_append, List.length_append] at hentries
    omega
  constructor
  case count => omega
  case name =>
    intro e he
    have hsize := hpart e he
    have hname := e.le_length_encode
    omega
  case bytes =>
    intro e he
    have hsize := hpart e he
    have hbytes := e.le_length_encode
    omega

/-- The version and the entries are read back if they count for no more than the account allows. -/
theorem Decoder.body_encode {list : List Entry} (hroom : weight list ≤ limit) :
    body ⟨encodeBody list, 0⟩ =
      .ok ((formatVersion, list), ⟨[], bodyCharge + (list.map entryCost).sum⟩) := by
  have hsize : (encodeFile list).length ≤ largestFile := (length_encodeFile_le list).trans hroom
  have hpeak : bodyCharge + peak list ≤ limit := (peak_le_weight list).trans hroom
  have hbody := body_eq (writable_of_size hsize) []
  rw [List.append_nil, if_pos hpeak] at hbody
  exact hbody

/-! ## The index -/

/-- Among entries that are indexed behind others, a name that is bound already stays bound, and any
other is bound by the first entry that has it. -/
theorem get?_foldl_insertIfNew (m : NameMap (List UInt8)) (list : List Entry) (name : String) :
    (list.foldl (fun m e => m.insertIfNew e.name e.bytes) m).get? name =
      (m.get? name).or ((list.find? (·.name = name)).map Entry.bytes) := by
  induction list generalizing m with
  | nil => simp
  | cons e others ih =>
    rw [List.foldl_cons, ih, NameMap.get?_insertIfNew]
    by_cases h : name = e.name
    · subst h
      cases m.get? e.name <;> simp
    · rw [if_neg h, List.find?_cons_of_neg (by simpa using fun heq => h heq.symm)]

/-- The first entry of a name counts. -/
theorem get?_index (list : List Entry) (name : String) :
    (index list).get? name = (list.find? (·.name = name)).map Entry.bytes := by
  rw [index, get?_foldl_insertIfNew, NameMap.get?_empty, Option.none_or]

/-- The names of the index are those of the entries. -/
theorem mem_names_index {list : List Entry} {name : String} :
    name ∈ (index list).names ↔ name ∈ list.map Entry.name := by
  rw [NameMap.mem_names, get?_index, Option.isSome_map, List.find?_isSome, List.mem_map]
  simp only [decide_eq_true_eq]

/-! ## The file -/

section

variable {location : String} {content : List UInt8} {archive : Archive}

/-- A file that cannot be opened is told to be an invalid location. -/
theorem ofFile_eq_error {found : Except FileFault (List UInt8)} {e : Error}
    (h : ofFile location found = .error e) : ∃ reason, e = .invalidLocation location reason := by
  unfold ofFile at h
  dsimp only at h
  split at h
  · rename_i bytes
    cases hbytes : ofBytes location bytes with
    | error fault =>
      rw [hbytes] at h
      cases h
      exact ⟨_, rfl⟩
    | ok a =>
      rw [hbytes] at h
      cases h
  · cases h
    exact ⟨_, rfl⟩

/-- What a file must be to be opened: it is not too large, and the mark stands in front of a body of
the current version. -/
theorem ofFile_eq_ok_iff : ofFile location (.ok content) = .ok archive ↔
    content.length ≤ largestFile ∧ ∃ body list, content = mark ++ body ∧
      decodeBody body = .ok (formatVersion, list) ∧ archive = ⟨location, index list⟩ := by
  have hfile : ofFile location (.ok content) = .ok archive ↔
      ofBytes location content = .ok archive := by
    unfold ofFile
    dsimp only
    cases ofBytes location content <;> simp [Except.mapError]
  rw [hfile]
  unfold ofBytes
  constructor
  · -- Only what passes all four tests is opened.
    intro h
    split at h
    · cases h
    rename_i hsize
    split at h
    · cases h
    rename_i hmark
    split at h
    · cases h
    rename_i version list hbody
    split at h
    · rename_i hversion
      cases h
      have hstarts : mark <+: content := by simpa using hmark
      obtain ⟨body, rfl⟩ := hstarts
      rw [List.drop_left, hversion] at hbody
      exact ⟨Nat.not_lt.1 hsize, body, list, rfl, hbody, rfl⟩
    · cases h
  · -- What is written so passes them.
    rintro ⟨hsize, body, list, rfl, hbody, rfl⟩
    have hmark : mark.isPrefixOf (mark ++ body) = true :=
      List.isPrefixOf_iff_prefix.2 (List.prefix_append _ _)
    rw [if_neg (Nat.not_lt.2 hsize), hmark, if_neg (by decide), List.drop_left, hbody]
    exact if_pos rfl

end

/-- A file that is not too large and of which the entries are read back is opened. -/
theorem ofFile_of_decodeBody (location : String) {list : List Entry}
    (hsize : (encodeFile list).length ≤ largestFile)
    (hbody : decodeBody (encodeBody list) = .ok (formatVersion, list)) :
    ofFile location (.ok (encodeFile list)) = .ok ⟨location, index list⟩ :=
  ofFile_eq_ok_iff.2 ⟨hsize, encodeBody list, list, rfl, hbody, rfl⟩

/-- **What was put into an archive is found when it is opened.** The file of entries that together
count for no more than a file may have is an archive in which every name stands for the bytes of the
first entry of that name. Its names are those of the entries, each once and in ascending order, and
their number is that of the different names. -/
theorem ofFile_encodeFile (location : String) {list : List Entry} (h : weight list ≤ largestFile) :
    ∃ a, ofFile location (.ok (encodeFile list)) = .ok a ∧
      (∀ name, a.get? name = (list.find? (·.name = name)).map Entry.bytes) ∧
      a.names.Pairwise (· < ·) ∧
      (∀ name, name ∈ a.names ↔ name ∈ list.map Entry.name) ∧
      a.size = (list.map Entry.name).toFinset.card := by
  have hlength : (encodeFile list).length ≤ largestFile :=
    Nat.le_trans (length_encodeFile_le list) h
  have hbody : decodeBody (encodeBody list) = .ok (formatVersion, list) := by
    unfold decodeBody
    rw [show Decoder.body.run ⟨encodeBody list, 0⟩ = _ from Decoder.body_encode h]
    rfl
  refine ⟨_, ofFile_of_decodeBody location hlength hbody, get?_index list,
    NameMap.names_pairwise _, fun _ => mem_names_index, ?_⟩
  rw [size, ← NameMap.length_names, ← List.toFinset_card_of_nodup (NameMap.names_nodup _)]
  congr 1
  ext name
  rw [List.mem_toFinset, List.mem_toFinset, mem_names_index]

/-- Entries of which two have one name, and whose names take more bytes than characters. -/
def repeated : List Entry := [⟨"é", [1]⟩, ⟨"a", []⟩, ⟨"é", [2]⟩]

/-- The file of `repeated` is opened, and the first entry of the name counts. -/
theorem ofFile_encodeFile_repeated :
    weight repeated ≤ largestFile ∧
      ∃ a, ofFile "a.hla" (.ok (encodeFile repeated)) = .ok a ∧ a.get? "é" = some [1] ∧
        a.get? "a" = some [] ∧ a.get? "b" = none ∧ a.size = 2 := by
  have hweight : weight repeated ≤ largestFile := by decide
  obtain ⟨a, hopen, hget, -, -, hsize⟩ := ofFile_encodeFile "a.hla" hweight
  refine ⟨hweight, a, hopen, ?_, ?_, ?_, ?_⟩
  · rw [hget]
    rfl
  · rw [hget]
    rfl
  · rw [hget]
    rfl
  · rw [hsize]
    rfl

end UnitLoader.Archive
