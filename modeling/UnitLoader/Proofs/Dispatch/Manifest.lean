import Mathlib.Data.List.TakeWhile
import UnitLoader.Dispatch.Basic
import UnitLoader.Proofs.Manifest
import UnitLoader.Proofs.Memory

/-!
# What a dispatch module says of its unit is accepted

The manifest of a dispatch module has the current version and the name of its unit, so its text is
read back (`Manifest.parse_text`) and passes every check under that name: a library that exports it
is loaded, and the operations that can be called are those that were planned (`load_of_generate`).
`accepted_back` puts this beside what holds of all manifests: each one is read back from its text,
and each text that is accepted may be replaced by the text of its manifest.
-/

namespace UnitLoader.Dispatch

/-- A dispatch module has the manifest of its unit. -/
theorem manifest_of_generate {u : SourceUnit} {d : Dispatch} (h : generate u = .ok d) :
    d.manifest.abi = Manifest.currentAbi ∧ d.manifest.typeName = u.name := by
  unfold generate at h
  split at h
  · contradiction
  · obtain rfl := Except.ok.inj h
    exact ⟨rfl, rfl⟩

/-- A library that exports every function and shows that manifest is loaded under the name of the
unit, with the operations of the manifest. -/
theorem load_of_generate {u : SourceUnit} {d : Dispatch} (h : generate u = .ok d)
    {images : List UInt8 → Option Library} {bytes : List UInt8} {library : Library}
    (himage : images bytes = some library) (hexports : ∀ f, library.exports f = true)
    (hmanifest : library.manifest = some (Text.Utf8.encode d.manifest.text)) :
    library.checked u.name = .ok d.manifest ∧
      ∃ t, LoadedType.load images u.name bytes = .ok t ∧
        t.operations = d.manifest.operations := by
  obtain ⟨habi, hname⟩ := manifest_of_generate h
  have hsize : d.manifest.abi < UInt32.size := by
    rw [habi]
    decide
  have hchecked : library.checked u.name = .ok d.manifest :=
    Library.checked_eq_ok_iff.2 ⟨hexports, _, hmanifest, Manifest.parse_text hsize, habi, hname⟩
  exact ⟨hchecked, _, LoadedType.load_eq_ok_iff.2 ⟨library, d.manifest, himage, hchecked, rfl⟩, rfl⟩

/-- **What is written is accepted back:** every manifest is read from its text as it is; so a
library that exports every function and the text of a unit's manifest passes the checks under the
name of the unit and has the operations of the manifest, in order; and every text that is read as a
manifest may be replaced by the text of that manifest. -/
theorem accepted_back :
    (∀ m : Manifest, m.abi < UInt32.size → Manifest.parse (Text.Utf8.encode m.text) = .ok m) ∧
    (∀ (u : SourceUnit) (d : Dispatch), generate u = .ok d →
      ∀ (images : List UInt8 → Option Library) (bytes : List UInt8) (library : Library),
        images bytes = some library → (∀ f, library.exports f = true) →
        library.manifest = some (Text.Utf8.encode d.manifest.text) →
        library.checked u.name = .ok d.manifest ∧
          ∃ t, LoadedType.load images u.name bytes = .ok t ∧
            t.operations = d.manifest.operations) ∧
    (∀ (bytes : List UInt8) (m : Manifest), Manifest.parse bytes = .ok m →
      Manifest.parse (Text.Utf8.encode m.text) = .ok m) :=
  ⟨fun _ habi => Manifest.parse_text habi,
    fun _ _ hd _ _ _ himage hexports hmanifest => load_of_generate hd himage hexports hmanifest,
    fun _ _ hparse => Manifest.parse_text_of_parse hparse⟩

/-- A manifest with characters that have to be escaped and others that do not. -/
def escapedManifest : Manifest where
  abi := 7
  typeName := "\"\\\n\x01é😀"
  operations := [⟨"f", .refMut, [⟨"x", "&str"⟩], none⟩]

/-- The text of a manifest in another order, with a member of its own. -/
def reorderedText : List Char :=
  "\x7b\"operations\":[],\"size\":[0.5],\"type_name\":\"A\",\"abi\":1\x7d".toList

/-- A source with a method. -/
def methodSource : String := "pub struct A; impl A \x7b pub fn f(&self) -> u8 \x7b 1 \x7d \x7d"

/-- A library that shows a text as its manifest. -/
def showing (text : List Char) : Library where
  exports _ := true
  manifest := some (Text.Utf8.encode text)
  construct _ := none
  invoke _ _ := ⟨0, none⟩
  opening := .nothing
  writes _ _ := .nothing
  closing _ := .nothing

/-- All three are read back. -/
theorem accepted_back_escaped :
    Manifest.parse (Text.Utf8.encode escapedManifest.text) = .ok escapedManifest ∧
    (∃ d, generate ⟨"A", methodSource⟩ = .ok d ∧
      ∃ t, LoadedType.load (fun _ => some (showing d.manifest.text)) "A" [] = .ok t ∧
        t.operations = d.manifest.operations) ∧
    Manifest.parse (Text.Utf8.encode reorderedText) = .ok ⟨1, "A", []⟩ ∧
      Manifest.parse (Text.Utf8.encode (Manifest.text ⟨1, "A", []⟩)) = .ok ⟨1, "A", []⟩ := by
  obtain ⟨hwritten, hgenerated, hread⟩ := accepted_back
  obtain ⟨d, hd⟩ : ∃ d, generate ⟨"A", methodSource⟩ = .ok d := ⟨_, rfl⟩
  have hreordered : Manifest.parse (Text.Utf8.encode reorderedText) = .ok ⟨1, "A", []⟩ := by
    decide +kernel
  refine ⟨hwritten escapedManifest (by decide), ⟨d, hd, ?_⟩, hreordered, hread _ _ hreordered⟩
  exact (hgenerated _ d hd _ [] (showing d.manifest.text) rfl (fun _ => rfl) rfl).2

end UnitLoader.Dispatch
