import UnitLoader.Manifest.Reader
import UnitLoader.Proofs.Json.Reader

/-!
# Manifests are read as they are written

Each part of a manifest is written as an object whose members are its fields, in the order in which
they are declared. So its reader fills one field after the other: `reads_param`, `reads_operation`
and `reads_manifest` go up from the parts to the whole. The text of a manifest is cut into the
lexemes of its value (`lexemes_encode_print`), and nothing follows them; that is `parse_text`.
-/

namespace UnitLoader

open Json (Value)
open Json.Reader

/-- A text is read as it is written. -/
theorem reads_string (s : String) : Reads stringReader (Value.text s.toList).lexemes s := by
  have hread := (reads_text s.toList).map String.ofList
  rwa [String.ofList_toList] at hread

/-- A parameter is read as it is written. -/
theorem reads_param (p : Param) : Reads Param.reader p.toJson.lexemes p := by
  have hrecord : Reads (record Param.form) p.toJson.lexemes ⟨some p.name, some p.type⟩ := by
    refine reads_record (.cons rfl rfl ((reads_string p.name).return _) ?_)
    exact .cons rfl rfl ((reads_string p.type).return _) (.nil _)
  exact fun rest => bind_of_ok (hrecord rest)

/-- A receiver is read as it is written. -/
theorem reads_receiver (r : Receiver) :
    Reads Receiver.reader (Value.text r.name.toList).lexemes r := by
  cases r with
  | none => exact reads_choice rfl
  | ref => exact reads_choice rfl
  | refMut => exact reads_choice rfl

/-- A return type that may be missing is read as it is written. -/
theorem reads_returns (returns : Option String) :
    Reads (optional stringReader)
      (match returns with
        | some type => Value.text type.toList
        | none => .null).lexemes returns := by
  cases returns with
  | none => exact reads_null_optional stringReader
  | some type => exact (reads_string type).optional

/-- An operation is read as it is written. -/
theorem reads_operation (o : Operation) : Reads Operation.reader o.toJson.lexemes o := by
  have hparams : Reads (array Param.reader) (Value.array (o.params.map Param.toJson)).lexemes
      o.params := reads_array fun p _ => reads_param p
  have hrecord : Reads (record Operation.form) o.toJson.lexemes
      ⟨some o.name, some o.receiver, some o.params, some o.returns⟩ := by
    refine reads_record (.cons rfl rfl ((reads_string o.name).return _) ?_)
    refine .cons rfl rfl ((reads_receiver o.receiver).return _) ?_
    refine .cons rfl rfl (hparams.return _) ?_
    exact .cons rfl rfl ((reads_returns o.returns).return _) (.nil _)
  exact fun rest => bind_of_ok (hrecord rest)

/-- A manifest is read as it is written, if its version takes 32 bits. -/
theorem reads_manifest {m : Manifest} (h : m.abi < UInt32.size) :
    Reads Manifest.reader m.toJson.lexemes m := by
  have habi : Reads (natural (UInt32.size - 1)) (Value.natural m.abi).lexemes m.abi :=
    reads_natural (by decide) (Nat.le_sub_one_of_lt h)
  have hoperations : Reads (array Operation.reader)
      (Value.array (m.operations.map Operation.toJson)).lexemes m.operations :=
    reads_array fun o _ => reads_operation o
  have hrecord : Reads (record Manifest.form) m.toJson.lexemes
      ⟨some m.abi, some m.typeName, some m.operations⟩ := by
    refine reads_record (.cons rfl rfl (habi.return _) ?_)
    refine .cons rfl rfl ((reads_string m.typeName).return _) ?_
    exact .cons rfl rfl (hoperations.return _) (.nil _)
  exact fun rest => bind_of_ok (hrecord rest)

namespace Manifest

/-- The text of a manifest is read as the manifest. -/
theorem parse_text {m : Manifest} (h : m.abi < UInt32.size) :
    parse (Text.Utf8.encode m.text) = .ok m := by
  have hread := reads_manifest h []
  rw [List.append_nil] at hread
  rw [parse, run, text, Json.lexemes_encode_print, hread]

/-- The version of a manifest that is read takes 32 bits. -/
theorem gives_reader : Gives reader fun m => m.abi < UInt32.size := by
  have hfields : ∀ field ∈ form.fields, ∀ held : PartialManifest,
      (∀ n, held.abi = some n → n < UInt32.size) →
      Gives (field.2.2 held) fun next => ∀ n, next.abi = some n → n < UInt32.size := by
    intro field hmem held hheld
    unfold form at hmem
    rcases List.mem_cons.1 hmem with rfl | hmem
    · refine (gives_natural _).bind fun n hn => gives_pure fun n' hn' => ?_
      obtain rfl := Option.some.inj hn'
      exact Nat.lt_of_le_of_lt hn (by decide)
    rcases List.mem_cons.1 hmem with rfl | hmem
    · exact (gives_true _).bind fun _ _ => gives_pure hheld
    · obtain rfl := List.mem_singleton.1 hmem
      exact (gives_true _).bind fun _ _ => gives_pure hheld
  refine (gives_record hfields fun n hn => by contradiction).bind fun held hheld => ?_
  refine (gives_required _).bind fun abi habi => ?_
  refine (gives_true _).bind fun typeName _ => (gives_true _).bind fun operations _ => ?_
  exact gives_pure (hheld abi habi)

/-- So a text that is read as a manifest may be replaced by the text of the manifest. -/
theorem parse_text_of_parse {bytes : List UInt8} {m : Manifest} (h : parse bytes = .ok m) :
    parse (Text.Utf8.encode m.text) = .ok m := parse_text (gives_reader.of_run h)

end Manifest

end UnitLoader
