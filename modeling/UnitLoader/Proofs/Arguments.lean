import Mathlib.Data.Set.Function
import UnitLoader.Arguments
import UnitLoader.Proofs.Bytes
import UnitLoader.Proofs.Text.Utf8

/-!
# Arguments cross unchanged

An argument list is written on one side of the interface of a unit and read on the other one, and
only the bytes join the two. `crosses_unchanged` says that they fit: bytes are read as a list
exactly if they are the bytes of the list and no argument is too long for its length to be written.

One argument is read back whatever stands behind it (`readOne_encodeOne`), and it is read from
nothing but its own bytes (`eq_encodeOne_append_of_readOne`), since neither a length nor a text is
written in two ways. A list follows by going through it, with the bytes that are left.
-/

namespace UnitLoader.Arguments

open UnitLoader.Text (byteLength Utf8.encode Utf8.decode Utf8.decode_encode Utf8.decode_eq_ok_iff
  Utf8.length_encode)
open UnitLoader.Bytes

/-- No argument has more bytes than its length can say. -/
def Writable (arguments : List String) : Prop :=
  ∀ argument ∈ arguments, byteLength argument.toList < UInt64.size

instance (arguments : List String) : Decidable (Writable arguments) :=
  inferInstanceAs (Decidable (∀ argument ∈ arguments, _))

theorem writable_cons {argument : String} {arguments : List String} :
    Writable (argument :: arguments) ↔
      byteLength argument.toList < UInt64.size ∧ Writable arguments :=
  List.forall_mem_cons

/-- Eight bytes hold the lengths below the number of their values. -/
theorem size_eq_pow : UInt64.size = Nat.pow 256 8 := by decide

/-! ## One argument -/

section

variable {argument : String} {bytes rest : List UInt8}

/-- An argument is read back, whatever stands behind it. -/
theorem readOne_encodeOne (h : byteLength argument.toList < UInt64.size) (rest : List UInt8) :
    readOne (encodeOne argument ++ rest) = some (argument, rest) := by
  have hlength := Utf8.length_encode argument.toList
  have hfits : (Utf8.encode argument.toList).length < Nat.pow 256 8 := by
    rw [hlength, ← size_eq_pow]
    exact h
  have height := length_lowFirst 8 (Utf8.encode argument.toList).length
  have htake : (encodeOne argument ++ rest).take 8 =
      lowFirst 8 (Utf8.encode argument.toList).length := by
    rw [encodeOne, List.append_assoc, List.take_left' height]
  have hdrop : (encodeOne argument ++ rest).drop 8 = Utf8.encode argument.toList ++ rest := by
    rw [encodeOne, List.append_assoc, List.drop_left' height]
  have hlong : ¬ (encodeOne argument ++ rest).length < 8 := by
    rw [encodeOne, List.length_append, List.length_append, height]
    omega
  have hrest : ¬ (Utf8.encode argument.toList ++ rest).length <
      (Utf8.encode argument.toList).length := by
    rw [List.length_append]
    omega
  -- Nothing is missing: neither of the eight bytes of the length nor of as many as they tell.
  unfold readOne
  dsimp only
  rw [if_neg hlong, htake, hdrop, ofLowFirst_lowFirst hfits, if_neg hrest, List.take_left,
    List.drop_left, Utf8.decode_encode]
  dsimp only
  rw [String.ofList_toList]

/-- An argument is read from its own bytes only, and its length was written in full. -/
theorem eq_encodeOne_append_of_readOne (h : readOne bytes = some (argument, rest)) :
    bytes = encodeOne argument ++ rest ∧ byteLength argument.toList < UInt64.size := by
  unfold readOne at h
  dsimp only at h
  split at h
  · contradiction
  rename_i hlong
  split at h
  · contradiction
  rename_i hrest
  split at h
  · contradiction
  rename_i text htext
  obtain ⟨rfl, rfl⟩ := Prod.mk.inj (Option.some.inj h)
  rw [Utf8.decode_eq_ok_iff] at htext
  -- The first eight bytes are those of the length, and as many bytes behind them are the text.
  have height : (bytes.take 8).length = 8 := List.length_take_of_le (by omega)
  have hwidth : (Utf8.encode text).length = ofLowFirst (bytes.take 8) := by
    rw [htext, List.length_take_of_le (by omega)]
  have hvalue := ofLowFirst_lt (bytes.take 8)
  have hlowFirst := lowFirst_ofLowFirst (bytes.take 8)
  rw [height] at hvalue hlowFirst
  -- Put together again they are the argument and the rest, and the length fits into eight bytes.
  constructor
  · rw [encodeOne, String.toList_ofList, hwidth, hlowFirst, htext, List.append_assoc,
      List.take_append_drop, List.take_append_drop]
  · rw [String.toList_ofList, ← Utf8.length_encode, hwidth, size_eq_pow]
    exact hvalue

end

/-! ## A list -/

theorem decode_nil : decode [] = some [] := by
  rw [decode]
  rfl

/-- The first argument is read, and then the others. -/
theorem decode_of_readOne {bytes rest : List UInt8} {argument : String}
    (h : readOne bytes = some (argument, rest)) :
    decode bytes = (decode rest).map (argument :: ·) := by
  have hne : bytes.isEmpty = false := by
    cases bytes with
    | nil => contradiction
    | cons b bytes => rfl
  rw [decode, hne, if_neg (by decide)]
  split
  · rename_i hnone
    exact absurd (hnone.symm.trans h) (by simp)
  · rename_i argument' rest' hsome
    obtain ⟨rfl, rfl⟩ := Prod.mk.inj (Option.some.inj (hsome.symm.trans h))
    rfl

/-- What is read from bytes that are not empty is an argument and what is read behind it. -/
theorem decode_cons_eq_some {b : UInt8} {bytes : List UInt8} {arguments : List String}
    (h : decode (b :: bytes) = some arguments) :
    ∃ argument rest arguments', readOne (b :: bytes) = some (argument, rest) ∧
      decode rest = some arguments' ∧ arguments = argument :: arguments' := by
  rw [decode, List.isEmpty_cons, if_neg (by decide)] at h
  split at h
  · contradiction
  · rename_i argument rest hread
    obtain ⟨arguments', hrest, rfl⟩ := Option.map_eq_some_iff.1 h
    exact ⟨argument, rest, arguments', hread, hrest, rfl⟩

/-- What was written is read back. -/
theorem decode_encode {arguments : List String} (h : Writable arguments) :
    decode (encode arguments) = some arguments := by
  induction arguments with
  | nil => exact decode_nil
  | cons argument others ih =>
    obtain ⟨hfirst, hothers⟩ := writable_cons.1 h
    rw [encode, List.flatMap_cons, ← encode, decode_of_readOne (readOne_encodeOne hfirst _),
      ih hothers]
    rfl

/-- What is read was written. -/
theorem encode_of_decode {bytes : List UInt8} {arguments : List String}
    (h : decode bytes = some arguments) : Writable arguments ∧ encode arguments = bytes := by
  -- The induction is on what was read: each argument took its own bytes off the front.
  induction arguments generalizing bytes with
  | nil =>
    cases bytes with
    | nil => exact ⟨List.forall_mem_nil _, rfl⟩
    | cons b bytes =>
      obtain ⟨_, _, _, -, -, hcons⟩ := decode_cons_eq_some h
      contradiction
  | cons argument others ih =>
    cases bytes with
    | nil =>
      rw [decode_nil] at h
      exact absurd (Option.some.inj h) (by simp)
    | cons b bytes =>
      obtain ⟨first, rest, others', hread, hrest, hcons⟩ := decode_cons_eq_some h
      obtain ⟨rfl, rfl⟩ := List.cons.inj hcons
      obtain ⟨hbytes, hfirst⟩ := eq_encodeOne_append_of_readOne hread
      obtain ⟨hothers, hencode⟩ := ih hrest
      refine ⟨writable_cons.2 ⟨hfirst, hothers⟩, ?_⟩
      rw [encode, List.flatMap_cons, ← encode, hencode, hbytes]

/-- Bytes are read as a list exactly if they are the bytes of the list, and of a list that can be
written. -/
theorem decode_eq_some_iff {bytes : List UInt8} {arguments : List String} :
    decode bytes = some arguments ↔ Writable arguments ∧ encode arguments = bytes := by
  refine ⟨encode_of_decode, ?_⟩
  rintro ⟨hwritable, rfl⟩
  exact decode_encode hwritable

/-- Lists that can be written differ in their bytes. -/
theorem injOn_encode : Set.InjOn encode {arguments | Writable arguments} := by
  intro first hfirst second hsecond heq
  have hread := decode_encode hfirst
  rw [heq, decode_encode hsecond] at hread
  exact (Option.some.inj hread).symm

/-- The bytes of two lists stand behind each other. -/
theorem encode_append (first second : List String) :
    encode (first ++ second) = encode first ++ encode second := List.flatMap_append

/-- **Arguments cross unchanged.** Every list that can be written comes back from its bytes, and no
other bytes are accepted for it. So different lists have different bytes, whatever their lengths,
and the bytes of a longer list are those of its parts. -/
theorem crosses_unchanged :
    (∀ arguments, Writable arguments → decode (encode arguments) = some arguments) ∧
      Set.InjOn encode {arguments | Writable arguments} ∧
      (∀ first second, encode (first ++ second) = encode first ++ encode second) ∧
      ∀ bytes arguments, decode bytes = some arguments →
        Writable arguments ∧ encode arguments = bytes :=
  ⟨fun _ hwritable => decode_encode hwritable, injOn_encode, encode_append,
    fun _ _ => decode_eq_some_iff.1⟩

/-- Arguments of which one is empty, one starts with the bytes of a length, and one has more bytes
than characters. -/
def tricky : List String := ["", "\x01\x00\x00\x00\x00\x00\x00\x00a", "é€😀"]

/-- `tricky` comes back from its bytes, of which the first eight alone are those of an empty
argument, and is the only list that has them. -/
theorem crosses_unchanged_tricky :
    Writable tricky ∧ (encode tricky).length = 42 ∧ decode (encode tricky) = some tricky ∧
      ∀ arguments, Writable arguments → encode arguments = encode tricky → arguments = tricky := by
  have hwritable : Writable tricky := by decide
  obtain ⟨hback, hinjective, -, -⟩ := crosses_unchanged
  exact ⟨hwritable, by decide, hback tricky hwritable,
    fun arguments h heq => hinjective h hwritable heq⟩

end UnitLoader.Arguments
