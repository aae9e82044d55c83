import UnitLoader.Proofs.Archive.Limits

/-!
# An archive says itself where it ends

A decoder does not look behind the bytes that it takes: `Stable d` says that what `d` reads it reads
as well with more bytes behind, and leaves those. Stable decoders are put together to stable ones
(`Stable.bind`), up to the one of a whole archive (`stable_body`). The decoder of a number does ask
how many bytes are left, but only a fault tells the difference (`behindFirst_of_eq_ok`).

Two things follow. What stands behind an archive makes no difference to it (`ofFile_append`). And no
cut leaves an archive, wherever it falls: a front part that could be read would be read in the same
way in the whole file, and leave what was cut off, while a whole file is read to its last byte
(`not_decodes_front`). `self_delimiting` puts the two together.
-/

namespace UnitLoader.Archive

/-- More bytes stand behind those that are left. -/
def Cursor.append (c : Cursor) (more : List UInt8) : Cursor := { c with rest := c.rest ++ more }

namespace Decoder

variable {α β : Type} {d : Decoder α} {f : α → Decoder β} {c after : Cursor} {a : α} {b : β}

/-! ## What a decoder does not look at -/

/-- What the decoder reads it reads as well with more bytes behind, and it leaves those. -/
def Stable (d : Decoder α) : Prop :=
  ∀ ⦃c a after⦄, d c = .ok (a, after) → ∀ more, d (c.append more) = .ok (a, after.append more)

/-- Where one decoder behind another succeeds, both do. -/
theorem bind_eq_ok (h : (d >>= f) c = .ok (b, after)) :
    ∃ a mid, d c = .ok (a, mid) ∧ f a mid = .ok (b, after) := by
  change (d c >>= fun p => f p.1 p.2) = _ at h
  cases hfirst : d c with
  | error fault =>
    rw [hfirst] at h
    cases h
  | ok p =>
    rw [hfirst] at h
    exact ⟨p.1, p.2, rfl, h⟩

theorem Stable.bind (hd : Stable d) (hf : ∀ a, Stable (f a)) : Stable (d >>= f) := by
  intro c b after h more
  obtain ⟨a, mid, hfirst, hbehind⟩ := bind_eq_ok h
  rw [bind_of_ok (hd hfirst more)]
  exact hf a hbehind more

theorem stable_pure (a : α) : Stable (pure a : Decoder α) := by
  intro c a' after h more
  cases h
  rfl

/-- A decoder that fails reads nothing. -/
theorem stable_throw (fault : Fault) : Stable (throw fault : Decoder α) := by
  intro c a after h
  cases h

theorem stable_charge (amount : Nat) : Stable (charge amount) := by
  intro c u after h more
  unfold charge at h ⊢
  split at h
  · rename_i hroom
    cases h
    exact if_pos hroom
  · cases h

theorem stable_refund (amount : Nat) : Stable (refund amount) := by
  intro c u after h more
  cases h
  rfl

theorem stable_byte : Stable byte := by
  intro c b after h more
  obtain ⟨rest, charged⟩ := c
  cases rest with
  | nil => cases h
  | cons first rest =>
    cases h
    rfl

theorem stable_bytes (count : Nat) : Stable (bytes count) := by
  intro c taken after h more
  unfold bytes at h ⊢
  split at h
  · rename_i hcount
    cases h
    have hmore : count ≤ (c.append more).rest.length := by
      change count ≤ (c.rest ++ more).length
      rw [List.length_append]
      omega
    rw [if_pos hmore]
    unfold Cursor.append
    rw [List.take_append_of_le_length hcount, List.drop_append_of_le_length hcount]
  · cases h

/-! ## Numbers, byte strings and texts -/

theorem stable_fixed (count : Nat) : Stable (fixed count) :=
  (stable_bytes count).bind fun taken => stable_pure (Bytes.ofLowFirst taken)

theorem stable_refuse (expected : IntegerKind) (first : UInt8) :
    Stable (refuse expected first) := by
  intro c n after h
  cases h

theorem stable_integer32 : Stable integer32 := by
  refine (stable_charge 4).bind fun _ => stable_byte.bind fun first => ?_
  split
  · exact stable_pure _
  · split
    · exact stable_fixed 2
    · exact stable_fixed 4
    · exact stable_refuse _ first

theorem stable_behindFirst (room : Nat) (first : UInt8) : Stable (behindFirst room first) := by
  unfold behindFirst
  split
  · exact stable_pure _
  · split
    · exact stable_fixed 2
    · exact stable_fixed 4
    · exact stable_fixed 8
    · exact stable_refuse _ first

/-- How many bytes are left makes a difference to a fault alone. -/
theorem behindFirst_of_eq_ok {room : Nat} {first : UInt8} {n : Nat}
    (h : behindFirst room first c = .ok (n, after)) (room' : Nat) :
    behindFirst room' first c = .ok (n, after) := by
  unfold behindFirst at h ⊢
  by_cases hbyte : first.toNat ≤ largestByte
  · rwa [if_pos hbyte] at h ⊢
  · rw [if_neg hbyte] at h ⊢
    cases hkind : IntegerKind.ofByte first with
    | bits16 | bits32 | bits64 =>
      rw [hkind] at h
      exact h
    | bits128 | reserved =>
      rw [hkind] at h
      cases h

theorem stable_integer64 : Stable integer64 := by
  refine (stable_charge 8).bind fun _ => ?_
  intro c n after h more
  change (byte >>= behindFirst c.rest.length) c = _ at h
  change (byte >>= behindFirst (c.append more).rest.length) (c.append more) = _
  have hstable : Stable (byte >>= behindFirst c.rest.length) :=
    stable_byte.bind fun first => stable_behindFirst _ first
  obtain ⟨first, mid, hbyte, hnumber⟩ := bind_eq_ok (hstable h more)
  rw [bind_of_ok hbyte]
  exact behindFirst_of_eq_ok hnumber _

theorem stable_byteString : Stable byteString :=
  stable_integer64.bind fun length => (stable_charge length).bind fun _ => stable_bytes length

theorem stable_text : Stable text := by
  refine stable_byteString.bind fun taken => ?_
  split
  · exact stable_pure _
  · exact stable_throw _

/-! ## Archives -/

theorem stable_entry : Stable entry :=
  (stable_refund entryCharge).bind fun _ => stable_text.bind fun _ =>
    stable_byteString.bind fun _ => stable_pure _

theorem stable_entries (count : Nat) : Stable (entries count) := by
  induction count with
  | zero => exact stable_pure []
  | succ count ih => exact stable_entry.bind fun _ => ih.bind fun _ => stable_pure _

theorem stable_body : Stable body :=
  stable_integer32.bind fun _ => stable_integer64.bind fun count =>
    (stable_charge (entryCharge * count)).bind fun _ => (stable_entries count).bind fun _ =>
      stable_pure _

end Decoder

/-- Bytes are decoded exactly if a decoder without charges so far reads the same from their
front. -/
theorem decodeBody_eq_ok_iff {bytes : List UInt8} {read : Nat × List Entry} :
    decodeBody bytes = .ok read ↔ ∃ after, Decoder.body ⟨bytes, 0⟩ = .ok (read, after) := by
  unfold decodeBody
  rw [show Decoder.body.run ⟨bytes, 0⟩ = Decoder.body ⟨bytes, 0⟩ from rfl]
  cases Decoder.body ⟨bytes, 0⟩ with
  | error fault => simp [Except.map]
  | ok p =>
    obtain ⟨read', after⟩ := p
    simp [Except.map]

/-- What is decoded does not depend on what follows. -/
theorem decodeBody_append {bytes : List UInt8} {read : Nat × List Entry}
    (h : decodeBody bytes = .ok read) (more : List UInt8) :
    decodeBody (bytes ++ more) = .ok read := by
  obtain ⟨after, hbody⟩ := decodeBody_eq_ok_iff.1 h
  exact decodeBody_eq_ok_iff.2 ⟨_, Decoder.stable_body hbody more⟩

/-- Nothing is decoded from a front part of what was written, unless it is the whole. -/
theorem not_decodes_front {list : List Entry} (h : Writable list) {front back : List UInt8}
    (hsplit : encodeBody list = front ++ back) (hback : back ≠ []) (read : Nat × List Entry) :
    decodeBody front ≠ .ok read := by
  intro hread
  obtain ⟨after, hfront⟩ := decodeBody_eq_ok_iff.1 hread
  -- The whole is read as the front part is, and the back part is left.
  have hwhole : Decoder.body ⟨encodeBody list, 0⟩ = .ok (read, after.append back) := by
    rw [hsplit]
    exact Decoder.stable_body hfront back
  -- But the decoder leaves nothing, if it comes to the end at all.
  have hbody := Decoder.body_eq h []
  rw [List.append_nil, hwhole] at hbody
  split at hbody
  · have hleft : after.rest ++ back = [] := congrArg (fun p => p.2.rest) (Except.ok.inj hbody)
    exact hback (List.append_eq_nil_iff.1 hleft).2
  · cases hbody

/-! ## The file -/

/-- What stands behind an archive makes no difference, as long as the file is not too large. -/
theorem ofFile_append {location : String} {content more : List UInt8} {archive : Archive}
    (h : ofFile location (.ok content) = .ok archive)
    (hsize : (content ++ more).length ≤ largestFile) :
    ofFile location (.ok (content ++ more)) = .ok archive := by
  obtain ⟨-, body, list, rfl, hbody, rfl⟩ := ofFile_eq_ok_iff.1 h
  refine ofFile_eq_ok_iff.2 ⟨hsize, body ++ more, list, ?_, decodeBody_append hbody more, rfl⟩
  rw [List.append_assoc]

/-- **An archive says itself where it ends.** Of a written archive every part in front of the end is
refused as an invalid location, wherever it is cut: in the mark, in a length, in a name or in the
bytes behind it. And if the whole is opened, it is opened as the same archive with anything behind
it that keeps the file from being too large. -/
theorem self_delimiting (location : String) {list : List Entry} (h : Writable list) :
    (∀ front, front <+: encodeFile list → front ≠ encodeFile list →
      ∃ reason, ofFile location (.ok front) = .error (.invalidLocation location reason)) ∧
    ∀ archive, ofFile location (.ok (encodeFile list)) = .ok archive →
      ∀ more, (encodeFile list ++ more).length ≤ largestFile →
        ofFile location (.ok (encodeFile list ++ more)) = .ok archive := by
  constructor
  · intro front hfront hne
    cases hopen : ofFile location (.ok front) with
    | error e =>
      obtain ⟨reason, rfl⟩ := ofFile_eq_error hopen
      exact ⟨reason, rfl⟩
    | ok archive =>
      -- What was opened was decoded without the bytes that were cut off.
      obtain ⟨-, body, read, rfl, hbody, -⟩ := ofFile_eq_ok_iff.1 hopen
      obtain ⟨back, hback⟩ := hfront
      have hsplit : encodeBody list = body ++ back := by
        rw [List.append_assoc] at hback
        exact (List.append_cancel_left hback).symm
      have hcut : back ≠ [] := by
        rintro rfl
        exact hne (by rw [← hback, List.append_nil])
      exact absurd hbody (not_decodes_front h hsplit hcut _)
  · intro archive hopen more hsize
    exact ofFile_append hopen hsize

/-- An entry whose name takes two bytes for one character, and whose length takes three bytes. -/
def wide : List Entry := [⟨"é", List.replicate 300 7⟩]

/-- Cut inside of its name, or inside of the length behind it, the archive is refused; with a byte
more it is opened. -/
theorem self_delimiting_wide :
    Writable wide ∧
      (∀ count ∈ [12, 14], ∃ reason, ofFile "a.hla" (.ok ((encodeFile wide).take count)) =
        .error (.invalidLocation "a.hla" reason)) ∧
      ofFile "a.hla" (.ok (encodeFile wide ++ [1])) = .ok ⟨"a.hla", index wide⟩ := by
  have hlimits : WithinLimits (encodeFile wide) := ⟨by decide +kernel, by decide +kernel⟩
  have hwide : Writable wide := writable_of_size hlimits.size
  obtain ⟨hcut, hmore⟩ := self_delimiting "a.hla" hwide
  refine ⟨hwide, fun count hcount => ?_, ?_⟩
  · refine hcut _ (List.take_prefix _ _) fun heq => ?_
    have hlength := congrArg List.length heq
    revert hlength
    revert count
    decide +kernel
  · exact hmore _ (ofFile_eq_of_withinLimits "a.hla" hlimits) [1] (by decide +kernel)

end UnitLoader.Archive
