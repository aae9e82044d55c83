import UnitLoader.Proofs.Text.Offset

/-!
# Slices

A text is sliced at byte offsets, and a slice fails unless the offset is a boundary between two
characters, the start or the end of the text (`sliceFrom?_eq_some_iff`): behind the first byte of a
character only bytes stand that start none (`encodeChar_eq_cons`). So what stands between two pieces
of a text is the slice between their offsets (`slice?_append`).
-/

namespace UnitLoader.Text

/-! ## Boundaries -/

/-- An offset in front of a character or at the end of a text. -/
def IsBoundary (text : List Char) (offset : Nat) : Prop :=
  ∃ front behind, text = front ++ behind ∧ byteLength front = offset

theorem isBoundary_byteLength (front behind : List Char) :
    IsBoundary (front ++ behind) (byteLength front) := ⟨front, behind, rfl, rfl⟩

/-- A boundary is not beyond the end. -/
theorem IsBoundary.le {text : List Char} {offset : Nat} (h : IsBoundary text offset) :
    offset ≤ byteLength text := by
  obtain ⟨front, behind, rfl, rfl⟩ := h
  rw [byteLength_append]
  exact Nat.le_add_right _ _

theorem Utf8.encode_injective {text text' : List Char} (h : Utf8.encode text = Utf8.encode text') :
    text = text' := by
  have hdecode := Utf8.decode_encode text
  rw [h, Utf8.decode_encode] at hdecode
  exact (Except.ok.inj hdecode).symm

/-- The first byte of a character continues none, and the others do. -/
theorem Utf8.encodeChar_eq_cons (c : Char) :
    ∃ first others, Utf8.encodeChar c = first :: others ∧ Utf8.isContinuation first = false ∧
      ∀ b ∈ others, Utf8.isContinuation b = true := by
  have hvalid := Utf8.toNat_valid c
  have hfirst (n : Nat) (hlow : n < 0x80 ∨ 0xC0 ≤ n) (hhigh : n < 256) :
      Utf8.isContinuation (Utf8.byte n) = false := by
    rw [Bool.eq_false_iff, ne_eq, Utf8.isContinuation_iff, Utf8.toNat_byte hhigh]
    omega
  unfold Utf8.encodeChar
  dsimp only
  split
  · exact ⟨_, _, rfl, hfirst _ (by omega) (by omega), by simp⟩
  split
  · exact ⟨_, _, rfl, hfirst _ (by omega) (by omega), by simp [Utf8.isContinuation_byte]⟩
  split
  all_goals exact ⟨_, _, rfl, hfirst _ (by omega) (by omega), by simp [Utf8.isContinuation_byte]⟩

/-- Behind the first byte of a character no text starts. -/
theorem Utf8.encode_ne_inside {c : Char} {offset : Nat} (hpos : 0 < offset)
    (hlt : offset < c.utf8Size) (text : List Char) (behind : List UInt8) :
    Utf8.encode text ≠ (Utf8.encodeChar c).drop offset ++ behind := by
  obtain ⟨first, others, hchar, -, hothers⟩ := Utf8.encodeChar_eq_cons c
  obtain ⟨n, rfl⟩ := Nat.exists_eq_succ_of_ne_zero (Nat.ne_of_gt hpos)
  -- Inside of a character there is at least one more byte, which continues it.
  have hne : others.drop n ≠ [] := by
    have hlength := Utf8.length_encodeChar c
    rw [hchar, List.length_cons] at hlength
    rw [ne_eq, List.drop_eq_nil_iff]
    omega
  obtain ⟨b, tail, hb⟩ := List.exists_cons_of_ne_nil hne
  have hcontinues : Utf8.isContinuation b = true :=
    hothers b (List.mem_of_mem_drop (hb ▸ List.mem_cons_self))
  rw [hchar, List.drop_succ_cons, hb, List.cons_append]
  intro h
  cases text with
  | nil => contradiction
  | cons d text =>
    obtain ⟨first', others', hd, hfirst', -⟩ := Utf8.encodeChar_eq_cons d
    rw [Utf8.encode, List.flatMap_cons, hd, List.cons_append] at h
    rw [(List.cons.inj h).1, hcontinues] at hfirst'
    contradiction

/-- Where the bytes of a text go on as those of another text, the text goes on as the other. -/
theorem Utf8.exists_front_of_encode_eq_drop {text rest : List Char} {offset : Nat}
    (hle : offset ≤ byteLength text) (h : Utf8.encode rest = (Utf8.encode text).drop offset) :
    ∃ front, text = front ++ rest ∧ byteLength front = offset := by
  induction text generalizing offset with
  | nil =>
    obtain rfl : offset = 0 := Nat.le_zero.1 hle
    exact ⟨[], Utf8.encode_injective h.symm, rfl⟩
  | cons c text ih =>
    -- The other text starts here, inside of the first character, or behind it.
    obtain rfl | hinside | ⟨n, rfl⟩ :
        offset = 0 ∨ (0 < offset ∧ offset < c.utf8Size) ∨ ∃ n, offset = c.utf8Size + n := by
      by_cases hbehind : c.utf8Size ≤ offset
      · exact .inr (.inr (Nat.exists_eq_add_of_le hbehind))
      · omega
    · exact ⟨[], Utf8.encode_injective h.symm, rfl⟩
    · have hlength : offset ≤ (Utf8.encodeChar c).length := by
        rw [Utf8.length_encodeChar]
        exact Nat.le_of_lt hinside.2
      rw [Utf8.encode, Utf8.encode, List.flatMap_cons, ← Utf8.encode,
        List.drop_append_of_le_length hlength] at h
      exact absurd h (Utf8.encode_ne_inside hinside.1 hinside.2 rest _)
    · rw [Utf8.encode, Utf8.encode, List.flatMap_cons, ← Utf8.encode, ← Utf8.encode,
        ← List.drop_drop, ← Utf8.length_encodeChar c, List.drop_left] at h
      obtain ⟨front, rfl, rfl⟩ := ih (Nat.le_of_add_le_add_left hle) h
      exact ⟨c :: front, rfl, rfl⟩

/-- **A text is sliced at its boundaries and nowhere else.** -/
theorem sliceFrom?_eq_some_iff {text rest : List Char} {offset : Nat} :
    sliceFrom? offset text = some rest ↔
      ∃ front, text = front ++ rest ∧ byteLength front = offset := by
  refine ⟨fun h => ?_, ?_⟩
  · unfold sliceFrom? at h
    split at h
    · rename_i hle
      cases hdecode : Utf8.decode ((Utf8.encode text).drop offset) with
      | error failure =>
        rw [hdecode] at h
        contradiction
      | ok read =>
        rw [hdecode] at h
        obtain rfl : read = rest := Option.some.inj h
        exact Utf8.exists_front_of_encode_eq_drop hle (Utf8.decode_eq_ok_iff.1 hdecode)
    · contradiction
  · rintro ⟨front, rfl, rfl⟩
    exact sliceFrom?_append front rest

example : sliceFrom? 1 ['é', 'a'] = none ∧ sliceFrom? 2 ['é', 'a'] = some ['a'] := by decide

/-! ## What stands between two offsets -/

theorem slice?_append (front piece behind : List Char) :
    slice? (byteLength front) (byteLength (front ++ piece)) (front ++ piece ++ behind) =
      some piece := by
  have htail : sliceFrom? (byteLength front) (front ++ piece ++ behind) = some (piece ++ behind) :=
    sliceFrom?_eq_some_iff.2 ⟨front, List.append_assoc .., rfl⟩
  have hle : byteLength front ≤ byteLength (front ++ piece) := by
    rw [byteLength_append]
    exact Nat.le_add_right _ _
  unfold slice?
  rw [htail, sliceFrom?_append]
  dsimp only
  rw [if_pos hle, List.length_append, Nat.add_sub_cancel, List.take_left]

end UnitLoader.Text
