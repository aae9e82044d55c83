import UnitLoader.Proofs.Text.Places
import UnitLoader.Proofs.Text.Utf8
import UnitLoader.Text.Slice

/-!
# Coordinates and byte offsets

`Position.byteOffset?` goes through a text character by character. What it gives is described in two
other ways. A text is its lines with a line feed between each two of them (`text_eq_front`,
`text_eq_back`), and `Position.char?` looks up a character by its line and by its column there. A
text has a byte offset for exactly the coordinates at which there is a character, which is not a
line feed (`Position.text_eq_of_char?`, `Position.char?_afterAll`). `Position.searchOffset?` looks
for the start of the line among the line feeds, slices the text there and counts the characters of
the line; it slices the text in front of a character and finds the same offset
(`searchOffset?_eq`).

`byteOffset?_exact` puts this together: the offsets are those of the characters, and they are
inverse to the coordinates.
-/

namespace UnitLoader.Text

/-! ## A text as its lines -/

/-- Lines, each with a line feed at its end. -/
def ended (lines : List (List Char)) : List Char := lines.flatMap (· ++ ['\n'])

/-- Lines, each behind a line feed. -/
def begun (lines : List (List Char)) : List Char := lines.flatMap ('\n' :: ·)

section

variable {text line : List Char} {front back : List (List Char)}

theorem ended_cons (line : List Char) (lines : List (List Char)) :
    ended (line :: lines) = line ++ '\n' :: ended lines := by
  rw [ended, List.flatMap_cons, List.append_assoc, List.singleton_append, ended]

/-- A text is a line without a line feed behind lines that end with one. -/
theorem text_eq_front (text : List Char) :
    ∃ front last, fields text = front ++ [last] ∧ text = ended front ++ last ∧
      (∀ line ∈ front, OneLine line) ∧ OneLine last := by
  induction text with
  | nil => exact ⟨[], [], rfl, rfl, by simp, oneLine_nil⟩
  | cons c rest ih =>
    obtain ⟨front, last, hfields, hrest, hfront, hlast⟩ := ih
    rw [fields, hfields]
    -- A line feed ends an empty line, and any other character is put in front of the first line.
    by_cases hc : c = '\n'
    · refine ⟨[] :: front, last, ?_, ?_, List.forall_mem_cons.2 ⟨oneLine_nil, hfront⟩, hlast⟩
      · rw [if_pos hc, List.cons_append]
      · rw [hc, ended_cons, hrest, List.nil_append, List.cons_append]
    · rw [if_neg hc]
      cases front with
      | nil =>
        refine ⟨[], c :: last, rfl, ?_, hfront, oneLine_cons.2 ⟨hc, hlast⟩⟩
        rw [hrest, ended, List.flatMap_nil, List.nil_append, List.nil_append]
      | cons first others =>
        obtain ⟨hfirst, hothers⟩ := List.forall_mem_cons.1 hfront
        refine ⟨(c :: first) :: others, last, rfl, ?_,
          List.forall_mem_cons.2 ⟨oneLine_cons.2 ⟨hc, hfirst⟩, hothers⟩, hlast⟩
        rw [hrest, ended_cons, ended_cons, List.cons_append, List.cons_append]

/-- A text is a line without a line feed in front of lines that begin with one. -/
theorem text_eq_back (text : List Char) :
    ∃ first back, fields text = first :: back ∧ text = first ++ begun back ∧ OneLine first ∧
      ∀ line ∈ back, OneLine line := by
  induction text with
  | nil => exact ⟨[], [], rfl, rfl, oneLine_nil, by simp⟩
  | cons c rest ih =>
    obtain ⟨first, back, hfields, hrest, hfirst, hback⟩ := ih
    rw [fields, hfields]
    by_cases hc : c = '\n'
    · refine ⟨[], first :: back, if_pos hc, ?_, oneLine_nil,
        List.forall_mem_cons.2 ⟨hfirst, hback⟩⟩
      rw [hc, hrest, begun, begun, List.flatMap_cons, List.nil_append, List.cons_append]
    · refine ⟨c :: first, back, if_neg hc, ?_, oneLine_cons.2 ⟨hc, hfirst⟩, hback⟩
      rw [hrest, List.cons_append]

/-- Lines that end with line feeds are the first lines of a text. -/
theorem fields_ended_append (h : ∀ line ∈ front, OneLine line) (rest : List Char) :
    fields (ended front ++ rest) = front ++ fields rest := by
  induction front with
  | nil => rfl
  | cons line front ih =>
    obtain ⟨hline, hfront⟩ := List.forall_mem_cons.1 h
    rw [ended_cons, List.append_assoc, List.cons_append, fields_append_newline hline, ih hfront,
      List.cons_append]

/-- Lines that begin with line feeds are the last lines of a text. -/
theorem fields_append_begun (hline : OneLine line) (h : ∀ line ∈ back, OneLine line) :
    fields (line ++ begun back) = line :: back := by
  induction back generalizing line with
  | nil => rw [begun, List.flatMap_nil, List.append_nil, fields_of_oneLine hline]
  | cons next back ih =>
    obtain ⟨hnext, hback⟩ := List.forall_mem_cons.1 h
    rw [begun, List.flatMap_cons, List.cons_append, ← begun, fields_append_newline hline,
      ih hnext hback]

/-- Around one of its lines a text is the lines in front of it and those behind it. -/
theorem text_eq_of_fields (h : fields text = front ++ line :: back) :
    text = ended front ++ (line ++ begun back) ∧ (∀ other ∈ front, OneLine other) ∧
      OneLine line := by
  induction front generalizing text with
  | nil =>
    obtain ⟨first, others, hfields, htext, hfirst, -⟩ := text_eq_back text
    obtain ⟨rfl, rfl⟩ := List.cons.inj (hfields.symm.trans h)
    exact ⟨htext, by simp, hfirst⟩
  | cons head front ih =>
    obtain ⟨first, others, hfields, htext, hfirst, hothers⟩ := text_eq_back text
    obtain ⟨rfl, hsame⟩ := List.cons.inj (hfields.symm.trans h)
    -- The lines behind the first one are those of a shorter text.
    obtain ⟨second, more, hmore⟩ := List.exists_cons_of_ne_nil
      (List.append_ne_nil_of_right_ne_nil front (List.cons_ne_nil line back))
    obtain rfl : others = second :: more := hsame.trans hmore
    obtain ⟨hsecond, hall⟩ := List.forall_mem_cons.1 hothers
    obtain ⟨hrest, hfront, hline⟩ := ih ((fields_append_begun hsecond hall).trans hmore.symm)
    refine ⟨?_, List.forall_mem_cons.2 ⟨hfirst, hfront⟩, hline⟩
    rw [htext, begun, List.flatMap_cons, ← begun, ended_cons, List.append_assoc, List.cons_append,
      List.cons_append, hrest]

/-- Behind lines that end with line feeds the line is the next one. -/
theorem afterAll_ended_append (h : ∀ line ∈ front, OneLine line) (hline : OneLine line) :
    Position.start.afterAll (ended front ++ line) = ⟨front.length + 1, line.length⟩ := by
  suffices hfrom : ∀ n, (Position.mk n 0).afterAll (ended front ++ line) =
      ⟨n + front.length, line.length⟩ from (hfrom 1).trans (by rw [Nat.add_comm])
  induction front with
  | nil =>
    intro n
    rw [ended, List.flatMap_nil, List.nil_append, Position.afterAll_of_oneLine hline]
    simp
  | cons first front ih =>
    obtain ⟨hfirst, hfront⟩ := List.forall_mem_cons.1 h
    intro n
    rw [ended_cons, List.append_assoc, Position.afterAll_append,
      Position.afterAll_of_oneLine hfirst, List.cons_append, Position.afterAll, List.foldl_cons,
      ← Position.afterAll, Position.after, if_pos rfl, ih hfront, List.length_cons]
    simp only [Position.mk.injEq, and_true]
    omega

end

/-! ## Characters by their coordinates -/

/-- The character at a column of a line, where the lines are what stands between the line feeds. -/
def Position.char? (target : Position) (text : List Char) : Option Char :=
  if target.line = 0 then none
  else (fields text)[target.line - 1]?.bind (·[target.column]?)

namespace Position

variable {target : Position} {text : List Char} {c : Char}

/-- A character other than a line feed is found at the coordinates behind what is in front of it. -/
theorem char?_afterAll (hc : c ≠ '\n') (before behind : List Char) :
    (start.afterAll before).char? (before ++ c :: behind) = some c := by
  obtain ⟨front, last, -, rfl, hfront, hlast⟩ := text_eq_front before
  obtain ⟨first, back, -, rfl, hfirst, hback⟩ := text_eq_back behind
  have hline : OneLine (last ++ c :: first) :=
    oneLine_append.2 ⟨hlast, oneLine_cons.2 ⟨hc, hfirst⟩⟩
  have htext : ended front ++ last ++ c :: (first ++ begun back) =
      ended front ++ ((last ++ c :: first) ++ begun back) := by simp
  rw [htext, afterAll_ended_append hfront hlast, char?, if_neg (by simp),
    fields_ended_append hfront, fields_append_begun hline hback]
  simp

/-- A member of a list stands behind as many others as its index says. -/
theorem append_of_getElem? {α : Type} {list : List α} {i : Nat} {x : α} (h : list[i]? = some x) :
    ∃ front back, list = front ++ x :: back ∧ front.length = i := by
  obtain ⟨hlt, rfl⟩ := List.getElem?_eq_some_iff.1 h
  refine ⟨list.take i, list.drop (i + 1), ?_, List.length_take_of_le (Nat.le_of_lt hlt)⟩
  rw [← List.drop_eq_getElem_cons hlt, List.take_append_drop]

/-- Where there is a character, the text is the lines in front of its line, the characters in front
of it on that line, and then the character. -/
theorem text_eq_of_char? (h : target.char? text = some c) :
    ∃ front within rest back, fields text = front ++ (within ++ c :: rest) :: back ∧
      text = ended front ++ within ++ c :: (rest ++ begun back) ∧ c ≠ '\n' ∧
      target = ⟨front.length + 1, within.length⟩ ∧
      start.afterAll (ended front ++ within) = target := by
  rw [char?] at h
  split at h
  · contradiction
  rename_i hzero
  obtain ⟨line, hfound, hc⟩ := Option.bind_eq_some_iff.1 h
  obtain ⟨front, back, hfields, hlength⟩ := append_of_getElem? hfound
  obtain ⟨within, rest, rfl, hcolumn⟩ := append_of_getElem? hc
  obtain ⟨htext, hfront, hline⟩ := text_eq_of_fields hfields
  obtain ⟨hwithin, hbehind⟩ := oneLine_append.1 hline
  have htarget : target = ⟨front.length + 1, within.length⟩ := by
    rw [hlength, hcolumn]
    exact congrArg (Position.mk · _) (Nat.succ_pred_eq_of_pos (Nat.pos_of_ne_zero hzero)).symm
  refine ⟨front, within, rest, back, hfields, ?_, (oneLine_cons.1 hbehind).1, htarget, ?_⟩
  · rw [htext]
    simp only [List.append_assoc, List.cons_append]
  · rw [afterAll_ended_append hfront hwithin, htarget]

/-- A text that is cut is cut in front of a character that is no line feed. -/
theorem exists_char_of_splitFrom? {here : Position} {before behind : List Char}
    (h : splitFrom? target here text = some (before, behind)) :
    ∃ c rest, behind = c :: rest ∧ c ≠ '\n' := by
  induction text generalizing here before with
  | nil => contradiction
  | cons c rest ih =>
    rw [splitFrom?] at h
    split at h
    · rename_i found
      obtain ⟨-, rfl⟩ := Prod.mk.inj (Option.some.inj h)
      exact ⟨c, rest, rfl, found.1⟩
    · obtain ⟨⟨first, second⟩, hsplit, hpair⟩ := Option.map_eq_some_iff.1 h
      obtain ⟨-, rfl⟩ := Prod.mk.inj hpair
      exact ih hsplit

/-- Where there is a byte offset, there is a character, and the offset is the number of bytes in
front of it. -/
theorem char?_of_byteOffset? {offset : Nat} (h : target.byteOffset? text = some offset) :
    ∃ before c behind, text = before ++ c :: behind ∧ c ≠ '\n' ∧
      start.afterAll before = target ∧ target.char? text = some c ∧
      byteLength before = offset := by
  obtain ⟨⟨before, rest⟩, hsplit, hoffset⟩ := Option.map_eq_some_iff.1 h
  obtain ⟨htext, hplace⟩ := split?_eq_some hsplit
  obtain ⟨c, behind, rfl, hc⟩ := exists_char_of_splitFrom? hsplit
  refine ⟨before, c, behind, htext, hc, hplace, ?_, hoffset⟩
  rw [htext, ← hplace, char?_afterAll hc]

/-- A character other than a line feed has its offset at its coordinates. -/
theorem byteOffset?_afterAll (hc : c ≠ '\n') (before behind : List Char) :
    (start.afterAll before).byteOffset? (before ++ c :: behind) = some (byteLength before) := by
  rw [byteOffset?, split?_afterAll hc]
  rfl

/-- Where there is no character, there is no byte offset. -/
theorem byteOffset?_eq_none (h : target.char? text = none) : target.byteOffset? text = none := by
  cases hoffset : target.byteOffset? text with
  | none => rfl
  | some offset =>
    obtain ⟨-, c, -, -, -, -, hc, -⟩ := char?_of_byteOffset? hoffset
    rw [h] at hc
    contradiction

end Position

/-! ## Searching line by line -/

section

variable {text line : List Char} {front : List (List Char)}

/-- In front of a character a text can be sliced. -/
theorem sliceFrom?_append (before behind : List Char) :
    sliceFrom? (byteLength before) (before ++ behind) = some behind := by
  rw [sliceFrom?, if_pos (by rw [byteLength_append]; omega), Utf8.encode_append,
    ← Utf8.length_encode, List.drop_left, Utf8.decode_encode]
  rfl

/-- The characters of a text at an index: its offset is the number of bytes in front of it. -/
theorem getElem?_charOffsetsFrom (offset i : Nat) (text : List Char) :
    (charOffsetsFrom offset text)[i]? =
      text[i]?.map fun c => (offset + byteLength (text.take i), c) := by
  induction text generalizing offset i with
  | nil => rfl
  | cons c rest ih =>
    cases i with
    | zero => rfl
    | succ i =>
      rw [charOffsetsFrom, List.getElem?_cons_succ, List.getElem?_cons_succ, ih,
        List.take_succ_cons]
      simp only [byteLength, List.foldr_cons, Nat.add_assoc]

/-- Behind a line the line feeds go on. -/
theorem newlines_line_append (hline : OneLine line) (offset : Nat) (rest : List Char) :
    (charOffsetsFrom offset (line ++ rest)).filter (fun (_, c) => c == '\n') =
      (charOffsetsFrom (offset + byteLength line) rest).filter fun (_, c) => c == '\n' := by
  induction line generalizing offset with
  | nil => rfl
  | cons c line ih =>
    obtain ⟨hc, hrest⟩ := oneLine_cons.1 hline
    rw [List.cons_append, charOffsetsFrom, List.filter_cons_of_neg (by simpa using hc), ih hrest,
      Nat.add_assoc]
    rfl

/-- A line that ends with a line feed takes one byte more. -/
theorem byteLength_ended_cons (line : List Char) (lines : List (List Char)) :
    byteLength (ended (line :: lines)) = byteLength line + 1 + byteLength (ended lines) := by
  rw [ended_cons, byteLength_append, Nat.add_assoc]
  rfl

/-- The line feed at an index ends the lines up to this index. -/
theorem getElem?_newlines (h : ∀ line ∈ front, OneLine line) (hline : OneLine line)
    (offset n : Nat) :
    ((charOffsetsFrom offset (ended front ++ line)).filter fun (_, c) => c == '\n')[n]?.map
        (fun (at_, _) => at_ + 1) =
      if n < front.length then some (offset + byteLength (ended (front.take (n + 1))))
      else none := by
  induction front generalizing offset n with
  | nil =>
    have hnone := newlines_line_append hline offset []
    rw [List.append_nil] at hnone
    rw [ended, List.flatMap_nil, List.nil_append, hnone]
    simp [charOffsetsFrom]
  | cons first front ih =>
    obtain ⟨hfirst, hfront⟩ := List.forall_mem_cons.1 h
    rw [ended_cons, List.append_assoc, newlines_line_append hfirst, List.cons_append,
      charOffsetsFrom, List.filter_cons_of_pos (by simp)]
    cases n with
    | zero =>
      rw [List.take_succ_cons, List.take_zero, byteLength_ended_cons, if_pos (by simp)]
      rfl
    | succ n =>
      rw [List.getElem?_cons_succ, ih hfront, List.take_succ_cons, byteLength_ended_cons]
      simp only [List.length_cons, Nat.add_lt_add_iff_right]
      have hnewline : '\n'.utf8Size = 1 := rfl
      have hsum (behind : Nat) : offset + byteLength first + '\n'.utf8Size + behind =
          offset + (byteLength first + 1 + behind) := by omega
      rw [hsum]

/-- A line of the text starts behind the lines in front of it. -/
theorem lineStart?_eq (text : List Char) (n : Nat) :
    lineStart? text (n + 1) =
      if n < (fields text).length then some (byteLength (ended ((fields text).take n)))
      else none := by
  obtain ⟨front, last, hfields, htext, hfront, hlast⟩ := text_eq_front text
  have hlength : (fields text).length = front.length + 1 := by
    rw [hfields, List.length_append, List.length_singleton]
  cases n with
  | zero => exact (if_pos (by omega)).symm
  | succ n =>
    have hnewlines := getElem?_newlines hfront hlast 0 n
    rw [← htext] at hnewlines
    rw [lineStart?, hnewlines, hlength, Nat.zero_add]
    simp only [Nat.add_lt_add_iff_right]
    split
    · rename_i hlt
      rw [hfields, List.take_append_of_le_length hlt]
    · rfl

/-- The first line of a text is what stands in front of its first line feed. -/
theorem takeWhile_line_append_begun (hline : OneLine line) (back : List (List Char)) :
    (line ++ begun back).takeWhile (· ≠ '\n') = line := by
  rw [List.takeWhile_append_of_pos fun c hc => by
    simpa using fun hnewline : c = '\n' => hline (hnewline ▸ hc)]
  cases back with
  | nil => rw [begun, List.flatMap_nil, List.takeWhile_nil, List.append_nil]
  | cons next back =>
    rw [begun, List.flatMap_cons, List.cons_append, List.takeWhile_cons_of_neg (by simp),
      List.append_nil]

/-- The search slices no character and finds the offset of the character at the position. -/
theorem searchOffset?_eq (target : Position) (text : List Char) :
    target.searchOffset? text = some (target.byteOffset? text) := by
  obtain ⟨number, column⟩ := target
  rw [Position.searchOffset?]
  dsimp only
  cases number with
  -- Lines are counted from one.
  | zero => exact congrArg some (Position.byteOffset?_eq_none rfl).symm
  | succ n =>
    -- The line is sliced from its start; so the column is counted on that line alone.
    by_cases hlt : n < (fields text).length
    · obtain ⟨row, hfound⟩ : ∃ row, (fields text)[n]? = some row :=
        ⟨_, List.getElem?_eq_getElem hlt⟩
      obtain ⟨front, back, hfields, rfl⟩ := Position.append_of_getElem? hfound
      obtain ⟨htext, hfront, hline⟩ := text_eq_of_fields hfields
      have hstart : lineStart? text (front.length + 1) = some (byteLength (ended front)) := by
        rw [lineStart?_eq, if_pos hlt, hfields, List.take_left]
      have hslice : sliceFrom? (byteLength (ended front)) text = some (row ++ begun back) := by
        rw [htext]
        exact sliceFrom?_append _ _
      rw [hstart]
      dsimp only
      rw [hslice, Option.map_some, takeWhile_line_append_begun hline, getElem?_charOffsetsFrom]
      cases hc : row[column]? with
      | none =>
        -- The line is too short for the column.
        have hnone : (Position.mk (front.length + 1) column).char? text = none := by
          rw [Position.char?, if_neg (by simp), Nat.add_sub_cancel, hfound, Option.bind_some, hc]
        rw [Position.byteOffset?_eq_none hnone]
        rfl
      | some c =>
        obtain ⟨within, rest, rfl, rfl⟩ := Position.append_of_getElem? hc
        obtain ⟨hwithin, hrest⟩ := oneLine_append.1 hline
        have hoffset := Position.byteOffset?_afterAll (oneLine_cons.1 hrest).1
          (ended front ++ within) (rest ++ begun back)
        have hsame : text = ended front ++ within ++ c :: (rest ++ begun back) := by
          rw [htext]
          simp only [List.append_assoc, List.cons_append]
        rw [afterAll_ended_append hfront hwithin, ← hsame, byteLength_append] at hoffset
        rw [hoffset, Option.map_some, Option.map_some, Nat.zero_add, List.take_left]
    · -- There is no such line.
      have hstart : lineStart? text (n + 1) = none := by rw [lineStart?_eq, if_neg hlt]
      have hnone : (Position.mk (n + 1) column).char? text = none := by
        rw [Position.char?, if_neg (by simp), Nat.add_sub_cancel,
          List.getElem?_eq_none (Nat.le_of_not_lt hlt), Option.bind_none]
      rw [hstart, Position.byteOffset?_eq_none hnone]

end

/-- **Byte offsets are inverse to coordinates.** A position has a byte offset exactly if there is a
character other than a line feed in its column of its line, and then the offset is that of this
character: so many bytes are in front of it, namely the lines in front of its line with their line
feeds, and the characters in front of it on its line. There the text is sliced between two
characters. Every character other than a line feed has its own offset at its own coordinates. The
search by lines finds the same offsets, and none of its slices fails. -/
theorem byteOffset?_exact (target : Position) (text : List Char) :
    target.searchOffset? text = some (target.byteOffset? text) ∧
    ((target.byteOffset? text).isSome ↔
      ∃ row c, target.line ≠ 0 ∧ (fields text)[target.line - 1]? = some row ∧
        row[target.column]? = some c ∧ c ≠ '\n') ∧
    (∀ offset, target.byteOffset? text = some offset →
      ∃ front within c behind, text = ended front ++ within ++ c :: behind ∧ c ≠ '\n' ∧
        front = (fields text).take (target.line - 1) ∧ OneLine within ∧
        within.length = target.column ∧
        offset = byteLength (ended front ++ within) ∧
        sliceFrom? offset text = some (c :: behind) ∧
        Utf8.decode ((Utf8.encode text).take offset) = .ok (ended front ++ within) ∧
        Utf8.decode ((Utf8.encode text).drop offset) = .ok (c :: behind)) ∧
    ∀ i c, text[i]? = some c → c ≠ '\n' →
      (Position.ofIndex text i).char? text = some c ∧
        (Position.ofIndex text i).byteOffset? text = some (byteLength (text.take i)) := by
  refine ⟨searchOffset?_eq target text, ⟨fun h => ?_, ?_⟩, fun offset h => ?_, fun i c h hc => ?_⟩
  · -- What is found is a character on a line, and no line feed.
    obtain ⟨offset, hoffset⟩ := Option.isSome_iff_exists.1 h
    obtain ⟨-, c, -, -, hc, -, hchar, -⟩ := Position.char?_of_byteOffset? hoffset
    rw [Position.char?] at hchar
    split at hchar
    · contradiction
    · rename_i hzero
      obtain ⟨line, hline, hcolumn⟩ := Option.bind_eq_some_iff.1 hchar
      exact ⟨line, c, hzero, hline, hcolumn, hc⟩
  · -- Every such character is found.
    rintro ⟨line, c, hzero, hline, hcolumn, -⟩
    have hchar : target.char? text = some c := by
      rw [Position.char?, if_neg hzero, hline, Option.bind_some, hcolumn]
    obtain ⟨front, within, rest, back, -, htext, hc, -, hplace⟩ := Position.text_eq_of_char? hchar
    rw [htext, ← hplace, Position.byteOffset?_afterAll hc]
    rfl
  · -- The text is what stands in front of the character, the character, and what stands behind.
    obtain ⟨-, c, -, -, -, -, hchar, -⟩ := Position.char?_of_byteOffset? h
    obtain ⟨front, within, rest, back, hfields, htext, hc, htarget, hplace⟩ :=
      Position.text_eq_of_char? hchar
    -- What is in front of the character is as long as the offset, in bytes.
    have hoffset : offset = byteLength (ended front ++ within) := by
      rw [← hplace, htext, Position.byteOffset?_afterAll hc] at h
      exact (Option.some.inj h).symm
    have hbytes : offset = (Utf8.encode (ended front ++ within)).length := by
      rw [hoffset, Utf8.length_encode]
    obtain ⟨-, -, hline⟩ := text_eq_of_fields hfields
    refine ⟨front, within, c, _, htext, hc, ?_, (oneLine_append.1 hline).1, ?_, hoffset, ?_, ?_, ?_⟩
    · rw [hfields, htarget, Nat.add_sub_cancel, List.take_left]
    · rw [htarget]
    · rw [hoffset, htext, sliceFrom?_append]
    · rw [htext, Utf8.encode_append, hbytes, List.take_left, Utf8.decode_encode]
    · rw [htext, Utf8.encode_append, hbytes, List.drop_left, Utf8.decode_encode]
  · -- The position of a character leads back to its offset.
    obtain ⟨before, behind, rfl, rfl⟩ := Position.append_of_getElem? h
    rw [Position.ofIndex, List.take_left]
    exact ⟨Position.char?_afterAll hc before behind, Position.byteOffset?_afterAll hc before behind⟩

/-- Three lines, of which the second is empty and the last does not end: a letter of two bytes has
its own offset, and there is none behind it on its line. -/
theorem byteOffset?_exact_umlaut :
    (Position.ofIndex "a\n\nbü".toList 4).byteOffset? "a\n\nbü".toList = some 4 ∧
      (Position.mk 3 2).byteOffset? "a\n\nbü".toList = none ∧
      (Position.mk 3 2).searchOffset? "a\n\nbü".toList = some none := by
  have hnone : (Position.mk 3 2).byteOffset? "a\n\nbü".toList = none := by decide +kernel
  obtain ⟨-, -, -, hown⟩ := byteOffset?_exact ⟨3, 1⟩ "a\n\nbü".toList
  refine ⟨(hown 4 'ü' (by decide) (by decide)).2, hnone, ?_⟩
  rw [(byteOffset?_exact ⟨3, 2⟩ "a\n\nbü".toList).1, hnone]

end UnitLoader.Text
