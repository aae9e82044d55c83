import UnitLoader.Proofs.Text.OneLine
import UnitLoader.Text.Lines
import UnitLoader.Text.Position

/-!
# Places in a text

What a stretch of text does to a place that goes through it: it adds its line feeds to the line, and
to the column its length if it is on one line. `Position.ofIndex` is the place of the character at
an index, `Position.split?_eq_some` and `Position.split?_afterAll` say that a text is cut at a place
exactly there, and `length_lines` counts the lines of a text by line feeds.
-/

namespace UnitLoader.Text

/-! ## Going through a stretch of text -/

namespace Position

variable {text : List Char}

theorem afterAll_append (p : Position) (first second : List Char) :
    p.afterAll (first ++ second) = (p.afterAll first).afterAll second :=
  List.foldl_append

/-- Every line feed counts one line. -/
theorem line_afterAll (p : Position) (text : List Char) :
    (p.afterAll text).line = p.line + text.count '\n' := by
  induction text generalizing p with
  | nil => rfl
  | cons c rest ih =>
    rw [afterAll, List.foldl_cons, ← afterAll, ih, after, List.count_cons]
    split <;> simp_all [Nat.add_comm, Nat.add_left_comm]

/-- On one line every character counts one column. -/
theorem afterAll_of_oneLine (h : OneLine text) (p : Position) :
    p.afterAll text = ⟨p.line, p.column + text.length⟩ := by
  induction text generalizing p with
  | nil => rfl
  | cons c rest ih =>
    obtain ⟨hc, hrest⟩ := oneLine_cons.1 h
    rw [afterAll, List.foldl_cons, ← afterAll, ih hrest, after, if_neg hc, List.length_cons]
    simp only [mk.injEq, true_and]
    omega

/-- The column behind a text depends on no line. -/
theorem column_afterAll_congr {p q : Position} (h : p.column = q.column) (text : List Char) :
    (p.afterAll text).column = (q.afterAll text).column := by
  induction text generalizing p q with
  | nil => exact h
  | cons c rest ih =>
    refine ih ?_
    unfold after
    split
    · rfl
    · exact congrArg (· + 1) h

/-- Behind a line feed the column does not depend on where the text started. -/
theorem column_afterAll_of_not_oneLine (h : ¬ OneLine text) (p q : Position) :
    (p.afterAll text).column = (q.afterAll text).column := by
  obtain ⟨before, behind, rfl⟩ := List.append_of_mem (Decidable.not_not.1 h)
  rw [afterAll_append, afterAll_append]
  -- The line feed takes both to the start of a line.
  exact column_afterAll_congr (p := ⟨(p.afterAll before).line + 1, 0⟩)
    (q := ⟨(q.afterAll before).line + 1, 0⟩) rfl behind

/-- Behind a line feed only the line of the start counts. -/
theorem afterAll_congr_of_not_oneLine (h : ¬ OneLine text) {p q : Position}
    (hline : p.line = q.line) : p.afterAll text = q.afterAll text := by
  have hlines : (p.afterAll text).line = (q.afterAll text).line := by
    rw [line_afterAll, line_afterAll, hline]
  have hcolumns := column_afterAll_of_not_oneLine h p q
  calc p.afterAll text = ⟨(p.afterAll text).line, (p.afterAll text).column⟩ := rfl
    _ = ⟨(q.afterAll text).line, (q.afterAll text).column⟩ := by rw [hlines, hcolumns]
    _ = q.afterAll text := rfl

/-- A stretch that is not on one line leads to a later line. -/
theorem line_lt_afterAll (h : ¬ OneLine text) (p : Position) : p.line < (p.afterAll text).line := by
  have := List.count_pos_iff.2 (Decidable.not_not.1 h)
  rw [line_afterAll]
  omega

/-- A nonempty stretch leads to a later line, or to a later column of the line. -/
theorem lt_afterAll (h : text ≠ []) (p : Position) :
    p.line < (p.afterAll text).line ∨
      p.line = (p.afterAll text).line ∧ p.column < (p.afterAll text).column := by
  by_cases hline : OneLine text
  · right
    have := List.length_pos_iff.2 h
    rw [afterAll_of_oneLine hline]
    exact ⟨rfl, Nat.lt_add_of_pos_right this⟩
  · exact .inl (line_lt_afterAll hline p)

/-- The place behind a line feed is the start of a line. -/
theorem column_afterAll_newline (p : Position) (text : List Char) :
    (p.afterAll (text ++ ['\n'])).column = 0 := by
  rw [afterAll_append]
  rfl

/-- The place of the character at an index of a text. -/
def ofIndex (text : List Char) (i : Nat) : Position := start.afterAll (text.take i)

/-- The places in a text do not depend on what stands behind it. -/
theorem ofIndex_append_of_le {i : Nat} (h : i ≤ text.length) (more : List Char) :
    ofIndex (text ++ more) i = ofIndex text i := by
  rw [ofIndex, List.take_append_of_le_length h, ofIndex]

/-- The places behind a text go on from the place behind it. -/
theorem ofIndex_append_add (text more : List Char) (j : Nat) :
    ofIndex (text ++ more) (text.length + j) = (start.afterAll text).afterAll (more.take j) := by
  rw [ofIndex, List.take_length_add_append, afterAll_append]

/-- A text is cut in front of a character that stands at the place asked for. -/
theorem splitFrom?_eq_some {target here : Position} {before behind : List Char}
    (h : splitFrom? target here text = some (before, behind)) :
    text = before ++ behind ∧ here.afterAll before = target := by
  induction text generalizing here before with
  | nil => exact absurd h (by simp [splitFrom?])
  | cons c rest ih =>
    rw [splitFrom?] at h
    split at h
    · -- The place asked for is reached, so the text is cut here.
      rename_i found
      obtain ⟨rfl, rfl⟩ := Prod.mk.inj (Option.some.inj h)
      exact ⟨rfl, found.2⟩
    · obtain ⟨⟨first, second⟩, hsplit, hpair⟩ := Option.map_eq_some_iff.1 h
      obtain ⟨rfl, rfl⟩ := Prod.mk.inj hpair
      obtain ⟨rfl, rfl⟩ := ih hsplit
      exact ⟨rfl, rfl⟩

/-- A text is cut at a place by the index of which it is the place. -/
theorem split?_eq_some {target : Position} {before behind : List Char}
    (h : target.split? text = some (before, behind)) :
    text = before ++ behind ∧ start.afterAll before = target :=
  splitFrom?_eq_some h

/-- Every character but a line feed is found at its place. -/
theorem splitFrom?_afterAll {c : Char} (hc : c ≠ '\n') (here : Position)
    (before behind : List Char) :
    splitFrom? (here.afterAll before) here (before ++ c :: behind) =
      some (before, c :: behind) := by
  induction before generalizing here with
  | nil => exact if_pos ⟨hc, rfl⟩
  | cons first rest ih =>
    -- The place asked for comes later than this character.
    have hlt := lt_afterAll (List.cons_ne_nil first rest) here
    have hne : ¬ (first ≠ '\n' ∧ here = here.afterAll (first :: rest)) := by
      rintro ⟨-, heq⟩
      rw [← heq] at hlt
      omega
    rw [List.cons_append, splitFrom?, if_neg hne]
    exact congrArg (Option.map _) (ih (here.after first))

theorem split?_afterAll {c : Char} (hc : c ≠ '\n') (before behind : List Char) :
    (start.afterAll before).split? (before ++ c :: behind) = some (before, c :: behind) :=
  splitFrom?_afterAll hc start before behind

end Position

/-! ## Counting lines -/

theorem fields_ne_nil (text : List Char) : fields text ≠ [] := by
  cases text with
  | nil => exact List.cons_ne_nil _ _
  | cons c rest =>
    rw [fields]
    split
    · exact List.cons_ne_nil _ _
    · split <;> exact List.cons_ne_nil _ _

/-- A text on one line is its only field. -/
theorem fields_of_oneLine {text : List Char} (h : OneLine text) : fields text = [text] := by
  induction text with
  | nil => rfl
  | cons c rest ih =>
    obtain ⟨hc, hrest⟩ := oneLine_cons.1 h
    rw [fields, if_neg hc, ih hrest]

/-- A line feed ends a field. -/
theorem fields_append (first second : List Char) :
    fields (first ++ '\n' :: second) = fields first ++ fields second := by
  induction first with
  | nil => rfl
  | cons c rest ih =>
    rw [List.cons_append, fields, ih, fields]
    split
    · rfl
    · cases hfields : fields rest with
      | nil => exact absurd hfields (fields_ne_nil rest)
      | cons line others => rfl

/-- The first line feed ends the first field. -/
theorem fields_append_newline {line : List Char} (h : OneLine line) (rest : List Char) :
    fields (line ++ '\n' :: rest) = line :: fields rest := by
  rw [fields_append, fields_of_oneLine h, List.singleton_append]

/-- The first line feed ends the first line. -/
theorem lines_append_newline {line : List Char} (h : OneLine line) (rest : List Char) :
    lines (line ++ '\n' :: rest) = dropReturn line :: lines rest := by
  rw [lines, lines, fields_append_newline h]
  cases hfields : fields rest with
  | nil => exact absurd hfields (fields_ne_nil rest)
  | cons first others => rfl

/-- Completing a text changes nothing in front of a line feed. -/
theorem completeLine_append_newline (line rest : List Char) :
    completeLine (line ++ '\n' :: rest) = line ++ '\n' :: completeLine rest := by
  unfold completeLine
  cases rest with
  | nil => simp
  | cons c rest =>
    -- The last character is the same in both.
    have hlast : (line ++ '\n' :: c :: rest).getLast? = (c :: rest).getLast? := by
      rw [List.getLast?_append, List.getLast?_cons_cons, List.getLast?_cons, Option.some_or]
    rw [hlast]
    split
    · rfl
    · rfl
    · rw [List.append_assoc, List.cons_append]

/-- A text on one line is completed by a line feed unless it is empty. -/
theorem completeLine_of_oneLine {text : List Char} (h : OneLine text) (hne : text ≠ []) :
    completeLine text = text ++ ['\n'] := by
  unfold completeLine
  split
  · rename_i hlast
    exact absurd (List.getLast?_eq_none_iff.1 hlast) hne
  · rename_i hlast
    exact absurd (List.mem_of_getLast? hlast) h
  · rfl

/-- A text is completed at its end. -/
theorem completeLine_eq_append (text : List Char) :
    ∃ ending, completeLine text = text ++ ending := by
  unfold completeLine
  split
  · exact ⟨[], (List.append_nil text).symm⟩
  · exact ⟨[], (List.append_nil text).symm⟩
  · exact ⟨['\n'], rfl⟩

/-- A complete text is empty or ends with a line feed. -/
theorem completeLine_eq (text : List Char) :
    completeLine text = [] ∨ ∃ before, completeLine text = before ++ ['\n'] := by
  unfold completeLine
  split
  · rename_i hlast
    exact .inl (List.getLast?_eq_none_iff.1 hlast)
  · rename_i hlast
    exact .inr (List.getLast?_eq_some_iff.1 hlast)
  · exact .inr ⟨text, rfl⟩

/-- A complete text has a line for every line feed. -/
theorem length_lines (text : List Char) : (lines text).length = (completeLine text).count '\n' := by
  induction hn : text.length using Nat.strongRecOn generalizing text with
  | ind n ih =>
    -- A text is one line, or a line with its line feed and a shorter text.
    by_cases hline : OneLine text
    · rw [lines, fields_of_oneLine hline]
      cases text with
      | nil => rfl
      | cons c rest =>
        rw [completeLine_of_oneLine hline (List.cons_ne_nil c rest), List.count_append,
          List.count_eq_zero_of_not_mem hline]
        rfl
    · obtain ⟨line, rest, rfl, hfirst⟩ := List.eq_append_cons_of_mem (Decidable.not_not.1 hline)
      have hlt : rest.length < n := by
        rw [← hn, List.length_append, List.length_cons]
        omega
      rw [lines_append_newline hfirst, completeLine_append_newline, List.length_cons,
        ih rest.length hlt rest rfl, List.count_append, List.count_cons_self,
        List.count_eq_zero_of_not_mem hfirst, Nat.zero_add]

/-- The place behind a complete text is the start of the line behind its lines. -/
theorem afterAll_completeLine (text : List Char) :
    Position.start.afterAll (completeLine text) = ⟨(lines text).length + 1, 0⟩ := by
  have hline := Position.line_afterAll .start (completeLine text)
  have hcolumn : (Position.start.afterAll (completeLine text)).column = 0 := by
    obtain hnil | ⟨before, hbefore⟩ := completeLine_eq text
    · rw [hnil]
      rfl
    · rw [hbefore, Position.column_afterAll_newline]
  rw [← length_lines] at hline
  rw [← hcolumn, Nat.add_comm]
  exact congrArg (Position.mk · _) hline

/-- A character of a text stands on one of its lines. -/
theorem line_ofIndex_le {text : List Char} {i : Nat} (h : i < text.length) :
    (Position.ofIndex text i).line ≤ (lines text).length := by
  obtain ⟨ending, hending⟩ := completeLine_eq_append text
  have hsplit : completeLine text = text.take i ++ (text.drop i ++ ending) := by
    rw [← List.append_assoc, List.take_append_drop, hending]
  have hne : text.drop i ++ ending ≠ [] := by
    simp only [ne_eq, List.append_eq_nil_iff, List.drop_eq_nil_iff]
    omega
  -- The place comes before the one behind the complete text, which is the start of a line.
  have hlt := Position.lt_afterAll hne (Position.ofIndex text i)
  rw [Position.ofIndex, ← Position.afterAll_append, ← hsplit, afterAll_completeLine] at hlt
  dsimp only at hlt
  rw [Position.ofIndex]
  omega

/-! ## Counting bytes -/

theorem byteLength_append (first second : List Char) :
    byteLength (first ++ second) = byteLength first + byteLength second := by
  induction first with
  | nil => exact (Nat.zero_add _).symm
  | cons c rest ih =>
    calc c.utf8Size + byteLength (rest ++ second)
        = c.utf8Size + (byteLength rest + byteLength second) := by rw [ih]
      _ = byteLength (c :: rest) + byteLength second := (Nat.add_assoc ..).symm

end UnitLoader.Text
