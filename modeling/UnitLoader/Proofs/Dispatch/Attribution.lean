import UnitLoader.Diagnostic.Attribution
import UnitLoader.Proofs.Dispatch.OneLine
import UnitLoader.Proofs.Text.Places

/-!
# Places survive a dispatch module

A unit's source is compiled with a dispatch module in it, and what the compiler says of a place in
that text is carried back by an `Attribution`. `survives_attach` is the law of this: every character
of the source is carried back to where it stands in the source, and every character of the module to
its own place in the module, on its one line.

The two ways to attach a module have one lemma each. Behind the source, all lines of the module come
after the lines of the source. Inside a line, the characters in front of the module lie before its
region, and those behind it on the same line lie behind the region by exactly its width.
-/

namespace UnitLoader

open Text (Position OneLine)

namespace Dispatch.Attached

/-- The text that was put into the source: the code, and behind code inside a line the space that
sets it apart. -/
def inserted (a : Attached) : List Char :=
  match a.region with
  | none => a.code
  | some _ => a.code ++ [' ']

/-- The index that a character of the source has in the whole text. -/
def indexOf (a : Attached) (i : Nat) : Nat :=
  if i < a.before.length then i else i + a.inserted.length

end Dispatch.Attached

namespace Attribution

/-- The place in the source or in the generated code that the character at an index of a compiled
text is carried back to. A compiler counts columns from one. -/
def locateIndex (a : Attribution) (text : List Char) (i : Nat) : Location :=
  a.locate (Position.ofIndex text i).line ((Position.ofIndex text i).column + 1)

/-- The place of the character at an index of a named text. -/
def placeIn (file : String) (text : List Char) (i : Nat) : Location :=
  ⟨file, (Position.ofIndex text i).line, (Position.ofIndex text i).column + 1⟩

/-! ## No subtraction falls below zero -/

/-- A difference, unless it is below zero. -/
def sub? (m n : Nat) : Option Nat := if n ≤ m then some (m - n) else none

/-- `locateByLine` with every subtraction checked. -/
def locateByLine? (a : Attribution) (line column : Nat) : Option Location :=
  if line ≤ a.sourceLines then some ⟨a.file, line, column⟩
  else (sub? line a.sourceLines).map fun line => ⟨Location.dispatchFile, line, column⟩

/-- `locate` with every subtraction checked. -/
def locate? (a : Attribution) (line column : Nat) : Option Location :=
  match a.inlineRegion with
  | none => a.locateByLine? line column
  | some region =>
    if region.line = line ∧ region.column ≤ column then
      if column < region.end then
        (sub? column region.column).map fun column => ⟨Location.dispatchFile, 1, column + 1⟩
      else (sub? column region.width).map fun column => ⟨a.file, line, column⟩
    else a.locateByLine? line column

theorem sub?_of_le {m n : Nat} (h : n ≤ m) : sub? m n = some (m - n) := if_pos h

theorem locateByLine?_eq (a : Attribution) (line column : Nat) :
    a.locateByLine? line column = some (a.locateByLine line column) := by
  unfold locateByLine? locateByLine
  split
  · rfl
  · rw [sub?_of_le (by omega)]
    rfl

/-- At no place at all does carrying it back subtract more than there is. -/
theorem locate?_eq (a : Attribution) (line column : Nat) :
    a.locate? line column = some (a.locate line column) := by
  unfold locate? locate
  cases a.inlineRegion with
  | none => exact locateByLine?_eq a line column
  | some region =>
    dsimp only
    split
    · split
      · rw [sub?_of_le (by omega)]
        rfl
      · rename_i hend
        rw [Text.Region.end] at hend
        rw [sub?_of_le (by omega)]
        rfl
    · exact locateByLine?_eq a line column

/-! ## Where a place lies -/

section

variable {a : Attribution} {region : Text.Region} {line column : Nat}

/-- A place on a line of the source that no code stands before is carried back to itself. -/
theorem locate_of_line_le (hline : line ≤ a.sourceLines)
    (h : ∀ region, a.inlineRegion = some region → region.line = line → column < region.column) :
    a.locate line column = ⟨a.file, line, column⟩ := by
  unfold locate
  cases hregion : a.inlineRegion with
  | none => exact if_pos hline
  | some region =>
    dsimp only
    rw [if_neg fun hin => by have := h region hregion hin.1; omega]
    exact if_pos hline

/-- A place in the region is carried back to its place in the code. -/
theorem locate_of_mem_region (h : a.inlineRegion = some region) (hline : region.line = line)
    (hcolumn : region.column ≤ column) (hend : column < region.end) :
    a.locate line column = ⟨Location.dispatchFile, 1, column - region.column + 1⟩ := by
  unfold locate
  rw [h]
  dsimp only
  rw [if_pos ⟨hline, hcolumn⟩, if_pos hend]

/-- A place behind the region on its line is moved by the width of the region. -/
theorem locate_of_end_le (h : a.inlineRegion = some region) (hline : region.line = line)
    (hend : region.end ≤ column) :
    a.locate line column = ⟨a.file, line, column - region.width⟩ := by
  have hcolumn : region.column ≤ column := Nat.le_trans (Nat.le_add_right _ _) hend
  unfold locate
  rw [h]
  dsimp only
  rw [if_pos ⟨hline, hcolumn⟩, if_neg (by omega)]

/-- A place behind the lines of the source is carried back to its line in the code. -/
theorem locate_of_lt_line (h : a.inlineRegion = none) (hline : a.sourceLines < line) :
    a.locate line column = ⟨Location.dispatchFile, line - a.sourceLines, column⟩ := by
  unfold locate locateByLine
  rw [h]
  dsimp only
  rw [if_neg (by omega)]

end

/-! ## A module behind the source -/

section

variable (file : String) (source : List Char) {code : List Char}

/-- A character of the source keeps its place when text follows the source. -/
theorem locateIndex_append {i : Nat} (h : i < source.length) (more : List Char) :
    (ofSource file source none).locateIndex (source ++ more) i = placeIn file source i := by
  rw [locateIndex, Position.ofIndex_append_of_le (by omega)]
  exact locate_of_line_le (Text.line_ofIndex_le h) fun _ h => absurd h (by simp [ofSource])

/-- A character of code behind the complete source is carried back to its place in the code. -/
theorem locateIndex_completeLine (hcode : OneLine code) {j : Nat} (h : j < code.length)
    (more : List Char) :
    (ofSource file source none).locateIndex (Text.completeLine source ++ (code ++ more))
        ((Text.completeLine source).length + j) = ⟨Location.dispatchFile, 1, j + 1⟩ := by
  have htake : (code ++ more).take j = code.take j := List.take_append_of_le_length (by omega)
  have hplace : Position.ofIndex (Text.completeLine source ++ (code ++ more))
      ((Text.completeLine source).length + j) = ⟨(Text.lines source).length + 1, j⟩ := by
    rw [Position.ofIndex_append_add, htake, Text.afterAll_completeLine,
      Position.afterAll_of_oneLine (hcode.take j), List.length_take_of_le (by omega), Nat.zero_add]
  rw [locateIndex, hplace]
  refine (locate_of_lt_line rfl (Nat.lt_succ_self (Text.lines source).length)).trans ?_
  simp only [ofSource, Nat.add_sub_cancel_left]

end

/-! ## A module inside a line -/

section

variable (file : String) {before code behind : List Char}

/-- The region of code that stands behind a text, together with a space. -/
def regionBehind (before code : List Char) : Text.Region :=
  ⟨(Position.start.afterAll before).line, (Position.start.afterAll before).column + 1,
    code.length + 1⟩

/-- A character in front of the region keeps its place. -/
theorem locateIndex_before {i : Nat} (h : i < before.length) (more : List Char) :
    (ofSource file (before ++ behind) (some (regionBehind before code))).locateIndex
        (before ++ more) i = placeIn file (before ++ behind) i := by
  have hlen : i < (before ++ behind).length := by
    rw [List.length_append]
    omega
  rw [locateIndex, placeIn, Position.ofIndex_append_of_le (by omega),
    Position.ofIndex_append_of_le (by omega)]
  have hline := Text.line_ofIndex_le hlen
  rw [Position.ofIndex_append_of_le (by omega)] at hline
  refine locate_of_line_le hline fun region hregion hsame => ?_
  obtain rfl := Option.some.inj hregion
  -- What is left of the text in front of the region leads on from the place.
  have hne : before.drop i ≠ [] := by
    rw [ne_eq, List.drop_eq_nil_iff]
    omega
  have hlt := Position.lt_afterAll hne (Position.ofIndex before i)
  rw [Position.ofIndex, ← Position.afterAll_append, List.take_append_drop] at hlt
  dsimp only [regionBehind] at hsame ⊢
  rw [Position.ofIndex] at hsame ⊢
  omega

/-- A character in the region is carried back to its place in the code. -/
theorem locateIndex_inside (hcode : OneLine code) {j : Nat} (h : j < code.length + 1) :
    (ofSource file (before ++ behind) (some (regionBehind before code))).locateIndex
        (before ++ (code ++ ' ' :: behind)) (before.length + j) =
      ⟨Location.dispatchFile, 1, j + 1⟩ := by
  have htake : (code ++ ' ' :: behind).take j = code.take j :=
    List.take_append_of_le_length (by omega)
  have hplace : Position.ofIndex (before ++ (code ++ ' ' :: behind)) (before.length + j) =
      ⟨(Position.start.afterAll before).line, (Position.start.afterAll before).column + j⟩ := by
    rw [Position.ofIndex_append_add, htake, Position.afterAll_of_oneLine (hcode.take j),
      List.length_take_of_le (by omega)]
  -- The place lies in the region, as far behind its start as the character in the code.
  rw [locateIndex, hplace]
  have hregion : (ofSource file (before ++ behind)
      (some (regionBehind before code))).inlineRegion = some (regionBehind before code) := rfl
  refine (locate_of_mem_region hregion rfl ?_ ?_).trans ?_
  all_goals dsimp only [regionBehind, Text.Region.end]
  · omega
  · omega
  · rw [show ∀ n : Nat, n + j + 1 - (n + 1) + 1 = j + 1 by omega]

/-- Text that goes on behind the region, instead of in front of it, leads to a place that is carried
back to the one it would have led to: on the line of the region the column was moved by the width of
the region, and on any other line it was not moved at all. -/
theorem locate_afterAll_moved {a : Attribution} {here : Position} {width : Nat}
    (h : a.inlineRegion = some ⟨here.line, here.column + 1, width⟩) {between : List Char}
    (hline : (here.afterAll between).line ≤ a.sourceLines) :
    a.locate ((Position.mk here.line (here.column + width)).afterAll between).line
        (((Position.mk here.line (here.column + width)).afterAll between).column + 1) =
      ⟨a.file, (here.afterAll between).line, (here.afterAll between).column + 1⟩ := by
  by_cases hbetween : OneLine between
  · -- On the line of the region the place is behind it by as much as it was moved.
    rw [Position.afterAll_of_oneLine hbetween, Position.afterAll_of_oneLine hbetween]
    refine (locate_of_end_le h rfl ?_).trans ?_
    all_goals dsimp only [Text.Region.end]
    · omega
    · rw [show here.column + width + between.length + 1 - width =
        here.column + between.length + 1 by omega]
  · -- On a later line there is no region, and the column counts from the last line feed.
    have hlater := Position.line_lt_afterAll hbetween here
    have hsame : ((Position.mk here.line (here.column + width)).afterAll between).line =
        (here.afterAll between).line := by
      rw [Position.line_afterAll, Position.line_afterAll]
    rw [hsame, Position.column_afterAll_of_not_oneLine hbetween _ here]
    refine locate_of_line_le hline fun region hregion hregionLine => ?_
    obtain rfl := Option.some.inj (h.symm.trans hregion)
    exact absurd hregionLine (by dsimp only; omega)

/-- Behind the region a place goes on from the end of the region, which is on one line. -/
theorem ofIndex_behind (hcode : OneLine code) (k : Nat) :
    Position.ofIndex (before ++ (code ++ ' ' :: behind)) (before.length + (code.length + 1 + k)) =
      (Position.mk (Position.start.afterAll before).line
        ((Position.start.afterAll before).column + (code.length + 1))).afterAll
          (behind.take k) := by
  have hspace : OneLine (code ++ [' ']) := Text.oneLine_append.2 ⟨hcode, by decide⟩
  have htext : before ++ (code ++ ' ' :: behind) = before ++ (code ++ [' ']) ++ behind := by simp
  have hindex : before.length + (code.length + 1 + k) = (before ++ (code ++ [' '])).length + k := by
    simp only [List.length_append, List.length_singleton]
    omega
  rw [htext, hindex, Position.ofIndex_append_add, Position.afterAll_append,
    Position.afterAll_of_oneLine hspace, List.length_append]
  rfl

/-- A place behind the region is carried back to its place in the source, if it is on one of the
lines of the source. -/
theorem locateIndex_behind_of_line_le (hcode : OneLine code) {k : Nat}
    (hline : (Position.ofIndex (before ++ behind) (before.length + k)).line ≤
      (Text.lines (before ++ behind)).length) :
    (ofSource file (before ++ behind) (some (regionBehind before code))).locateIndex
        (before ++ (code ++ ' ' :: behind)) (before.length + (code.length + 1 + k)) =
      placeIn file (before ++ behind) (before.length + k) := by
  rw [Position.ofIndex_append_add] at hline
  rw [locateIndex, placeIn, ofIndex_behind hcode, Position.ofIndex_append_add]
  exact locate_afterAll_moved rfl hline

/-- A character behind the region is carried back to its place in the source. -/
theorem locateIndex_behind (hcode : OneLine code) {k : Nat} (h : k < behind.length) :
    (ofSource file (before ++ behind) (some (regionBehind before code))).locateIndex
        (before ++ (code ++ ' ' :: behind)) (before.length + (code.length + 1 + k)) =
      placeIn file (before ++ behind) (before.length + k) := by
  have hlen : before.length + k < (before ++ behind).length := by
    rw [List.length_append]
    omega
  exact locateIndex_behind_of_line_le file hcode (Text.line_ofIndex_le hlen)

end

end Attribution

/-! ## Attaching a module -/

namespace Dispatch

/-- A module is attached in one of two ways: behind the source, of which the last line is completed,
or inside a line of it. -/
theorem attach_cases (d : Dispatch) (source : List Char) :
    d.attach source = ⟨Text.completeLine source, d.code, ['\n'], none⟩ ∨
      ∃ before behind, source = before ++ behind ∧
        d.attach source =
          ⟨before, d.code, ' ' :: behind, some (Attribution.regionBehind before d.code)⟩ := by
  unfold attach
  split
  · rename_i place before behind hanchor
    unfold atAnchor? at hanchor
    split at hanchor
    · exact absurd hanchor (by simp)
    · split at hanchor
      · rename_i hsplit
        obtain ⟨rfl, rfl⟩ := Position.split?_eq_some hsplit
        simp only [Option.some.injEq, Prod.mk.injEq] at hanchor
        obtain ⟨rfl, rfl, rfl⟩ := hanchor
        exact .inr ⟨_, _, rfl, rfl⟩
      · exact absurd hanchor (by simp)
  · exact .inl rfl

/-- What it means that places survive a module attached to a source. The module's code is one line.
Every character of the source stands in the whole text, and from there it is carried back to its
place in the source. Every character that was put in is carried back to its own place on the one
line of the module. And no place at all takes a difference below zero. -/
structure Survives (a : Attached) (file : String) (source : List Char) : Prop where
  code_oneLine : '\n' ∉ a.code
  getElem?_source : ∀ i < source.length, a.text[a.indexOf i]? = source[i]?
  locate_source : ∀ i < source.length,
    (Attribution.ofSource file source a.region).locateIndex a.text (a.indexOf i) =
      Attribution.placeIn file source i
  getElem?_inserted : ∀ j < a.inserted.length, a.text[a.before.length + j]? = a.inserted[j]?
  locate_inserted : ∀ j < a.inserted.length,
    (Attribution.ofSource file source a.region).locateIndex a.text (a.before.length + j) =
      ⟨Location.dispatchFile, 1, j + 1⟩
  locate?_eq : ∀ line column,
    (Attribution.ofSource file source a.region).locate? line column =
      some ((Attribution.ofSource file source a.region).locate line column)

/-- Places survive a module of one line behind the source. -/
theorem survives_behind {code : List Char} (hcode : OneLine code) (file : String)
    (source : List Char) :
    Survives ⟨Text.completeLine source, code, ['\n'], none⟩ file source := by
  obtain ⟨ending, hending⟩ := Text.completeLine_eq_append source
  have hlen : source.length ≤ (Text.completeLine source).length := by
    rw [hending, List.length_append]
    omega
  -- Whatever completes the last line comes behind the characters of the source.
  have hindex : ∀ i < source.length,
      Attached.indexOf ⟨Text.completeLine source, code, ['\n'], none⟩ i = i :=
    fun i hi => if_pos (show i < (Text.completeLine source).length by omega)
  constructor
  case code_oneLine => exact hcode
  case getElem?_source =>
    intro i hi
    rw [hindex i hi, Attached.text, hending, List.append_assoc, List.append_assoc,
      List.getElem?_append_left hi]
  case locate_source =>
    intro i hi
    rw [hindex i hi, Attached.text, hending, List.append_assoc, List.append_assoc]
    exact Attribution.locateIndex_append file source hi _
  case getElem?_inserted =>
    intro j hj
    rw [Attached.text, List.append_assoc, List.getElem?_append_right (Nat.le_add_right _ _),
      Nat.add_sub_cancel_left]
    exact List.getElem?_append_left hj
  case locate_inserted =>
    intro j hj
    rw [Attached.text, List.append_assoc]
    exact Attribution.locateIndex_completeLine file source hcode hj _
  case locate?_eq => exact Attribution.locate?_eq _

/-- Places survive a module of one line inside a line of the source. -/
theorem survives_inside {code : List Char} (hcode : OneLine code) (file : String)
    (before behind : List Char) :
    Survives ⟨before, code, ' ' :: behind, some (Attribution.regionBehind before code)⟩ file
      (before ++ behind) := by
  have htext : before ++ code ++ ' ' :: behind = before ++ (code ++ ' ' :: behind) := by simp
  have hinserted : (code ++ [' ']).length = code.length + 1 := by simp
  -- A character of the source stands in front of the region or behind it.
  have hcases : ∀ i, i < before.length ∧ Attached.indexOf ⟨before, code, ' ' :: behind,
        some (Attribution.regionBehind before code)⟩ i = i ∨
      ∃ k, i = before.length + k ∧ Attached.indexOf ⟨before, code, ' ' :: behind,
        some (Attribution.regionBehind before code)⟩ i = before.length + (code.length + 1 + k) := by
    intro i
    unfold Attached.indexOf
    by_cases hlt : i < before.length
    · exact .inl ⟨hlt, if_pos hlt⟩
    · refine .inr ⟨i - before.length, by omega, ?_⟩
      rw [if_neg hlt, Attached.inserted, hinserted]
      omega
  constructor
  case code_oneLine => exact hcode
  -- A character of the source is found again at its index, in front of the code or moved by its
  -- length.
  case getElem?_source =>
    intro i hi
    rw [Attached.text, htext]
    obtain ⟨hlt, hindex⟩ | ⟨k, rfl, hindex⟩ := hcases i
    · rw [hindex, List.getElem?_append_left hlt, List.getElem?_append_left hlt]
    · rw [hindex, List.getElem?_append_right (by omega), List.getElem?_append_right (by omega),
        List.getElem?_append_right (by omega)]
      simp only [Nat.add_sub_cancel_left]
      rw [show code.length + 1 + k - code.length = k + 1 by omega, List.getElem?_cons_succ]
  case locate_source =>
    intro i hi
    rw [Attached.text, htext]
    obtain ⟨hlt, hindex⟩ | ⟨k, rfl, hindex⟩ := hcases i
    · rw [hindex]
      exact Attribution.locateIndex_before file hlt _
    · rw [hindex]
      rw [List.length_append] at hi
      exact Attribution.locateIndex_behind file hcode (by omega)
  case getElem?_inserted =>
    intro j hj
    have hsplit : code ++ ' ' :: behind = code ++ [' '] ++ behind := by simp
    rw [Attached.text, htext, List.getElem?_append_right (Nat.le_add_right _ _),
      Nat.add_sub_cancel_left, hsplit]
    exact List.getElem?_append_left hj
  -- The code owns its columns of the line, and the space behind it.
  case locate_inserted =>
    intro j hj
    rw [Attached.text, htext]
    exact Attribution.locateIndex_inside file hcode (hinserted ▸ hj)
  case locate?_eq => exact Attribution.locate?_eq _

/-- **Places survive a dispatch module:** for every unit that has one, and for every source text
that it is attached to. -/
theorem survives_attach {u : SourceUnit} {d : Dispatch} (h : generate u = .ok d) (file : String)
    (source : List Char) : Survives (d.attach source) file source := by
  have hcode := oneLine_code_of_generate h
  obtain hbehind | ⟨before, behind, rfl, hinside⟩ := attach_cases d source
  · rw [hbehind]
    exact survives_behind hcode file source
  · rw [hinside]
    exact survives_inside hcode file before behind

/-- A unit whose type stands in a module, so that its dispatch module goes inside a line. -/
def nestedUnit : SourceUnit :=
  ⟨"p::A", "mod p { pub struct A; impl A { pub fn f(&self, n: u32) -> u32 { n } } }"⟩

/-- Places survive the module that is put in front of the last brace of `nestedUnit`. -/
theorem survives_attach_nestedUnit :
    ∃ d, generate nestedUnit = .ok d ∧
      (d.attach nestedUnit.source.toList).region.map (·.column) = some 71 ∧
      Survives (d.attach nestedUnit.source.toList) "memory:///p/A.rs" nestedUnit.source.toList := by
  have hcolumn : (generate nestedUnit).toOption.map
      (fun d => (d.attach nestedUnit.source.toList).region.map (·.column)) = some (some 71) := by
    decide +kernel
  cases h : generate nestedUnit with
  | error fault =>
    rw [h] at hcolumn
    exact absurd hcolumn (by simp [Except.toOption])
  | ok d =>
    rw [h] at hcolumn
    exact ⟨d, rfl, Option.some.inj hcolumn, survives_attach h _ _⟩

end Dispatch

end UnitLoader
