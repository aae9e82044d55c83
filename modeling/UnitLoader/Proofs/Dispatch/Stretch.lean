import UnitLoader.Proofs.Dispatch.Anchor

/-!
# Stretches of a source over several lines

What a compiler points to is a stretch of text: the place of its first character and, on another
line, the place just behind its last one. The first is the place of a character, the second need not
be. `carried_back` says what becomes of a stretch of a source that has a dispatch module inside of a
line. Its start is carried back to where it is in the source, and so is its end, with two
exceptions. A stretch that ends directly in front of the module ends where the module starts, and
one that ends with the last line feed of the source ends behind all lines of the source. In both
cases the end is said to be at the start of the generated code.

The places of characters are those of `survives_attach`. The place behind a character is the place
of the next one, unless the module or the end of the source comes first (`locateIndex_end`).
-/

namespace UnitLoader

open Text (Position OneLine)

/-! ## The end of a source -/

namespace Text

variable {text : List Char}

/-- Behind a text that ends with a line feed a new line starts, which is none of its lines. -/
theorem afterAll_of_getLast? (h : text.getLast? = some '\n') :
    Position.start.afterAll text = ⟨(lines text).length + 1, 0⟩ := by
  have hcomplete : completeLine text = text := by
    unfold completeLine
    rw [h]
    rfl
  rw [← afterAll_completeLine, hcomplete]

/-- Any other text ends on the last of its lines. -/
theorem line_afterAll_of_getLast? {c : Char} (h : text.getLast? = some c) (hc : c ≠ '\n') :
    (Position.start.afterAll text).line = (lines text).length := by
  have hcomplete : completeLine text = text ++ ['\n'] := by
    unfold completeLine
    rw [h]
    split
    · contradiction
    · exact absurd (Option.some.inj ‹_›) hc
    · rfl
  have hline := Position.line_afterAll .start text
  have hlines := length_lines text
  have hnewline : (text ++ ['\n']).count '\n' = text.count '\n' + 1 := by
    rw [List.count_append]
    rfl
  rw [hcomplete, hnewline] at hlines
  rw [hline, hlines, Nat.add_comm]
  rfl

end Text

namespace Dispatch

/-- Code inside of a line, and the space that sets it apart. -/
def Attached.inside (before code behind : List Char) : Attached :=
  ⟨before, code, ' ' :: behind, some (Attribution.regionBehind before code)⟩

end Dispatch

/-! ## Stretches -/

/-- A stretch of a source that ends on another line than it starts. -/
structure Stretch (source : List Char) where
  /-- The index of its first character. -/
  first : Nat
  /-- The index of its last character. -/
  last : Nat
  first_le_last : first ≤ last
  last_lt_length : last < source.length
  /-- The place behind the last character is on a later line than the first character. -/
  line_lt : (Position.ofIndex source first).line < (Position.ofIndex source (last + 1)).line

namespace Stretch

open Dispatch (Attached)
open Attribution (placeIn)

variable {source : List Char}

/-- The stretch as a compiler reports it in the whole text: from the image of its first character to
the place just behind the image of its last one. -/
def image (st : Stretch source) (a : Attached) (isPrimary : Bool) (label : Option (List Char)) :
    ReportSpan where
  lineStart := (Position.ofIndex a.text (a.indexOf st.first)).line
  lineEnd := (Position.ofIndex a.text (a.indexOf st.last + 1)).line
  columnStart := (Position.ofIndex a.text (a.indexOf st.first)).column + 1
  columnEnd := (Position.ofIndex a.text (a.indexOf st.last + 1)).column + 1
  isPrimary := isPrimary
  label := label

/-- The stretch in terms of the source. -/
def span (st : Stretch source) (file : String) (isPrimary : Bool) (label : Option (List Char)) :
    Span where
  location := placeIn file source st.first
  endLocation := some (placeIn file source (st.last + 1))
  label := label.map String.ofList
  isPrimary := isPrimary

/-- The stretch ends directly in front of a module that is inside of a line. -/
def EndsAtModule (st : Stretch source) (a : Attached) : Prop := st.last + 1 = a.before.length

/-- The stretch ends with the last character of the source, and that is a line feed. -/
def EndsBehindLines (st : Stretch source) : Prop :=
  st.last + 1 = source.length ∧ source.getLast? = some '\n'

instance (st : Stretch source) (a : Attached) : Decidable (st.EndsAtModule a) :=
  inferInstanceAs (Decidable (_ = _))

instance (st : Stretch source) : Decidable st.EndsBehindLines :=
  inferInstanceAs (Decidable (_ ∧ _))

/-- What is said of the end of a stretch: where it is in the source, or the start of the generated
code. -/
def carriedEnd (st : Stretch source) (a : Attached) (file : String) : Location :=
  if st.EndsAtModule a ∨ st.EndsBehindLines then ⟨Location.dispatchFile, 1, 1⟩
  else placeIn file source (st.last + 1)

section

variable {st : Stretch source} {a : Attached}

theorem carriedEnd_of_endsAtModule (h : st.EndsAtModule a) (file : String) :
    st.carriedEnd a file = ⟨Location.dispatchFile, 1, 1⟩ := if_pos (.inl h)

theorem carriedEnd_of_endsBehindLines (h : st.EndsBehindLines) (file : String) :
    st.carriedEnd a file = ⟨Location.dispatchFile, 1, 1⟩ := if_pos (.inr h)

theorem carriedEnd_of_not (hmodule : ¬ st.EndsAtModule a) (hlines : ¬ st.EndsBehindLines)
    (file : String) : st.carriedEnd a file = placeIn file source (st.last + 1) :=
  if_neg (not_or.2 ⟨hmodule, hlines⟩)

end

end Stretch

namespace Attribution

open Dispatch.Attached (inside)

/-! ## The place behind a character -/

section

variable (file : String) {before code behind : List Char}

/-- The code inside of a line adds no line. -/
theorem line_ofIndex_behind (hcode : OneLine code) (k : Nat) :
    (Position.ofIndex (before ++ (code ++ ' ' :: behind))
        (before.length + (code.length + 1 + k))).line =
      (Position.ofIndex (before ++ behind) (before.length + k)).line := by
  rw [ofIndex_behind hcode, Position.ofIndex_append_add, Position.line_afterAll,
    Position.line_afterAll _ (behind.take k)]

/-- A place behind all lines of the source is carried back to generated code, even if that is inside
of a line. -/
theorem locate_of_region_line_ne {a : Attribution} {region : Text.Region} {line : Nat}
    (h : a.inlineRegion = some region) (hne : region.line ≠ line) (hline : a.sourceLines < line)
    (column : Nat) :
    a.locate line column = ⟨Location.dispatchFile, line - a.sourceLines, column⟩ := by
  unfold locate locateByLine
  rw [h]
  dsimp only
  rw [if_neg fun hin => hne hin.1, if_neg (by omega)]

/-- The end of a source that ends with a line feed is carried back to the start of the code. -/
theorem locateIndex_end_of_newline (hcode : OneLine code) (hne : behind ≠ [])
    (hlast : (before ++ behind).getLast? = some '\n') :
    (ofSource file (before ++ behind) (some (regionBehind before code))).locateIndex
        (before ++ (code ++ ' ' :: behind)) (before.length + (code.length + 1 + behind.length)) =
      ⟨Location.dispatchFile, 1, 1⟩ := by
  obtain ⟨front, c, hconcat⟩ := behind.eq_nil_or_concat.resolve_left hne
  obtain rfl := hconcat.trans (List.concat_eq_append ..)
  obtain rfl : c = '\n' := by
    rw [← List.append_assoc, List.getLast?_concat] at hlast
    exact Option.some.inj hlast
  -- The place is the start of a line, and this is the first one behind those of the source.
  have hwhole : before ++ (code ++ ' ' :: (front ++ ['\n'])) =
      before ++ (code ++ ' ' :: front) ++ ['\n'] := by simp
  have hcolumn : (Position.ofIndex (before ++ (code ++ ' ' :: (front ++ ['\n'])))
      (before.length + (code.length + 1 + (front ++ ['\n']).length))).column = 0 := by
    rw [Position.ofIndex, List.take_of_length_le (by simp; omega), hwhole]
    exact Position.column_afterAll_newline _ _
  have hline : (Position.ofIndex (before ++ (code ++ ' ' :: (front ++ ['\n'])))
      (before.length + (code.length + 1 + (front ++ ['\n']).length))).line =
      (Text.lines (before ++ (front ++ ['\n']))).length + 1 := by
    rw [line_ofIndex_behind hcode, ← List.length_append, Position.ofIndex, List.take_length,
      Text.afterAll_of_getLast? hlast]
  have hregion : (regionBehind before code).line ≠
      (Text.lines (before ++ (front ++ ['\n']))).length + 1 := by
    -- The region is on a line of the source, in front of its last line feed.
    have hfeed : ¬ OneLine (front ++ ['\n']) := fun h => h (by simp)
    have hbefore := Position.line_lt_afterAll hfeed (Position.start.afterAll before)
    rw [← Position.afterAll_append, Text.afterAll_of_getLast? hlast] at hbefore
    exact Nat.ne_of_lt hbefore
  rw [locateIndex, hcolumn, hline]
  refine (locate_of_region_line_ne rfl hregion (Nat.lt_succ_self _) _).trans ?_
  simp only [ofSource, Nat.add_sub_cancel_left]

/-- The place just behind the last character of a stretch. It is the place of the next character of
the source, if neither the module nor the end of the source comes first. -/
theorem locateIndex_end (hcode : OneLine code) (st : Stretch (before ++ behind)) :
    (ofSource file (before ++ behind) (some (regionBehind before code))).locateIndex
        (before ++ (code ++ ' ' :: behind)) ((inside before code behind).indexOf st.last + 1) =
      st.carriedEnd (inside before code behind) file := by
  have hlast := st.last_lt_length
  have hlength : (before ++ behind).length = before.length + behind.length := List.length_append
  by_cases hbefore : st.last < before.length
  · have hindex : (inside before code behind).indexOf st.last = st.last := if_pos hbefore
    rw [hindex]
    by_cases hmodule : st.EndsAtModule (inside before code behind)
    · -- The next place is that of the first character of the code.
      rw [Stretch.carriedEnd_of_endsAtModule hmodule, show st.last + 1 = before.length from hmodule]
      exact locateIndex_inside file hcode (Nat.succ_pos _)
    · -- The next place is that of a character in front of the code.
      have hnext : st.last + 1 < before.length := Nat.lt_of_le_of_ne hbefore hmodule
      rw [Stretch.carriedEnd_of_not hmodule fun hlines => by have := hlines.1; omega]
      exact locateIndex_before file hnext _
  · obtain ⟨k, hk⟩ := Nat.exists_eq_add_of_le (Nat.not_lt.1 hbefore)
    have hindex : (inside before code behind).indexOf st.last + 1 =
        before.length + (code.length + 1 + (k + 1)) := by
      have hmoved : (inside before code behind).indexOf st.last =
          st.last + (code ++ [' ']).length := if_neg hbefore
      rw [hmoved, List.length_append, List.length_singleton, hk]
      omega
    have hplace : st.last + 1 = before.length + (k + 1) := by omega
    rw [hindex]
    by_cases hlines : st.EndsBehindLines
    · -- There is no next character, and the last one ends the last line.
      have hk' : k + 1 = behind.length := by have := hlines.1; omega
      have hne : behind ≠ [] := List.ne_nil_of_length_pos (by omega)
      rw [Stretch.carriedEnd_of_endsBehindLines hlines, hk']
      exact locateIndex_end_of_newline file hcode hne hlines.2
    · -- The next place is on a line of the source.
      have hline : (Position.ofIndex (before ++ behind) (st.last + 1)).line ≤
          (Text.lines (before ++ behind)).length := by
        by_cases hlt : st.last + 1 < (before ++ behind).length
        · exact Text.line_ofIndex_le hlt
        · have heq : st.last + 1 = (before ++ behind).length := by omega
          have hc := List.getLast?_eq_some_getLast (List.ne_nil_of_length_pos (by omega) :
            before ++ behind ≠ [])
          rw [Position.ofIndex, heq, List.take_length]
          refine Nat.le_of_eq (Text.line_afterAll_of_getLast? hc fun hnewline => ?_)
          exact hlines ⟨heq, hnewline ▸ hc⟩
      have hmodule : ¬ st.EndsAtModule (inside before code behind) := fun h => by
        have hat : st.last + 1 = before.length := h
        omega
      rw [Stretch.carriedEnd_of_not hmodule hlines, hplace]
      exact locateIndex_behind_of_line_le file hcode (hplace ▸ hline)

end

end Attribution

/-! ## Stretches are carried back -/

namespace Stretch

open Dispatch (Attached)

variable {before code behind : List Char}

/-- The image of a stretch ends on another line than it starts. -/
theorem lineStart_image_ne (hcode : OneLine code) (st : Stretch (before ++ behind))
    (isPrimary : Bool) (label : Option (List Char)) :
    (st.image (.inside before code behind) isPrimary label).lineStart ≠
      (st.image (.inside before code behind) isPrimary label).lineEnd := by
  have htext : (Attached.inside before code behind).text = before ++ (code ++ ' ' :: behind) :=
    List.append_assoc _ _ _
  have hlength : (code ++ [' ']).length = code.length + 1 := by simp
  -- A place in front of the code, and one behind it, is on the line that it has in the source.
  have hfront : ∀ j ≤ before.length, (Position.ofIndex (before ++ (code ++ ' ' :: behind)) j).line =
      (Position.ofIndex (before ++ behind) j).line := fun j hj => by
    rw [Position.ofIndex_append_of_le hj, Position.ofIndex_append_of_le hj]
  have hbehind : ∀ j, before.length ≤ j →
      (Position.ofIndex (before ++ (code ++ ' ' :: behind)) (j + (code ++ [' ']).length)).line =
        (Position.ofIndex (before ++ behind) j).line := fun j hj => by
    obtain ⟨k, rfl⟩ := Nat.exists_eq_add_of_le hj
    rw [← Attribution.line_ofIndex_behind hcode k, hlength]
    congr 2
    omega
  -- So the image starts on the line where the stretch starts, and ends on the line where it ends.
  have hstart : (st.image (.inside before code behind) isPrimary label).lineStart =
      (Position.ofIndex (before ++ behind) st.first).line := by
    rw [image, htext]
    by_cases hlt : st.first < before.length
    · exact (congrArg _ (congrArg _ (if_pos hlt))).trans (hfront _ (by omega))
    · exact (congrArg _ (congrArg _ (if_neg hlt))).trans (hbehind _ (by omega))
  have hend : (st.image (.inside before code behind) isPrimary label).lineEnd =
      (Position.ofIndex (before ++ behind) (st.last + 1)).line := by
    rw [image, htext]
    by_cases hlt : st.last < before.length
    · have hindex : (Attached.inside before code behind).indexOf st.last + 1 = st.last + 1 :=
        congrArg (· + 1) (if_pos hlt)
      dsimp only
      rw [hindex]
      exact hfront _ (by omega)
    · have hindex : (Attached.inside before code behind).indexOf st.last + 1 =
          st.last + 1 + (code ++ [' ']).length := by
        have hmoved : (Attached.inside before code behind).indexOf st.last =
            st.last + (code ++ [' ']).length := if_neg hlt
        omega
      dsimp only
      rw [hindex]
      exact hbehind _ (by omega)
  rw [hstart, hend]
  exact Nat.ne_of_lt st.line_lt

/-- The image of a stretch is carried back to the stretch, apart from its end where the module or
the end of the source comes next. -/
theorem span_image (hcode : OneLine code) (file : String) (st : Stretch (before ++ behind))
    (isPrimary : Bool) (label : Option (List Char)) :
    (Attribution.ofSource file (before ++ behind) (Attached.inside before code behind).region).span
        (st.image (.inside before code behind) isPrimary label) =
      { st.span file isPrimary label with
        endLocation := some (st.carriedEnd (.inside before code behind) file) } := by
  have htext : (Attached.inside before code behind).text = before ++ (code ++ ' ' :: behind) :=
    List.append_assoc _ _ _
  have hfirst : st.first < (before ++ behind).length :=
    Nat.lt_of_le_of_lt st.first_le_last st.last_lt_length
  have hstart := (Dispatch.survives_inside hcode file before behind).locate_source st.first hfirst
  have hend := Attribution.locateIndex_end file hcode st
  rw [← htext] at hend
  unfold Attribution.span
  rw [if_neg (lineStart_image_ne hcode st isPrimary label)]
  exact Span.mk.injEq .. ▸ ⟨hstart, congrArg some hend, rfl, rfl⟩

end Stretch

namespace Dispatch

section

variable {u : SourceUnit} {d : Dispatch} {source : List Char} {region : Text.Region}

/-- In a unit with a module inside of a line, stretches are carried back. -/
theorem span_image_attach (h : generate u = .ok d) (file : String)
    (hregion : (d.attach source).region = some region) (st : Stretch source) (isPrimary : Bool)
    (label : Option (List Char)) :
    (Attribution.ofSource file source (d.attach source).region).span
        (st.image (d.attach source) isPrimary label) =
      { st.span file isPrimary label with
        endLocation := some (st.carriedEnd (d.attach source) file) } := by
  have hcode := oneLine_code_of_generate h
  obtain hbehind | ⟨before, behind, rfl, hinside⟩ := attach_cases d source
  · -- A module behind the source has no region.
    rw [hbehind] at hregion
    contradiction
  · rw [hinside]
    exact Stretch.span_image hcode file st isPrimary label

/-- **Stretches over several lines are carried back.** In every unit with a module inside of a line,
a stretch of the source that the compiler reports where it is in the whole text is shown with its
start and its end in the source. Only the end of a stretch that the module follows, or that ends
behind all lines of the source, is shown at the start of the generated code. -/
theorem carried_back (h : generate u = .ok d) (file : String)
    (hregion : (d.attach source).region = some region) (st : Stretch source) {r : Report}
    {level : Severity} (hlevel : Severity.ofLevel? r.level = some level) {k : Nat}
    {isPrimary : Bool} {label : Option (List Char)}
    (hspan : r.spans[k]? = some (st.image (d.attach source) isPrimary label)) :
    ∃ diagnostic,
      (Attribution.ofSource file source (d.attach source).region).diagnostic? r = some diagnostic ∧
        diagnostic.spans[k]? = some { st.span file isPrimary label with
          endLocation := some (st.carriedEnd (d.attach source) file) } := by
  refine ⟨_, by rw [Attribution.diagnostic?, hlevel]; rfl, ?_⟩
  dsimp only
  rw [List.getElem?_map, hspan]
  exact congrArg some (span_image_attach h file hregion st isPrimary label)

end

/-- A unit whose type is declared over two lines, up to the closing brace of its module. -/
def bracedUnit : SourceUnit := ⟨"p::A", "mod p \x7b\n    pub struct A(\n        u8);\x7d\n"⟩

/-- Where the dispatch module of `bracedUnit` goes. -/
theorem attach_bracedUnit :
    ∃ d, generate bracedUnit = .ok d ∧
      (d.attach bracedUnit.source.toList).region.map (·.column) = some 13 ∧
      (d.attach bracedUnit.source.toList).before.length = 38 := by
  have hplace : (generate bracedUnit).toOption.map (fun d =>
      ((d.attach bracedUnit.source.toList).region.map (·.column),
        (d.attach bracedUnit.source.toList).before.length)) = some (some 13, 38) := by
    decide +kernel
  obtain ⟨d, hd, hpair⟩ := exists_of_map_generate hplace
  exact ⟨d, hd, Prod.mk.inj hpair⟩

/-- The declaration of `bracedUnit`, without the brace behind it. -/
def declaration : Stretch bracedUnit.source.toList :=
  ⟨12, 37, by decide, by decide +kernel, by decide +kernel⟩

/-- The declaration of `bracedUnit` and the brace behind it. -/
def declarationAndBrace : Stretch bracedUnit.source.toList :=
  ⟨12, 38, by decide, by decide +kernel, by decide +kernel⟩

/-- A stretch that takes in the brace of the module is carried back with both of its ends. -/
theorem carried_back_declarationAndBrace :
    ∃ d r diagnostic, generate bracedUnit = .ok d ∧
      (d.attach bracedUnit.source.toList).region.isSome = true ∧
      r.spans = [declarationAndBrace.image (d.attach bracedUnit.source.toList) true none] ∧
      (Attribution.ofSource "memory:///p/A.rs" bracedUnit.source.toList
        (d.attach bracedUnit.source.toList).region).diagnostic? r = some diagnostic ∧
      diagnostic.spans[0]? = some
        ⟨⟨"memory:///p/A.rs", 2, 5⟩, some ⟨"memory:///p/A.rs", 3, 14⟩, none, true⟩ := by
  obtain ⟨d, hd, hcolumn, hbefore⟩ := attach_bracedUnit
  obtain ⟨region, hregion, -⟩ := Option.map_eq_some_iff.1 hcolumn
  have hlevel : Severity.ofLevel? "error".toList = some .error := by decide +kernel
  obtain ⟨diagnostic, hshown, hspan⟩ := carried_back hd "memory:///p/A.rs" hregion
    declarationAndBrace (r := ⟨"unused".toList, none, "error".toList,
      [declarationAndBrace.image (d.attach bracedUnit.source.toList) true none], none⟩)
    hlevel (k := 0) rfl
  have hmodule : ¬ declarationAndBrace.EndsAtModule (d.attach bracedUnit.source.toList) :=
    fun h => absurd (h.trans hbefore) (by decide)
  have hend := Stretch.carriedEnd_of_not hmodule (by decide +kernel) "memory:///p/A.rs"
  refine ⟨d, _, diagnostic, hd, by rw [hregion]; rfl, rfl, hshown, ?_⟩
  rw [hspan, hend]
  decide +kernel

/-- The end of the declaration itself, in front of the brace, is shown in the generated code and not
where it is in the source. -/
theorem span_image_declaration :
    ∃ d, generate bracedUnit = .ok d ∧
      (d.attach bracedUnit.source.toList).region.isSome = true ∧
      (declaration.span "memory:///p/A.rs" true none).endLocation =
        some ⟨"memory:///p/A.rs", 3, 13⟩ ∧
      ((Attribution.ofSource "memory:///p/A.rs" bracedUnit.source.toList
        (d.attach bracedUnit.source.toList).region).span
          (declaration.image (d.attach bracedUnit.source.toList) true none)).endLocation =
        some ⟨"<hotload shim>", 1, 1⟩ := by
  obtain ⟨d, hd, hcolumn, hbefore⟩ := attach_bracedUnit
  obtain ⟨region, hregion, -⟩ := Option.map_eq_some_iff.1 hcolumn
  have hmodule : declaration.EndsAtModule (d.attach bracedUnit.source.toList) := hbefore.symm
  refine ⟨d, hd, by rw [hregion]; rfl, by decide +kernel, ?_⟩
  rw [span_image_attach hd "memory:///p/A.rs" hregion, Stretch.carriedEnd_of_endsAtModule hmodule]
  rfl

end Dispatch

end UnitLoader
