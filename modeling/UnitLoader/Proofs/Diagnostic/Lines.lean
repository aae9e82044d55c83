import Mathlib.Data.List.TakeWhile
import UnitLoader.Diagnostic.Attribution
import UnitLoader.Proofs.Json.Blank
import UnitLoader.Proofs.Text.Places

/-!
# The lines of the compiler's output

What the lines of a text hold does not depend on how they end. A carriage return in front of a line
feed is no part of the line, and one at the end of the text is, but it is a blank behind the value
that the line holds, so the same message is read (`Report.ofLine?_append_return`). Hence an output
may be cut at any line feed (`diagnostics_append_newline`).
-/

namespace UnitLoader

open Json (Reader)
open Json.Reader

/-! ## The reader of a message takes usable lexemes -/

/-- So does one that puts what it reads into something else. -/
theorem passes_return {α β : Type} {r : Reader α} (h : Passes r) (g : α → β) :
    Passes (do return g (← r)) := h.bind fun a => passes_pure (g a)

theorem ReportSpan.passes_reader : Passes ReportSpan.reader := by
  refine (passes_record ?_).bind fun held => ?_
  · simp only [List.forall_mem_cons]
    refine ⟨fun s => passes_return (passes_natural _) _,
      fun s => passes_return (passes_natural _) _,
      fun s => passes_return (passes_natural _) _,
      fun s => passes_return (passes_natural _) _,
      fun s => passes_return passes_boolean _,
      fun s => passes_return (passes_optional passes_text) _, fun _ h => absurd h List.not_mem_nil⟩
  · refine (passes_required _).bind fun lineStart => (passes_required _).bind fun lineEnd => ?_
    refine (passes_required _).bind fun columnStart => (passes_required _).bind fun columnEnd => ?_
    exact (passes_required _).bind fun isPrimary => passes_pure _

theorem Report.passes_codeReader : Passes Report.codeReader := by
  refine (passes_record ?_).bind fun held => passes_required held
  intro field hfield held
  obtain rfl := List.mem_singleton.1 hfield
  exact passes_text.map some

theorem Report.passes_reader : Passes Report.reader := by
  refine (passes_record ?_).bind fun held => ?_
  · simp only [List.forall_mem_cons]
    exact ⟨fun s => passes_return passes_text _,
      fun s => passes_return (passes_optional passes_codeReader) _,
      fun s => passes_return passes_text _,
      fun s => passes_return (passes_array ReportSpan.passes_reader) _,
      fun s => passes_return (passes_optional passes_text) _, fun _ h => absurd h List.not_mem_nil⟩
  · refine (passes_required _).bind fun message => (passes_required _).bind fun level => ?_
    exact (passes_required _).bind fun spans => passes_pure _

/-! ## A carriage return behind a line -/

/-- It is a blank behind the message that the line holds. -/
theorem Report.ofLine?_append_return (line : List Char) :
    Report.ofLine? (line ++ ['\r']) = Report.ofLine? line := by
  have hencode : Text.Utf8.encode (line ++ ['\r']) = Text.Utf8.encode line ++ [13] :=
    Text.Utf8.encode_append line ['\r']
  have hrun (report : Report) : Report.reader.run (Text.Utf8.encode line ++ [13]) = .ok report ↔
      Report.reader.run (Text.Utf8.encode line) = .ok report :=
    Json.run_append_blank passes_reader rfl
  unfold Report.ofLine?
  rw [hencode]
  cases hshort : Report.reader.run (Text.Utf8.encode line) with
  | ok report => rw [(hrun report).2 hshort]
  | error fault =>
    cases hlong : Report.reader.run (Text.Utf8.encode line ++ [13]) with
    | ok report =>
      rw [(hrun report).1 hlong] at hshort
      contradiction
    | error fault => rfl

namespace Text

/-- Nothing is left of a text without the white space at its ends if there is nothing else. -/
theorem isEmpty_trim (text : List Char) : (trim text).isEmpty = text.all Charset.isWhitespace := by
  rw [Bool.eq_iff_iff, List.isEmpty_iff, trim, List.reverse_eq_nil_iff, List.dropWhile_eq_nil_iff,
    List.all_eq_true]
  simp only [List.mem_reverse]
  refine ⟨fun h c hc => ?_, fun h c hc => h c ((List.dropWhile_sublist _).subset hc)⟩
  rw [← List.takeWhile_append_dropWhile (p := Charset.isWhitespace) (l := text)] at hc
  exact (List.mem_append.1 hc).elim List.mem_takeWhile_imp (h c)

/-- A carriage return is white space. -/
theorem isEmpty_trim_append_return (line : List Char) :
    (trim (line ++ ['\r'])).isEmpty = (trim line).isEmpty := by
  rw [isEmpty_trim, isEmpty_trim, List.all_append]
  exact Bool.and_true _

end Text

open Text (fields lines)

namespace Attribution

/-- So whether a line holds a diagnostic, and which one, is not up to it. -/
theorem ofLine?_append_return (a : Attribution) (line : List Char) :
    a.ofLine? (line ++ ['\r']) = a.ofLine? line := by
  unfold ofLine?
  rw [Text.isEmpty_trim_append_return, Report.ofLine?_append_return]

/-- A line holds the same with the carriage return that ends it and without. -/
theorem ofLine?_dropReturn (a : Attribution) (line : List Char) :
    a.ofLine? (Text.dropReturn line) = a.ofLine? line := by
  unfold Text.dropReturn
  split
  · rename_i hlast
    obtain ⟨front, rfl⟩ := List.getLast?_eq_some_iff.1 hlast
    rw [List.dropLast_concat, ofLine?_append_return]
  · rfl

/-- An output is read field by field. -/
theorem diagnostics_eq (a : Attribution) (output : List Char) :
    a.diagnostics output = (fields output).filterMap a.ofLine? := by
  unfold diagnostics lines
  fun_induction Text.linesOfFields (fields output)
  case case1 => rfl
  case case2 last hlast =>
    rw [List.isEmpty_iff.1 hlast]
    rfl
  case case3 last hlast => rfl
  case case4 line others hothers ih =>
    rw [List.filterMap_cons, List.filterMap_cons, a.ofLine?_dropReturn, ih]

/-- **The compiler's output is read line by line without interference.** It may be cut at any line
feed, so what the lines in front of it hold stays the same, whatever stands behind it, and the other
way round. It holds what its fields hold, each by itself and in their order, and a carriage return
behind a line does not change what the line holds. -/
theorem diagnostics_append_newline (a : Attribution) :
    (∀ first second,
      a.diagnostics (first ++ '\n' :: second) = a.diagnostics first ++ a.diagnostics second) ∧
    (∀ output, a.diagnostics output = (fields output).filterMap a.ofLine?) ∧
    ∀ line, a.ofLine? (line ++ ['\r']) = a.ofLine? line := by
  refine ⟨fun first second => ?_, a.diagnostics_eq, a.ofLine?_append_return⟩
  rw [diagnostics_eq, Text.fields_append, List.filterMap_append, ← diagnostics_eq,
    ← diagnostics_eq]

/-- A warning as the compiler writes it. -/
def warned (message : String) : String :=
  "\x7b\"message\":\"" ++ message ++ "\",\"level\":\"warning\",\"spans\":[]\x7d"

/-- A warning stands between lines that hold no message, and one that was cut off follows. -/
theorem diagnostics_append_newline_noisy :
    let a : Attribution := ⟨"memory:///A.rs", 1, none⟩
    a.diagnostics ("Compiling\n\n" ++ warned "first" ++ "\r\nnoise\n" ++ warned "second" ++
        "\n\x7b\"message\":\"cut").toList =
      [⟨"first", none, .warning, none, [], none⟩, ⟨"second", none, .warning, none, [], none⟩] := by
  intro a
  have hcut : ("Compiling\n\n" ++ warned "first" ++ "\r\nnoise\n" ++ warned "second" ++
      "\n\x7b\"message\":\"cut").toList =
      ("Compiling\n\n" ++ warned "first" ++ "\r").toList ++
        '\n' :: ("noise\n" ++ warned "second" ++ "\n\x7b\"message\":\"cut").toList := by
    decide +kernel
  rw [hcut, (diagnostics_append_newline a).1]
  decide +kernel

end Attribution

end UnitLoader
