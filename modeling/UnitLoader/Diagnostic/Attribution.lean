import UnitLoader.Diagnostic.Report
import UnitLoader.Text.Lines
import UnitLoader.Text.Number
import UnitLoader.Text.Region

/-!
# Attribution

What is compiled is a unit's source with generated code in it. An `Attribution` knows where that
code stands and carries places in the compiled text back to the source or to the generated code:
code put behind the source has all lines past the source's own, code put inside a line has a
region of that line.
-/

namespace UnitLoader

open UnitLoader.Text (Region)

/-- Where the lines of a compiled text come from. -/
structure Attribution where
  /-- The name of the unit's virtual file. -/
  file : String
  /-- The number of lines of the unit's source. -/
  sourceLines : Nat
  /-- The stretch of generated code inside a line of the source. -/
  inlineRegion : Option Region

namespace Attribution

/-- The attribution for a source text. -/
def ofSource (file : String) (source : List Char) (inlineRegion : Option Region) : Attribution :=
  ⟨file, (Text.lines source).length, inlineRegion⟩

/-- A place outside the line that holds a region. -/
def locateByLine (a : Attribution) (line column : Nat) : Location :=
  if line ≤ a.sourceLines then ⟨a.file, line, column⟩
  else ⟨Location.dispatchFile, line - a.sourceLines, column⟩

/-- The place in the source or in the generated code that a place in the compiled text stands
for. -/
def locate (a : Attribution) (line column : Nat) : Location :=
  match a.inlineRegion with
  | none => a.locateByLine line column
  | some region =>
    if region.line = line ∧ region.column ≤ column then
      if column < region.end then
        ⟨Location.dispatchFile, 1, column - region.column + 1⟩
      else ⟨a.file, line, column - region.width⟩
    else a.locateByLine line column

/-- A reported span in terms of the source. -/
def span (a : Attribution) (s : ReportSpan) : Span where
  location := a.locate s.lineStart s.columnStart
  endLocation :=
    if s.lineStart = s.lineEnd then none else some (a.locate s.lineEnd s.columnEnd)
  label := s.label.map String.ofList
  isPrimary := s.isPrimary

/-- A report in terms of the source; `none` for a level that is not shown. -/
def diagnostic? (a : Attribution) (r : Report) : Option Diagnostic :=
  (Severity.ofLevel? r.level).map fun level =>
    { message := String.ofList r.message
      code := r.code.map String.ofList
      level
      location := (r.spans.find? (·.isPrimary)).map fun s => a.locate s.lineStart s.columnStart
      spans := r.spans.map a.span
      rendered := r.rendered.map String.ofList }

/-- The diagnostic in a line of a compiler's error output, if it holds one. A blank line is not
read. -/
def ofLine? (a : Attribution) (line : List Char) : Option Diagnostic :=
  if (Text.trim line).isEmpty then none else (Report.ofLine? line).bind a.diagnostic?

/-- The diagnostics in a compiler's error output. Each line is read by itself, and a line that
holds no message is passed over. -/
def diagnostics (a : Attribution) (output : List Char) : List Diagnostic :=
  (Text.lines output).filterMap a.ofLine?

end Attribution

end UnitLoader
