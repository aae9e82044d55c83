import UnitLoader.Diagnostic.Basic
import UnitLoader.Json.Reader

/-!
# The compiler's reports

A compiler reports one message per line of its error output, as a JSON record. Places in it count
lines and columns of the text that was compiled.
-/

namespace UnitLoader

open Json (Reader)

/-- A span as the compiler reports it. -/
structure ReportSpan where
  lineStart : Nat
  lineEnd : Nat
  columnStart : Nat
  columnEnd : Nat
  isPrimary : Bool
  label : Option (List Char)
  deriving DecidableEq, Repr

/-- A message as the compiler reports it. -/
structure Report where
  message : List Char
  code : Option (List Char)
  level : List Char
  spans : List ReportSpan
  rendered : Option (List Char)
  deriving DecidableEq, Repr

/-- The largest number that a place can hold. -/
def placeBound : Nat := UInt64.size - 1

/-- The fields of a span that were read so far. -/
structure PartialSpan where
  lineStart : Option Nat
  lineEnd : Option Nat
  columnStart : Option Nat
  columnEnd : Option Nat
  isPrimary : Option Bool
  label : Option (Option (List Char))

/-- Reads a span. -/
def ReportSpan.reader : Reader ReportSpan := do
  let held ← Reader.record (σ := PartialSpan)
    ⟨⟨none, none, none, none, none, none⟩,
      [("line_start", (·.lineStart.isSome),
          fun s => return { s with lineStart := some (← Reader.natural placeBound) }),
        ("line_end", (·.lineEnd.isSome),
          fun s => return { s with lineEnd := some (← Reader.natural placeBound) }),
        ("column_start", (·.columnStart.isSome),
          fun s => return { s with columnStart := some (← Reader.natural placeBound) }),
        ("column_end", (·.columnEnd.isSome),
          fun s => return { s with columnEnd := some (← Reader.natural placeBound) }),
        ("is_primary", (·.isPrimary.isSome),
          fun s => return { s with isPrimary := some (← Reader.boolean) }),
        ("label", (·.label.isSome),
          fun s => return { s with label := some (← Reader.optional Reader.text) })]⟩
  return {
    lineStart := ← Reader.required held.lineStart
    lineEnd := ← Reader.required held.lineEnd
    columnStart := ← Reader.required held.columnStart
    columnEnd := ← Reader.required held.columnEnd
    isPrimary := ← Reader.required held.isPrimary
    label := held.label.join }

/-- Reads the record that holds the code of a message. -/
def Report.codeReader : Reader (List Char) := do
  let held ← Reader.record (σ := Option (List Char))
    ⟨none, [("code", (·.isSome), fun _ => some <$> Reader.text)]⟩
  Reader.required held

/-- The fields of a message that were read so far. -/
structure PartialReport where
  message : Option (List Char)
  code : Option (Option (List Char))
  level : Option (List Char)
  spans : Option (List ReportSpan)
  rendered : Option (Option (List Char))

/-- Reads a message. -/
def Report.reader : Reader Report := do
  let held ← Reader.record (σ := PartialReport)
    ⟨⟨none, none, none, none, none⟩,
      [("message", (·.message.isSome),
          fun s => return { s with message := some (← Reader.text) }),
        ("code", (·.code.isSome),
          fun s => return { s with code := some (← Reader.optional Report.codeReader) }),
        ("level", (·.level.isSome),
          fun s => return { s with level := some (← Reader.text) }),
        ("spans", (·.spans.isSome),
          fun s => return { s with spans := some (← Reader.array ReportSpan.reader) }),
        ("rendered", (·.rendered.isSome),
          fun s => return { s with rendered := some (← Reader.optional Reader.text) })]⟩
  return {
    message := ← Reader.required held.message
    code := held.code.join
    level := ← Reader.required held.level
    spans := ← Reader.required held.spans
    rendered := held.rendered.join }

/-- Reads one line of the compiler's error output; a line that is no message gives nothing. -/
def Report.ofLine? (line : List Char) : Option Report :=
  match Report.reader.run (Text.Utf8.encode line) with
  | .ok report => some report
  | .error _ => none

/-- The severity that a compiler calls by a name. Messages of other levels are not shown. -/
def Severity.ofLevel? (level : List Char) : Option Severity :=
  match String.ofList level with
  | "error" => some .error
  | "error: internal compiler error" => some .error
  | "warning" => some .warning
  | "note" => some .note
  | "failure-note" => some .note
  | "help" => some .help
  | _ => none

end UnitLoader
