import UnitLoader.Text.Position
import UnitLoader.Text.Utf8

/-!
# Slices of a text

A text is sliced at byte offsets, which fails past its end and inside of a character.
`Position.searchOffset?` looks for a place by slicing a text where its line starts, as
`Position.byteOffset?` finds it going through the text.
-/

namespace UnitLoader.Text

/-- What stands behind a number of bytes of a text; `none` past its end and inside of a
character. -/
def sliceFrom? (offset : Nat) (text : List Char) : Option (List Char) :=
  if offset ≤ byteLength text then (Utf8.decode ((Utf8.encode text).drop offset)).toOption
  else none

/-- What stands between two offsets of a text; `none` if one is no boundary or if they are in the
wrong order. -/
def slice? (start stop : Nat) (text : List Char) : Option (List Char) :=
  match sliceFrom? start text, sliceFrom? stop text with
  | some tail, some behind =>
    if start ≤ stop then some (tail.take (tail.length - behind.length)) else none
  | _, _ => none

/-- The offset at which a pattern first occurs in a text. -/
def occurrence? (pattern : List Char) : List Char → Option Nat
  | [] => if pattern.isEmpty then some 0 else none
  | c :: rest =>
    if pattern.isPrefixOf (c :: rest) then some 0
    else (occurrence? pattern rest).map (c.utf8Size + ·)

/-! ## Searching line by line -/

/-- The characters of a text with their byte offsets, of which the first is `offset`. -/
def charOffsetsFrom (offset : Nat) : List Char → List (Nat × Char)
  | [] => []
  | c :: rest => (offset, c) :: charOffsetsFrom (offset + c.utf8Size) rest

/-- The byte offset at which a line starts: behind the last of the line feeds in front of it. -/
def lineStart? (text : List Char) : (line : Nat) → Option Nat
  | 0 => none
  | 1 => some 0
  | n + 2 =>
    ((charOffsetsFrom 0 text).filter fun (_, c) => c == '\n')[n]?.map fun (offset, _) => offset + 1

/-- Searches the byte offset of a position: the text is sliced where the line starts, and the
characters of the line are counted. The outer `none` stands for a slice that fails. -/
def Position.searchOffset? (target : Position) (text : List Char) : Option (Option Nat) :=
  match lineStart? text target.line with
  | none => some none
  | some offset =>
    (sliceFrom? offset text).map fun rest =>
      (charOffsetsFrom 0 (rest.takeWhile (· ≠ '\n')))[target.column]?.map fun (within, _) =>
        offset + within

end UnitLoader.Text
