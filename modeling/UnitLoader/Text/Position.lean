/-!
# Positions in a text

A position is a line and a column. Both count characters; a line ends at a line feed and nowhere
else. `Position.split?` cuts a text at the character that stands at a position.
-/

namespace UnitLoader.Text

/-- A place in a text. Lines count from one and columns from zero. -/
structure Position where
  /-- The number of the line, one for the first. -/
  line : Nat
  /-- The number of characters before the place on its line. -/
  column : Nat
  deriving DecidableEq, Repr

namespace Position

/-- The place of the first character of a text. -/
def start : Position := ⟨1, 0⟩

/-- The place behind a character that stands at `p`. -/
def after (p : Position) (c : Char) : Position :=
  if c = '\n' then ⟨p.line + 1, 0⟩ else ⟨p.line, p.column + 1⟩

/-- The place behind a stretch of text that starts at `p`. -/
def afterAll (p : Position) (text : List Char) : Position :=
  text.foldl after p

/-- Cuts a text, whose first character stands at `here`, in front of the character at `target`.
A line feed stands at no position, so a place past the end of its line cuts nothing. -/
def splitFrom? (target : Position) : Position → List Char → Option (List Char × List Char)
  | _, [] => none
  | here, c :: rest =>
    if c ≠ '\n' ∧ here = target then some ([], c :: rest)
    else (splitFrom? target (here.after c) rest).map fun (before, behind) => (c :: before, behind)

/-- Cuts a text in front of the character at `target`. -/
def split? (target : Position) (text : List Char) : Option (List Char × List Char) :=
  splitFrom? target start text

end Position

/-- The number of bytes that a text takes in UTF-8. -/
def byteLength (text : List Char) : Nat :=
  text.foldr (fun c total => c.utf8Size + total) 0

/-- The number of bytes in front of the character at a position. -/
def Position.byteOffset? (target : Position) (text : List Char) : Option Nat :=
  (target.split? text).map fun (before, _) => byteLength before

end UnitLoader.Text
