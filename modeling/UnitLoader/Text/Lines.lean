/-!
# Lines

Two ways to see a text as lines: `fields` cuts it at every line feed, `lines` gives what a reader
calls its lines, without line endings and without an empty line after the last ending.
-/

namespace UnitLoader.Text

/-- The pieces of a text between its line feeds; there is always at least one. -/
def fields : List Char → List (List Char)
  | [] => [[]]
  | c :: rest =>
    if c = '\n' then [] :: fields rest
    else match fields rest with
      | [] => [[c]]
      | first :: others => (c :: first) :: others

/-- A line without the carriage return that ends it. -/
def dropReturn (line : List Char) : List Char :=
  if line.getLast? = some '\r' then line.dropLast else line

/-- The lines of a cut text: every piece but the last was ended by a line feed and loses a carriage
return before it; the last one counts only if it holds a character. -/
def linesOfFields : List (List Char) → List (List Char)
  | [] => []
  | [last] => if last.isEmpty then [] else [last]
  | line :: others => dropReturn line :: linesOfFields others

/-- The lines of a text. -/
def lines (text : List Char) : List (List Char) :=
  linesOfFields (fields text)

/-- A text behind which a new line starts: it is empty or gets a line feed at its end, unless it has
one. -/
def completeLine (text : List Char) : List Char :=
  match text.getLast? with
  | none => text
  | some '\n' => text
  | some _ => text ++ ['\n']

end UnitLoader.Text
