/-!
# Replacement

`replace` exchanges every occurrence of a pattern, found from left to right and without overlap.
-/

namespace UnitLoader.Text

/-- Replaces the pattern in a text of which the first `skip` characters belong to an occurrence
that is already replaced. -/
def replaceFrom (pattern replacement : List Char) : Nat → List Char → List Char
  | _, [] => []
  | skip + 1, _ :: rest => replaceFrom pattern replacement skip rest
  | 0, c :: rest =>
    if pattern.isPrefixOf (c :: rest) then
      replacement ++ replaceFrom pattern replacement (pattern.length - 1) rest
    else c :: replaceFrom pattern replacement 0 rest

/-- Replaces every occurrence of a nonempty pattern. -/
def replace (pattern replacement text : List Char) : List Char :=
  replaceFrom pattern replacement 0 text

/-- Cuts a text at every occurrence of a separator; `skip` characters still belong to the
occurrence in front. -/
def splitOnFrom (separator : List Char) : Nat → List Char → List (List Char)
  | _, [] => [[]]
  | skip + 1, _ :: rest => splitOnFrom separator skip rest
  | 0, c :: rest =>
    if separator.isPrefixOf (c :: rest) then
      [] :: splitOnFrom separator (separator.length - 1) rest
    else match splitOnFrom separator 0 rest with
      | [] => [[c]]
      | first :: others => (c :: first) :: others

/-- The pieces of a text between the occurrences of a nonempty separator. -/
def splitOn (separator text : List Char) : List (List Char) :=
  splitOnFrom separator 0 text

/-- The texts one after the other with a separator between neighbours. -/
def join (separator : List Char) : List (List Char) → List Char
  | [] => []
  | [text] => text
  | text :: others => text ++ separator ++ join separator others

end UnitLoader.Text
