import UnitLoader.Syntax.Literal
import UnitLoader.Syntax.Token
import UnitLoader.Text.Quoted

/-!
# Reading token trees

`tokenTrees?` reads a source text as token trees. It fails where a lexeme is broken or delimiters
do not match. Comments and blanks are dropped; a documentation comment becomes the attribute it
stands for. `fileTrees?` does the same for a whole file, which may start with a byte order mark
and a line that names an interpreter.
-/

namespace UnitLoader.Syntax

open UnitLoader.Text

/-- What stands at a place of a text. -/
inductive Lexeme where
  /-- A blank or a comment. -/
  | gap
  /-- A documentation comment on what encloses it (`inner`) or on what follows it. -/
  | documentation (inner : Bool) (text : List Char)
  /-- An opening delimiter. -/
  | opening (delimiter : Delimiter)
  /-- A closing delimiter. -/
  | closing (delimiter : Delimiter)
  /-- A token. -/
  | token (t : Token)
  deriving Repr

/-- A character that separates tokens. -/
def isBlank (c : Char) : Bool :=
  Charset.isWhitespace c || c == '\u200e' || c == '\u200f'

/-- The length of a block comment behind its opening, with `depth` comments open around the
innermost one; `none` if it does not end. -/
def commentLength? : Nat → List Char → Option Nat
  | _, [] => none
  | depth, '/' :: '*' :: rest => (commentLength? (depth + 1) rest).map (· + 2)
  | 0, '*' :: '/' :: _ => some 2
  | depth + 1, '*' :: '/' :: rest => (commentLength? depth rest).map (· + 2)
  | depth, _ :: rest => (commentLength? depth rest).map (· + 1)

/-- Every carriage return is followed by a line feed. -/
def returnsPaired : List Char → Bool
  | [] => true
  | '\r' :: rest => rest.head? == some '\n' && returnsPaired rest
  | _ :: rest => returnsPaired rest

/-- The text of a line comment: the line up to its ending. -/
def lineText (rest : List Char) : List Char :=
  let line := rest.takeWhile (· != '\n')
  if line.length < rest.length && line.getLast? == some '\r' then line.dropLast else line

/-- A documentation comment that starts with `lead` characters and takes `length` in all. -/
def documentationOf? (inner : Bool) (text : List Char) (length : Nat) : Option (Lexeme × Nat) :=
  if returnsPaired text then some (.documentation inner text, length) else none

/-- A line comment behind its two slashes. -/
def lineComment? (rest : List Char) : Option (Lexeme × Nat) :=
  let length := 2 + (rest.takeWhile (· != '\n')).length
  match rest with
  | '!' :: text => documentationOf? true (lineText text) length
  -- Four slashes document nothing.
  | '/' :: '/' :: _ => some (.gap, length)
  | '/' :: text => documentationOf? false (lineText text) length
  | _ => some (.gap, length)

/-- A block comment behind its opening. -/
def blockComment? (rest : List Char) : Option (Lexeme × Nat) :=
  match commentLength? 0 rest with
  | none => none
  | some n =>
    let body := rest.take (n - 2)
    match body with
    | '!' :: text => documentationOf? true text (n + 2)
    -- Nor do two stars, or one with nothing behind it.
    | ['*'] => some (.gap, n + 2)
    | '*' :: '*' :: _ => some (.gap, n + 2)
    | '*' :: text => documentationOf? false text (n + 2)
    | _ => some (.gap, n + 2)

/-- A punctuation character. -/
def isMark (c : Char) : Bool := "~!@#$%^&*-=+|;:,<.>/?'".toList.contains c

/-- A text starts with a mark that is not the start of a comment. -/
def startsMark : List Char → Bool
  | '/' :: '/' :: _ => false
  | '/' :: '*' :: _ => false
  | c :: _ => isMark c
  | [] => false

/-- The words that cannot be raw identifiers. -/
def isReservedRaw (name : String) : Bool :=
  name == "_" || name == "super" || name == "self" || name == "Self" || name == "crate"

/-- The word at the start of a text, and its length. -/
def word? (text : List Char) : Option (Name × Nat) :=
  match text with
  | 'r' :: '#' :: rest =>
    match nameAt? rest true with
    | none => none
    | some name => if isReservedRaw name.text then none else some (name, nameLength rest + 2)
  | _ => (nameAt? text false).map fun name => (name, nameLength text)

/-- A text starts like a literal that is broken. -/
def startsLiteral : List Char → Bool
  | 'r' :: '"' :: _ | 'r' :: '#' :: '"' :: _ | 'r' :: '#' :: '#' :: _
  | 'b' :: '"' :: _ | 'b' :: '\'' :: _ | 'b' :: 'r' :: '"' :: _ | 'b' :: 'r' :: '#' :: _
  | 'c' :: '"' :: _ | 'c' :: 'r' :: '"' :: _ | 'c' :: 'r' :: '#' :: _ => true
  | _ => false

/-- An apostrophe, which starts a lifetime: a word has to follow it, and neither a second
apostrophe nor a hash sign may follow a word that is not raw. -/
def apostrophe? (rest : List Char) : Option (Lexeme × Nat) :=
  match word? rest with
  | none => none
  | some (name, n) =>
    match rest.drop n with
    | '\'' :: _ => none
    | '#' :: _ => if name.raw then some (.token (.mark '\'' true), 1) else none
    | _ => some (.token (.mark '\'' true), 1)

/-- A literal, a mark or a word. -/
def leaf? (text : List Char) : Option (Lexeme × Nat) :=
  match literalLength? text with
  | some n => some (.token (.literal (String.ofList (text.take n))), n)
  | none =>
    match text with
    | '\'' :: rest => apostrophe? rest
    | c :: rest =>
      -- A mark is joint if another one follows at once.
      if startsMark text then some (.token (.mark c (startsMark rest)), 1)
      else if startsLiteral text then none
      else (word? text).map fun (name, n) => (.token (.word name), n)
    | [] => none

/-- What a compiler writes in the place of an expression that it could not expand. It counts as a
literal. -/
def failedExpansion : String := "(/*ERROR*/)"

/-- The lexeme at the start of a nonempty text, and its length; `none` if it is broken. -/
def lexeme? (text : List Char) : Option (Lexeme × Nat) :=
  if failedExpansion.toList.isPrefixOf text then
    some (.token (.literal failedExpansion), failedExpansion.length)
  else match text with
  | '/' :: '/' :: rest => lineComment? rest
  | '/' :: '*' :: rest => blockComment? rest
  | '(' :: _ => some (.opening .parenthesis, 1)
  | '[' :: _ => some (.opening .bracket, 1)
  | '\x7b' :: _ => some (.opening .brace, 1)
  | ')' :: _ => some (.closing .parenthesis, 1)
  | ']' :: _ => some (.closing .bracket, 1)
  | '\x7d' :: _ => some (.closing .brace, 1)
  | c :: _ => if isBlank c then some (.gap, 1) else leaf? text
  | [] => none

/-- The lexemes of a text with their places; the first `skip` characters belong to a lexeme that
is already read. -/
def lexemesFrom? : Nat → Position → List Char → Option (List (Lexeme × Position))
  | _, _, [] => some []
  | skip + 1, here, c :: rest => lexemesFrom? skip (here.after c) rest
  | 0, here, c :: rest =>
    match lexeme? (c :: rest) with
    | none => none
    | some (found, length) =>
      (lexemesFrom? (length - 1) (here.after c) rest).map ((found, here) :: ·)

/-- The trees of a documentation comment. -/
def documentationTrees (inner : Bool) (text : List Char) (here : Position) : List TokenTree :=
  [.alone '#'] ++ (if inner then [.alone '!'] else []) ++
    [.group .bracket [.word ⟨"doc", false, by decide⟩, .alone '=',
      .token (.literal (String.ofList (literal text)))] here]

/-- The trees that are being put together: those of the innermost open group, latest first, and
around it each open group with the trees in front of it. -/
structure Forest where
  /-- The trees of the innermost group. -/
  current : List TokenTree
  /-- The open groups. -/
  enclosing : List (Delimiter × List TokenTree)

/-- Takes one lexeme in; `none` if a delimiter does not match. -/
def Forest.add (f : Forest) (found : Lexeme) (here : Position) : Option Forest :=
  match found with
  | .gap => some f
  | .documentation inner text =>
    some { f with current := (documentationTrees inner text here).reverse ++ f.current }
  | .token t => some { f with current := .token t :: f.current }
  | .opening delimiter => some ⟨[], (delimiter, f.current) :: f.enclosing⟩
  | .closing delimiter =>
    match f.enclosing with
    | [] => none
    | (opened, before) :: outer =>
      if opened = delimiter then
        some ⟨.group delimiter f.current.reverse here :: before, outer⟩
      else none

/-- Takes lexemes in one after the other. -/
def Forest.addAll (f : Forest) : List (Lexeme × Position) → Option Forest
  | [] => some f
  | (found, here) :: rest =>
    match f.add found here with
    | none => none
    | some next => next.addAll rest

/-- The token trees of a text whose first character stands at `here`. -/
def treesAt? (here : Position) (text : List Char) : Option (List TokenTree) :=
  match lexemesFrom? 0 here text with
  | none => none
  | some found =>
    match Forest.addAll ⟨[], []⟩ found with
    | some ⟨current, []⟩ => some current.reverse
    | _ => none

/-- The token trees of a text. A byte order mark in front is no token but takes a column. -/
def tokenTrees? (text : List Char) : Option (List TokenTree) :=
  match text with
  | '\uFEFF' :: rest => treesAt? (Position.start.after '\uFEFF') rest
  | _ => treesAt? Position.start text

/-- A text behind blanks and comments; documentation comments stay. -/
def skipGaps : Nat → List Char → List Char
  | _, [] => []
  | skip + 1, _ :: rest => skipGaps skip rest
  | 0, c :: rest =>
    match c, rest with
    | '/', '/' :: behind | '/', '*' :: behind =>
      match if rest.head? = some '/' then lineComment? behind else blockComment? behind with
      | some (.gap, length) => skipGaps (length - 1) rest
      | _ => c :: rest
    | _, _ => if isBlank c then skipGaps 0 rest else c :: rest

/-- A file without its first line if that names an interpreter. The line ending stays, so that
every line keeps its number. -/
def dropInterpreter (text : List Char) : List Char :=
  match text with
  | '#' :: '!' :: rest =>
    match skipGaps 0 rest with
    -- This is an attribute of the file, which starts like the name of an interpreter.
    | '[' :: _ => text
    | _ => text.dropWhile (· != '\n')
  | _ => text

/-- A text behind the byte order mark that it may start with. -/
def behindMark (text : List Char) : List Char :=
  match text with
  | '\uFEFF' :: rest => rest
  | _ => text

/-- The token trees of a file. -/
def fileTrees? (text : List Char) : Option (List TokenTree) :=
  tokenTrees? (dropInterpreter (behindMark text))

end UnitLoader.Syntax
