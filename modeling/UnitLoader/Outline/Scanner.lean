import UnitLoader.Outline.Declaration
import UnitLoader.SourceUnit
import UnitLoader.Text.Slice

/-!
# Reading a text at byte offsets

A `Scanner` stands at a byte offset of a text and moves on, by the width of a character that it
looked at or by a number of bytes that it counted. It looks at the text by slicing it where it
stands, which fails off a boundary, and so an action (`Scan`) can fail.

The outline is read here as `tokens` reads it: `Scan.next` reads up to the next token,
`Scan.declaration` up to the declaration of a type. Every repetition is a `Scan.loop`, which goes on
turn by turn. It is not taken for granted that a loop ends: one that does not move forward fails.
-/

namespace UnitLoader

namespace Outline

open UnitLoader.Text

/-- A text and an offset at which it is read. -/
structure Scanner where
  /-- The text. -/
  text : List Char
  /-- The offset, in bytes. -/
  pos : Nat
  /-- The offsets before, the last one first. They are kept for statements on the way that was
  taken, and nothing is read off them. -/
  visited : List Nat
  deriving DecidableEq, Repr

/-- Reading begins at the start of a text. -/
def Scanner.start (text : List Char) : Scanner := ⟨text, 0, []⟩

/-- What stands between two offsets of a text. -/
structure Slice where
  /-- The offset of its first character. -/
  start : Nat
  /-- The offset behind its last one. -/
  stop : Nat
  /-- Its characters. -/
  chars : List Char
  deriving DecidableEq, Repr

/-- A token of which the word is a slice of the text. -/
inductive SlicedToken where
  | word (slice : Slice)
  | openBrace
  | closeBrace
  | mark (c : Char)
  deriving DecidableEq, Repr

namespace SlicedToken

/-- The token. -/
def token : SlicedToken → Token
  | .word slice => .word slice.chars
  | .openBrace => .openBrace
  | .closeBrace => .closeBrace
  | .mark c => .mark c

/-- The slice of a word. -/
def slice? : SlicedToken → Option Slice
  | .word slice => some slice
  | _ => none

end SlicedToken

/-- A step of a scanner, which fails where a slice fails. -/
abbrev Scan (α : Type) := StateT Scanner Option α

namespace Scan

variable {α β : Type}

/-! ## Looking and moving -/

/-- The offset. -/
def position : Scan Nat := fun s => some (s.pos, s)

/-- Moves to an offset. -/
def moveTo (offset : Nat) : Scan Unit := fun s =>
  some ((), { s with pos := offset, visited := s.pos :: s.visited })

/-- Moves on by a number of bytes. -/
def advance (bytes : Nat) : Scan Unit := do moveTo ((← position) + bytes)

/-- Moves to the end of the text. -/
def moveToEnd : Scan Unit := fun s => moveTo (byteLength s.text) s

/-- What is still to be read. -/
def rest : Scan (List Char) := fun s => (sliceFrom? s.pos s.text).map (·, s)

/-- The character with the given number of others in front. -/
def peekNth (n : Nat) : Scan (Option Char) := do return (← rest)[n]?

/-- The next character. -/
def peek : Scan (Option Char) := do return (← rest).head?

/-- Reads a character. -/
def bump : Scan (Option Char) := do
  match ← peek with
  | none => return none
  | some c =>
    advance c.utf8Size
    return some c

/-- The slice from an offset to where the scanner stands. -/
def sliceSince (start : Nat) : Scan Slice := fun s =>
  (slice? start s.pos s.text).map fun chars => (⟨start, s.pos, chars⟩, s)

/-! ## Loops -/

/-- Takes turns until one of them gives an outcome, and fails if none of the given number does. -/
def loopWithin (turn : β → Scan (β ⊕ α)) : (turns : Nat) → β → Scan α
  | 0, _ => failure
  | turns + 1, b => do
    match ← turn b with
    | .inl next => loopWithin turn turns next
    | .inr outcome => return outcome

/-- Takes turns until one of them gives an outcome. There is a turn for every byte that is left and
one more, so a loop that goes on without moving forward fails. -/
def loop (turn : β → Scan (β ⊕ α)) (b : β) : Scan α := fun s =>
  loopWithin turn (byteLength s.text - s.pos + 1) b s

/-- A turn of `eatWhile`. -/
def eatTurn (p : Char → Bool) (_ : Unit) : Scan (Unit ⊕ Unit) := do
  match ← peek with
  | none => return .inr ()
  | some c =>
    if p c then
      discard bump
      return .inl ()
    else return .inr ()

/-- Reads the characters up to the first one that fails a test. -/
def eatWhile (p : Char → Bool) : Scan Slice := do
  let start ← position
  loop (eatTurn p) ()
  sliceSince start

/-- A turn in a block comment, with the number of comments that are open. -/
def commentTurn : (depth : Nat) → Scan (Nat ⊕ Unit)
  | 0 => return .inr ()
  | depth + 1 => do
    let rest ← rest
    if rest.isEmpty then return .inr ()
    else if ['/', '*'].isPrefixOf rest then
      advance 2
      return .inl (depth + 2)
    else if ['*', '/'].isPrefixOf rest then
      advance 2
      return .inl depth
    else
      discard bump
      return .inl (depth + 1)

/-- Reads a block comment, from its opening mark. -/
def blockComment : Scan Unit := do
  advance 2
  loop commentTurn 1

/-- A turn in a quoted literal. -/
def quotedTurn (_ : Unit) : Scan (Unit ⊕ Unit) := do
  match ← bump with
  | none => return .inr ()
  | some c =>
    if c = '\\' then
      discard bump
      return .inl ()
    else if c = '"' then return .inr ()
    else return .inl ()

/-- Reads a quoted literal, from its opening quote. -/
def quoted : Scan Unit := do
  discard bump
  loop quotedTurn ()

/-- Reads a raw literal behind its letters, and says whether there is one. -/
def raw : Scan Bool := do
  let rest ← rest
  let hashes := (rest.takeWhile (· == '#')).length
  let quoteOn ← fun s => (sliceFrom? hashes rest).map (·, s)
  if quoteOn.head? = some '"' then
    advance (hashes + 1)
    let terminator := '"' :: List.replicate hashes '#'
    match occurrence? terminator (← Scan.rest) with
    | some offset => advance (offset + byteLength terminator)
    | none => moveToEnd
    return true
  else return false

/-- Reads what follows the escape in a character literal, up to the closing quote. -/
def escapedTail : Scan Unit := do
  discard (eatWhile fun c => c != '\'' && c != '\n')
  if (← peek) = some '\'' then discard bump

/-- Reads a character literal or a lifetime, from its apostrophe. -/
def apostrophe : Scan Unit := do
  discard bump
  let next ← peek
  if next = some '\\' then
    discard bump
    discard bump
    escapedTail
  else if next.isSome && (← peekNth 1) == some '\'' then
    discard bump
    discard bump
  else discard (eatWhile isWordPart)

/-! ## Tokens -/

/-- Reads what follows a word that was read: it may be the letters of a literal or of a raw
identifier. -/
def behindWord (word : Slice) : Scan (Unit ⊕ Option SlicedToken) := do
  let next ← peek
  if word.chars = ['b'] ∧ next = some '\'' then
    apostrophe
    return .inl ()
  else if (word.chars = ['b'] ∨ word.chars = ['c']) ∧ next = some '"' then
    quoted
    return .inl ()
  else if word.chars ∈ [['r'], ['b', 'r'], ['c', 'r']] ∧ next ∈ [some '"', some '#'] then
    if !(← raw) && word.chars == ['r'] then
      discard bump
      let name ← eatWhile isWordPart
      if name.chars.isEmpty then return .inl ()
      else return .inr (some (.word name))
    else return .inl ()
  else return .inr (some (.word word))

/-- Reads a number, a word and what it may be the letters of, or a mark that is a token. -/
def wordOrMark (c : Char) : Scan (Unit ⊕ Option SlicedToken) := do
  if Charset.isAsciiDigit c then
    discard (eatWhile isWordPart)
    return .inl ()
  else if isWordStart c then
    let word ← eatWhile isWordPart
    behindWord word
  else
    discard bump
    return .inr (some (.mark c))

/-- Reads the lexeme that starts with a character, which is the next one and no space. -/
def lexemeTurn (c : Char) : Scan (Unit ⊕ Option SlicedToken) := do
  let rest ← rest
  if ['/', '/'].isPrefixOf rest then
    discard (eatWhile (· != '\n'))
    return .inl ()
  else if ['/', '*'].isPrefixOf rest then
    blockComment
    return .inl ()
  else if c = '"' then
    quoted
    return .inl ()
  else if c = '\'' then
    apostrophe
    return .inl ()
  else if c = '\x7b' then
    discard bump
    return .inr (some .openBrace)
  else if c = '\x7d' then
    discard bump
    return .inr (some .closeBrace)
  else wordOrMark c

/-- Reads a lexeme, if the text has not ended. -/
def lexemeOrEnd : Scan (Unit ⊕ Option SlicedToken) := do
  match ← peek with
  | none => return .inr none
  | some c => lexemeTurn c

/-- A turn of `next`: reads spaces and the lexeme behind them. -/
def nextTurn (_ : Unit) : Scan (Unit ⊕ Option SlicedToken) := do
  discard (eatWhile Charset.isWhitespace)
  lexemeOrEnd

/-- Reads up to the next token. -/
def next : Scan (Option SlicedToken) := loop nextTurn ()

/-- A turn of `all`, with the tokens so far. -/
def allTurn (found : List SlicedToken) : Scan (List SlicedToken ⊕ List SlicedToken) := do
  match ← next with
  | none => return .inr found
  | some t => return .inl (found ++ [t])

/-- Reads all tokens. -/
def all : Scan (List SlicedToken) := loop allTurn []

/-- A turn of `declaration`: a token changes what is known of the text in front, or it ends the
search. -/
def declarationTurn (known : State) : Scan (State ⊕ Option (List (List Char))) := do
  match ← next with
  | none => return .inr none
  | some t =>
    match known.step t.token with
    | .inl path => return .inr (some path)
    | .inr next => return .inl next

/-- Reads up to the declaration of a type and gives its path, if there is one. -/
def declaration : Scan (Option (List (List Char))) := loop declarationTurn .initial

end Scan

end Outline

/-- The name of the type that a source text declares, as it is read at byte offsets; `none` if a
slice fails or a loop does not move forward. -/
def scannedName? (source : String) : Option (Except Error String) :=
  (Outline.Scan.declaration (.start source.toList)).map fun (path?, _) =>
    match path? with
    | some path => .ok (String.ofList (Text.join pathSeparator path))
    | none => .error (.nameResolution "no top-level struct, enum or union declaration found")

end UnitLoader
