import UnitLoader.Text.Charset

/-!
# Outline tokens

The outline of a source text is what remains when comments, literals, lifetimes and spaces are
passed over: words, braces and single marks. `lexeme` measures the lexeme a text starts with and
says which token it yields, if any; `tokens` is the outline of the whole text. Reading never fails:
an unterminated comment or literal reaches to the end of the text.
-/

namespace UnitLoader.Outline

open UnitLoader.Text

/-- One token of the outline. -/
inductive Token where
  /-- An identifier or a keyword; a raw identifier is given without its `r#`. -/
  | word (text : List Char)
  /-- An opening brace. -/
  | openBrace
  /-- A closing brace. -/
  | closeBrace
  /-- Any other character that stands outside words and literals. -/
  | mark (c : Char)
  deriving DecidableEq, Repr

/-- A word starts with a letter or an underscore. -/
def isWordStart (c : Char) : Bool := c == '_' || Charset.isAlphabetic c

/-- A word goes on with letters, numbers and underscores. -/
def isWordPart (c : Char) : Bool := c == '_' || Charset.isAlphanumeric c

/-- The longest run of word characters at the start of a text. -/
def wordOf (text : List Char) : List Char := text.takeWhile isWordPart

/-- The length of a block comment behind its opening, with `depth` comments open around the
innermost one. Comments nest. -/
def blockCommentLength : Nat → List Char → Nat
  | _, [] => 0
  | depth, '/' :: '*' :: rest => blockCommentLength (depth + 1) rest + 2
  | 0, '*' :: '/' :: _ => 2
  | depth + 1, '*' :: '/' :: rest => blockCommentLength depth rest + 2
  | depth, _ :: rest => blockCommentLength depth rest + 1

/-- The length of a quoted literal behind its opening quote, the closing quote included. A
backslash takes the next character with it. -/
def quotedLength : List Char → Nat
  | [] => 0
  | '\\' :: _ :: rest => quotedLength rest + 2
  | '"' :: _ => 1
  | _ :: rest => quotedLength rest + 1

/-- The length of the body of a raw literal together with its terminator, a quote and `hashes`
hash signs. -/
def rawBodyLength (hashes : Nat) : List Char → Nat
  | [] => 0
  | c :: rest =>
    if ('"' :: List.replicate hashes '#').isPrefixOf (c :: rest) then hashes + 1
    else rawBodyLength hashes rest + 1

/-- The length of a raw literal behind its letters: hash signs, a quote, the body and its
terminator. -/
def rawLength? (text : List Char) : Option Nat :=
  let hashes := (text.takeWhile (· == '#')).length
  match text.drop hashes with
  | '"' :: body => some (hashes + 1 + rawBodyLength hashes body)
  | _ => none

/-- The length of what follows the backslash and the character it escapes in a character
literal: everything up to the closing quote on the same line, and that quote. -/
def escapedTailLength (text : List Char) : Nat :=
  let tail := (text.takeWhile fun c => c != '\'' && c != '\n').length
  match text.drop tail with
  | '\'' :: _ => tail + 1
  | _ => tail

/-- The length of a character literal or of a lifetime behind its apostrophe. -/
def apostropheLength : List Char → Nat
  | [] => 0
  | ['\\'] => 1
  | '\\' :: _ :: rest => 2 + escapedTailLength rest
  -- A character has its apostrophe right behind it; everything else is a lifetime.
  | _ :: '\'' :: _ => 2
  | text => (wordOf text).length

/-- The lexeme that starts with a word: the word itself, a prefixed literal or a raw identifier.
The letters of a raw literal that is none are passed over. -/
def wordLexeme (word behind : List Char) : Option Token × Nat :=
  match word, behind with
  | ['b'], '\'' :: rest => (none, 2 + apostropheLength rest)
  | ['b'], '"' :: rest => (none, 2 + quotedLength rest)
  | ['c'], '"' :: rest => (none, 2 + quotedLength rest)
  | ['r'], _ =>
    -- The letter of a raw literal is that of a raw identifier as well.
    match rawLength? behind, behind with
    | some n, _ => (none, 1 + n)
    | none, '#' :: rest =>
      let name := wordOf rest
      (if name.isEmpty then none else some (.word name), 2 + name.length)
    | none, _ => (some (.word word), 1)
  | _, next :: _ =>
    if (word == ['b', 'r'] || word == ['c', 'r']) && (next == '"' || next == '#') then
      (none, word.length + (rawLength? behind).getD 0)
    else (some (.word word), word.length)
  | _, [] => (some (.word word), word.length)

/-- The token and the length of the lexeme at the start of a nonempty text. -/
def lexeme : List Char → Option Token × Nat
  | [] => (none, 0)
  | '/' :: '/' :: rest => (none, 2 + (rest.takeWhile (· != '\n')).length)
  | '/' :: '*' :: rest => (none, 2 + blockCommentLength 0 rest)
  | '"' :: rest => (none, 1 + quotedLength rest)
  | '\'' :: rest => (none, 1 + apostropheLength rest)
  | '{' :: _ => (some .openBrace, 1)
  | '}' :: _ => (some .closeBrace, 1)
  | c :: rest =>
    if Charset.isWhitespace c then (none, 1)
    -- A number goes on like a word, so the letters in it start none.
    else if Charset.isAsciiDigit c then (none, (wordOf (c :: rest)).length)
    else if isWordStart c then
      let word := wordOf (c :: rest)
      wordLexeme word ((c :: rest).drop word.length)
    else (some (.mark c), 1)

/-- The outline of a text of which the first `skip` characters belong to a lexeme that is already
read. -/
def tokensFrom : Nat → List Char → List Token
  | _, [] => []
  | skip + 1, _ :: rest => tokensFrom skip rest
  | 0, c :: rest =>
    let (token, length) := lexeme (c :: rest)
    token.toList ++ tokensFrom (length - 1) rest

/-- The outline of a text. -/
def tokens (text : List Char) : List Token := tokensFrom 0 text

end UnitLoader.Outline
