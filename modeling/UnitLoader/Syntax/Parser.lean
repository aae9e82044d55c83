import UnitLoader.Syntax.Literal
import UnitLoader.Syntax.Token

/-!
# Parsers over token trees

A parser takes trees off the front of a list, and nothing but the end of the list is left: every
`Parser` carries the proof of this. Beside its result it prints: every construct leaves behind the
trees by which it would be written again, which is the text taken in with the spacing that its
operators have by themselves. `group` runs a parser on the content of a group, which it must use up.
A construct that is not analysed further is printed as it is written, with the spacing of the text:
`verbatim` and `verbatimIf` do this.

What may come next is decided by tests on the trees in front, which are plain functions.
-/

namespace UnitLoader.Syntax

open UnitLoader.Text (Position)

/-- The trees that are left to parse, and those that were printed, latest first. -/
structure Cursor where
  /-- What is left. -/
  rest : List TokenTree
  /-- What was printed, latest first. -/
  printed : List TokenTree

/-- Takes trees off the front and may fail. -/
structure Parser (α : Type) where
  /-- The result, and what is left and printed then. -/
  run : Cursor → Option (α × Cursor)
  /-- What is left is the end of what there was. -/
  takes : ∀ {c c' : Cursor} {a : α}, run c = some (a, c') → c'.rest <:+ c.rest

namespace Parser

variable {α β : Type}

/-- Takes nothing and gives a value. -/
protected def pure (a : α) : Parser α where
  run c := some (a, c)
  takes h := by
    cases h
    exact List.suffix_refl _

/-- Runs a parser, and behind it the one that its result chooses. -/
protected def bind (p : Parser α) (f : α → Parser β) : Parser β where
  run c :=
    match p.run c with
    | none => none
    | some (a, c') => (f a).run c'
  takes h := by
    split at h
    · contradiction
    · rename_i hp
      exact ((f _).takes h).trans (p.takes hp)

instance : Monad Parser where
  pure := Parser.pure
  bind := Parser.bind

/-- Runs a parser, or another one where it fails. -/
protected def orElse (p : Parser α) (q : Unit → Parser α) : Parser α where
  run c := (p.run c).or ((q ()).run c)
  takes h := by
    rcases Option.or_eq_some_iff.1 h with hp | ⟨-, hq⟩
    · exact p.takes hp
    · exact (q ()).takes hq

instance : Alternative Parser where
  failure := ⟨fun _ => none, nofun⟩
  orElse := Parser.orElse

end Parser

/-- The words that are no identifiers. -/
def keywords : List String :=
  ["_", "abstract", "as", "async", "await", "become", "box", "break", "const", "continue",
    "crate", "do", "dyn", "else", "enum", "extern", "false", "final", "fn", "for", "if", "impl",
    "in", "let", "loop", "macro", "match", "mod", "move", "mut", "override", "priv", "pub", "ref",
    "return", "Self", "self", "static", "struct", "super", "trait", "true", "try", "type",
    "typeof", "unsafe", "unsized", "use", "virtual", "where", "while", "yield"]

/-- The word is a keyword. -/
def isKeyword (name : String) : Bool := keywords.contains name

/-! ## Tests on the trees in front -/

namespace Ahead

/-- The trees start with an operator. Its last mark may be joined to a further one. -/
def marks : List Char → List TokenTree → Bool
  | [], _ => true
  | [c], .token (.mark d _) :: _ => c == d
  | c :: cs, .token (.mark d true) :: rest => c == d && marks cs rest
  | _, _ => false

/-- The trees start with an operator of this spelling. -/
def symbol (spelling : String) (ts : List TokenTree) : Bool := marks spelling.toList ts

/-- The trees start with this keyword. -/
def keyword (name : String) : List TokenTree → Bool
  | .token (.word n) :: _ => !n.raw && n.text == name
  | _ => false

/-- The trees start with one of these keywords. -/
def keywordIn (names : List String) (ts : List TokenTree) : Bool :=
  names.any fun name => keyword name ts

/-- The trees start with an identifier. -/
def name : List TokenTree → Bool
  | .token (.word n) :: _ => n.raw || !isKeyword n.text
  | _ => false

/-- The trees start with an identifier or a keyword. -/
def word : List TokenTree → Bool
  | .token (.word _) :: _ => true
  | _ => false

/-- The trees start with a lifetime. -/
def lifetime : List TokenTree → Bool
  | .token (.mark '\'' true) :: .token (.word _) :: _ => true
  | _ => false

/-- The trees start with a literal; a minus sign in front of a number belongs to it. -/
def literal : List TokenTree → Bool
  | .token (.literal _) :: _ => true
  | .token (.word n) :: _ => !n.raw && (n.text == "true" || n.text == "false")
  | .token (.mark '-' _) :: .token (.literal text) :: _ =>
    match text.toList with
    | c :: _ => Text.Charset.isAsciiDigit c
    | [] => false
  | _ => false

/-- The trees start with a string literal. -/
def string : List TokenTree → Bool
  | .token (.literal text) :: _ =>
    match text.toList with
    | '"' :: _ => true
    | 'r' :: _ => true
    | _ => false
  | _ => false

/-- The trees start with a group. -/
def opening (delimiter : Delimiter) : List TokenTree → Bool
  | .group d _ _ :: _ => d == delimiter
  | _ => false

/-- The trees start with any group. -/
def anyOpening : List TokenTree → Bool
  | .group _ _ _ :: _ => true
  | _ => false

/-- The trees behind the first one; a lifetime counts as one. -/
def next : List TokenTree → List TokenTree
  | .token (.mark '\'' true) :: .token (.word _) :: rest => rest
  | _ :: rest => rest
  | [] => []

/-- The trees behind the first two. -/
def next2 (ts : List TokenTree) : List TokenTree := next (next ts)

/-- The trees start with a point that is no range. -/
def point (ts : List TokenTree) : Bool := symbol "." ts && !symbol ".." ts

/-- The trees start with a colon that is no path separator. -/
def colon (ts : List TokenTree) : Bool := symbol ":" ts && !symbol "::" ts

/-- The trees start with the mark of a macro call. -/
def bang (ts : List TokenTree) : Bool := symbol "!" ts && !symbol "!=" ts

/-- The trees start with a path, a macro call or a structure. -/
def pathStart (ts : List TokenTree) : Bool :=
  name ts || keywordIn ["self", "super", "crate"] ts || symbol "::" ts

end Ahead

/-! ## Parsers for single trees -/

namespace Parser

variable {α σ : Type}

/-- Looks at what is left. -/
def look (f : List TokenTree → α) : Parser α where
  run c := some (f c.rest, c)
  takes h := by
    cases h
    exact List.suffix_refl _

/-- What is left to parse. -/
def rest : Parser (List TokenTree) := look id

/-- Nothing is left. -/
def atEnd : Parser Bool := look List.isEmpty

/-- The test holds in front. -/
def peek (test : List TokenTree → Bool) : Parser Bool := look test

/-- Changes what was printed, of which the latest comes first. -/
def reprint (f : List TokenTree → List TokenTree) : Parser Unit where
  run c := some ((), { c with printed := f c.printed })
  takes h := by
    cases h
    exact List.suffix_refl _

/-- Prints trees. -/
def print (ts : List TokenTree) : Parser Unit := reprint (ts.reverse ++ ·)

/-- Fails unless the condition holds. -/
def require (condition : Bool) : Parser Unit := if condition then pure () else failure

/-- Takes an operator and prints another one in its place. -/
def symbolAs (spelling printed : String) : Parser Unit where
  run c :=
    if Ahead.symbol spelling c.rest then
      some ((), ⟨c.rest.drop spelling.toList.length,
        (TokenTree.symbol printed.toList).reverse ++ c.printed⟩)
    else none
  takes h := by
    split at h
    · cases h
      exact List.drop_suffix _ _
    · contradiction

/-- Takes an operator. -/
def symbol (spelling : String) : Parser Unit := symbolAs spelling spelling

/-- Takes an operator if it is there. -/
def symbol? (spelling : String) : Parser Bool := do
  if ← peek (Ahead.symbol spelling) then do symbol spelling; pure true
  else pure false

/-- Takes any word. -/
def word : Parser Name where
  run
    | ⟨.token (.word n) :: rest, printed⟩ => some (n, ⟨rest, .token (.word n) :: printed⟩)
    | _ => none
  takes h := by
    split at h
    · cases h
      exact List.suffix_cons _ _
    · contradiction

/-- Takes a keyword. -/
def keyword (name : String) : Parser Unit := do
  require (← peek (Ahead.keyword name))
  let _ ← word

/-- Takes a keyword if it is there. -/
def keyword? (name : String) : Parser Bool := do
  if ← peek (Ahead.keyword name) then do keyword name; pure true
  else pure false

/-- Takes an identifier. -/
def name : Parser Name := do
  require (← peek Ahead.name)
  word

/-- Takes a lifetime. -/
def lifetime : Parser Name where
  run
    | ⟨.token (.mark '\'' true) :: .token (.word n) :: rest, printed⟩ =>
      some (n, ⟨rest, .token (.word n) :: .token (.mark '\'' true) :: printed⟩)
    | _ => none
  takes h := by
    split at h
    · cases h
      exact (List.suffix_cons _ _).trans (List.suffix_cons _ _)
    · contradiction

/-- Takes a lifetime if it is there. -/
def lifetime? : Parser (Option Name) := do
  if ← peek Ahead.lifetime then some <$> lifetime else pure none

/-- Takes a literal. -/
def literal : Parser Unit where
  run c :=
    if Ahead.literal c.rest then
      match c.rest with
      | .token (.mark _ _) :: number :: others =>
        some ((), ⟨others, number :: .alone '-' :: c.printed⟩)
      | t :: others => some ((), ⟨others, t :: c.printed⟩)
      | [] => none
    else none
  takes h := by
    split at h
    · split at h
      · rename_i hrest
        cases h
        rw [hrest]
        exact (List.suffix_cons _ _).trans (List.suffix_cons _ _)
      · rename_i hrest
        cases h
        rw [hrest]
        exact List.suffix_cons _ _
      · contradiction
    · contradiction

/-- Runs a parser on the content of a group, which it has to use up, and gives the place of the
closing delimiter too. -/
def groupWithEnd (delimiter : Delimiter) (content : Parser α) : Parser (α × Position) where
  run
    | ⟨.group d inside close :: rest, printed⟩ =>
      if d = delimiter then
        match content.run ⟨inside, []⟩ with
        | some (a, ⟨[], inner⟩) =>
          some ((a, close), ⟨rest, .group d inner.reverse close :: printed⟩)
        | _ => none
      else none
    | _ => none
  takes h := by
    split at h
    · split at h
      · split at h
        · cases h
          exact List.suffix_cons _ _
        · contradiction
      · contradiction
    · contradiction

/-- Runs a parser on the content of a group, which it has to use up. -/
def group (delimiter : Delimiter) (content : Parser α) : Parser α :=
  Prod.fst <$> groupWithEnd delimiter content

/-- Takes a group as it is. -/
def anyGroup : Parser Delimiter where
  run
    | ⟨.group d inside close :: rest, printed⟩ => some (d, ⟨rest, .group d inside close :: printed⟩)
    | _ => none
  takes h := by
    split at h
    · cases h
      exact List.suffix_cons _ _
    · contradiction

/-- Runs a parser and keeps what it prints apart. -/
def captured (p : Parser α) : Parser (α × List TokenTree) where
  run c :=
    match p.run { c with printed := [] } with
    | some (a, c') => some ((a, c'.printed.reverse), { c' with printed := c.printed })
    | none => none
  takes h := by
    split at h
    · rename_i hp
      have hleft := p.takes hp
      cases h
      exact hleft
    · contradiction

/-- Runs a parser and prints nothing. -/
def silently (p : Parser α) : Parser α := Prod.fst <$> captured p

/-- Runs a parser as if nothing was printed before. -/
def afresh (p : Parser α) : Parser α := do
  let (a, trees) ← captured p
  print trees
  pure a

/-- Puts all that is printed in parentheses. -/
def enclose : Parser Unit := reprint fun printed => [.group .parenthesis printed.reverse .start]

/-- Runs a parser that tells whether the trees it takes are printed as they are. -/
def verbatimIf (p : Parser (α × Bool)) : Parser α where
  run c :=
    match p.run c with
    | some ((a, true), c') =>
      let taken := c.rest.take (c.rest.length - c'.rest.length)
      some (a, { c' with printed := taken.reverse ++ c.printed })
    | some ((a, false), c') => some (a, c')
    | none => none
  takes h := by
    split at h
    · rename_i hp
      have hleft := p.takes hp
      cases h
      exact hleft
    · rename_i hp
      cases h
      exact p.takes hp
    · contradiction

/-- Runs a parser and prints the trees it takes as they are. -/
def verbatim (p : Parser α) : Parser α := verbatimIf ((·, true) <$> p)

/-- Runs a parser if it succeeds. -/
def attempt (p : Parser α) : Parser (Option α) where
  run c :=
    match p.run c with
    | some (a, c') => some (some a, c')
    | none => some (none, c)
  takes h := by
    split at h
    · rename_i hp
      cases h
      exact p.takes hp
    · cases h
      exact List.suffix_refl _

/-- Repeats a step, at most `fuel` times, until it gives a result. -/
def iterate (step : σ → Parser (σ ⊕ α)) : Nat → σ → Parser α
  | 0, _ => failure
  | fuel + 1, s => do
    match ← step s with
    | .inl next => iterate step fuel next
    | .inr a => pure a

/-- Repeats a step that takes a tree each time until it gives a result. -/
def repeating (start : σ) (step : σ → Parser (σ ⊕ α)) : Parser α := do
  iterate step ((← rest).length + 2) start

/-- Takes items until nothing is left. -/
def many (item : Parser α) : Parser (List α) :=
  repeating [] fun taken => do
    if ← atEnd then pure (.inr taken.reverse) else .inl <$> (· :: taken) <$> item

/-- Takes items with commas between them until nothing is left; a comma may stand behind the last
one. -/
def commas (item : Parser α) : Parser (List α) :=
  repeating [] fun taken => do
    if ← atEnd then pure (.inr taken.reverse)
    else
      let a ← item
      if ← atEnd then pure (.inr (a :: taken).reverse)
      else do
        symbol ","
        pure (.inl (a :: taken))

/-- Takes items with an operator between them until the test holds in front of an item, or no
operator follows. -/
def separatedUntil (stop : List TokenTree → Bool) (separator : String) (item : Parser α) :
    Parser (List α) :=
  repeating [] fun taken => do
    if ← peek stop then pure (.inr taken.reverse)
    else
      let a ← item
      if ← symbol? separator then pure (.inl (a :: taken))
      else pure (.inr (a :: taken).reverse)

end Parser

end UnitLoader.Syntax
