import UnitLoader.Proofs.Outline.Continuation
import UnitLoader.Proofs.Outline.Frames

/-!
# Declarations inside of groups

The tokens of a program form a tree: a bracket and the one that closes it hold a group, and groups
nest (`TokenStream`). `TokenStream.declarations` lists the types that a stream declares in no braces
but those of inline modules, in order. Attributes are passed over, and each type is marked if it
stands in round or square brackets, as it does in the arguments of a macro.

`resolveName_of_tokens` says what the reader of an outline makes of this tree. The first of these
declarations gives the name, so that nothing in the braces of a function or of a macro is taken for
the type of a unit. Round and square brackets count as nothing: the first declaration outside of all
groups gives the name unless one in such brackets comes before it.

Inside of braces that are none of a module the interpreter of frames goes past everything, whatever
stands there (`interpret_hidden`); at module level it goes through a stream as `declarations` does
(`interpret_tokens`). In both cases the stream may be any part of an outline, up to what closes the
group around it (`Closes`).
-/

namespace UnitLoader

namespace Outline

/-! ## Token streams -/

/-- The brackets around a group. -/
inductive Delimiter where
  | brace
  | round
  | square
  deriving DecidableEq, Repr

/-- The token that opens a group. -/
def Delimiter.opening : Delimiter → Token
  | .brace => .openBrace
  | .round => .mark '('
  | .square => .mark '['

/-- The token that closes a group. -/
def Delimiter.closing : Delimiter → Token
  | .brace => .closeBrace
  | .round => .mark ')'
  | .square => .mark ']'

/-- A mark that is a bracket. -/
def isBracket (c : Char) : Bool := c == '(' || c == ')' || c == '[' || c == ']'

/-- A stream of tokens in which every bracket is closed. -/
inductive TokenStream where
  /-- The end. -/
  | nil
  /-- A word. -/
  | word (text : List Char) (behind : TokenStream)
  /-- A mark that is no bracket. -/
  | mark (c : Char) (isPlain : isBracket c = false) (behind : TokenStream)
  /-- A group. -/
  | group (delimiter : Delimiter) (inside behind : TokenStream)

/-- A declaration of a type. -/
structure Declaration where
  /-- The names of the modules around it, and its own. -/
  path : List (List Char)
  /-- It stands in round or square brackets. -/
  bracketed : Bool
  deriving DecidableEq, Repr

/-- A declaration in a module of a name. -/
def Declaration.within (name : List Char) (d : Declaration) : Declaration :=
  { d with path := name :: d.path }

namespace TokenStream

/-- The tokens of a stream one after the other. -/
def tokens : TokenStream → List Token
  | nil => []
  | word text behind => .word text :: behind.tokens
  | mark c _ behind => .mark c :: behind.tokens
  | group delimiter inside behind =>
    delimiter.opening :: (inside.tokens ++ delimiter.closing :: behind.tokens)

/-- The types that are declared in no braces but those of inline modules and in no attribute, inside
of round or square brackets or not. -/
def declarations (bracketed : Bool) : TokenStream → List Declaration
  | nil => []
  | mark '#' _ (group .square _ behind) => behind.declarations bracketed
  | mark '#' _ (mark '!' _ (group .square _ behind)) => behind.declarations bracketed
  | mark _ _ behind => behind.declarations bracketed
  | word keyword (word name behind) =>
    if declaresType keyword then ⟨[name], bracketed⟩ :: behind.declarations bracketed
    else if keyword == "mod".toList then
      match behind with
      | group .brace inside behind =>
        (inside.declarations bracketed).map (.within name) ++ behind.declarations bracketed
      | behind => behind.declarations bracketed
    else (word name behind).declarations bracketed
  | word _ behind => behind.declarations bracketed
  | group .brace _ behind => behind.declarations bracketed
  | group _ inside behind => inside.declarations true ++ behind.declarations bracketed

end TokenStream

/-- No other mark opens a group. -/
theorem opening_ne_mark {c : Char} (hc : isBracket c = false) (delimiter : Delimiter) :
    delimiter.opening ≠ .mark c := by
  cases delimiter with
  | brace => exact nofun
  | round | square =>
    rintro ⟨⟩
    exact absurd hc (by decide)

/-- And none closes one. -/
theorem closing_ne_mark {c : Char} (hc : isBracket c = false) (delimiter : Delimiter) :
    delimiter.closing ≠ .mark c := by
  cases delimiter with
  | brace => exact nofun
  | round | square =>
    rintro ⟨⟩
    exact absurd hc (by decide)

/-! ## Where a stream ends -/

/-- The tokens are those behind a stream: there are none, or the first one closes a group. -/
def Closes (outline : List Token) : Prop :=
  ∀ t ∈ outline.head?, ∃ delimiter : Delimiter, t = delimiter.closing

theorem closes_nil : Closes [] := by simp [Closes]

theorem closes_cons (delimiter : Delimiter) (outline : List Token) :
    Closes (delimiter.closing :: outline) := fun _ ht => ⟨delimiter, (Option.some.inj ht).symm⟩

section

variable {outline : List Token}

/-- What closes a group belongs to no expectation but that of the end of an attribute. -/
theorem claims_closing {e : Expectation} (h : ∀ depth, e ≠ .insideAttribute depth)
    (delimiter : Delimiter) : e.claims delimiter.closing = false := by
  cases e with
  | insideAttribute depth => exact absurd rfl (h depth)
  | _ => cases delimiter <;> rfl

theorem Closes.not_word (h : Closes outline) {w : List Char} {rest : List Token} :
    outline ≠ .word w :: rest := by
  rintro rfl
  obtain ⟨delimiter, hclosing⟩ := h _ rfl
  cases delimiter <;> contradiction

theorem Closes.not_opening (h : Closes outline) {delimiter : Delimiter} {rest : List Token} :
    outline ≠ delimiter.opening :: rest := by
  rintro rfl
  obtain ⟨other, hclosing⟩ := h _ rfl
  revert hclosing
  cases delimiter <;> cases other <;> decide

theorem Closes.not_plain (h : Closes outline) {c : Char} (hc : isBracket c = false)
    {rest : List Token} : outline ≠ .mark c :: rest := by
  rintro rfl
  obtain ⟨delimiter, hclosing⟩ := h _ rfl
  exact closing_ne_mark hc delimiter hclosing.symm

/-! ## What a stream begins with -/

/-- A word in front is a word of the stream. -/
theorem TokenStream.eq_word {f : TokenStream} (hclose : Closes outline) {w : List Char}
    {rest : List Token} (h : f.tokens ++ outline = .word w :: rest) :
    ∃ behind, f = .word w behind := by
  cases f with
  | nil => exact absurd h hclose.not_word
  | word text behind =>
    obtain ⟨htext, -⟩ := List.cons.inj h
    exact ⟨behind, congrArg (TokenStream.word · behind) (Token.word.inj htext)⟩
  | mark c isPlain behind => exact nomatch (List.cons.inj h).1
  | group delimiter inside behind =>
    exfalso
    have hopening : delimiter.opening = .word w := (List.cons.inj h).1
    cases delimiter <;> contradiction

/-- A bracket in front opens a group of the stream. -/
theorem TokenStream.eq_group {f : TokenStream} (delimiter : Delimiter) (hclose : Closes outline)
    {rest : List Token} (h : f.tokens ++ outline = delimiter.opening :: rest) :
    ∃ inside behind, f = .group delimiter inside behind := by
  cases f with
  | nil => exact absurd h hclose.not_opening
  | word text behind =>
    exfalso
    have hopening : .word text = delimiter.opening := (List.cons.inj h).1
    cases delimiter <;> contradiction
  | mark c isPlain behind => exact absurd (List.cons.inj h).1.symm (opening_ne_mark isPlain _)
  | group other inside behind =>
    have hopening : other.opening = delimiter.opening := (List.cons.inj h).1
    have hsame : other = delimiter := by
      revert hopening
      cases other <;> cases delimiter <;> decide
    exact ⟨inside, behind, congrArg (TokenStream.group · inside behind) hsame⟩

/-- Any other mark in front is a mark of the stream. -/
theorem TokenStream.eq_mark {f : TokenStream} (hclose : Closes outline) {c : Char}
    (hc : isBracket c = false) {rest : List Token} (h : f.tokens ++ outline = .mark c :: rest) :
    ∃ behind, f = .mark c hc behind ∧ rest = behind.tokens ++ outline := by
  cases f with
  | nil => exact absurd h (hclose.not_plain hc)
  | word text behind => exact nomatch (List.cons.inj h).1
  | mark d isPlain behind =>
    obtain ⟨hmark, hrest⟩ := List.cons.inj h
    obtain rfl := Token.mark.inj hmark
    exact ⟨behind, rfl, hrest.symm⟩
  | group delimiter inside behind => exact absurd (List.cons.inj h).1 (opening_ne_mark hc _)

end

/-! ## Inside of an attribute -/

/-- Inside of an attribute the reader goes past a whole stream, which closes as many square brackets
as it opens. -/
theorem behindGroup_tokens (f : TokenStream) (depth : Nat) (outline : List Token) :
    behindGroup depth (f.tokens ++ outline) = behindGroup depth outline := by
  induction f generalizing depth outline with
  | nil => rfl
  | word text behind ih =>
    have hopen : Token.word text ≠ .mark '[' := nofun
    have hclose : Token.word text ≠ .mark ']' := nofun
    rw [TokenStream.tokens, List.cons_append, behindGroup_of_not_bracket hopen hclose, ih]
  | mark c isPlain behind ih =>
    have hopen : Token.mark c ≠ .mark '[' := (opening_ne_mark isPlain .square).symm
    have hclose : Token.mark c ≠ .mark ']' := (closing_ne_mark isPlain .square).symm
    rw [TokenStream.tokens, List.cons_append, behindGroup_of_not_bracket hopen hclose, ih]
  | group delimiter inside behind ihInside ihBehind =>
    rw [TokenStream.tokens, List.cons_append, List.append_assoc, List.cons_append]
    cases delimiter with
    | square =>
      calc behindGroup (depth + 1) (inside.tokens ++ .mark ']' :: (behind.tokens ++ outline))
          = behindGroup (depth + 1) (.mark ']' :: (behind.tokens ++ outline)) :=
            ihInside (depth + 1) _
        _ = behindGroup depth (behind.tokens ++ outline) := rfl
        _ = behindGroup depth outline := ihBehind depth outline
    | _ =>
      -- Other brackets count as nothing here.
      rw [behindGroup_of_not_bracket (by decide) (by decide), ihInside,
        behindGroup_of_not_bracket (by decide) (by decide), ihBehind]

/-! ## What the interpreter does with a group -/

section

variable {frames : List Frame}

/-- The interpreter goes past a mark that starts no attribute. -/
theorem interpret_mark_of_ne {c : Char} (hc : c ≠ '#') (rest : List Token) :
    interpret false frames (.mark c :: rest) = interpret false frames rest :=
  interpret_mark (fun _ hhash => absurd hhash hc) fun _ hhash => absurd hhash hc

/-- So it does past what opens a group in round or square brackets. -/
theorem interpret_opening {delimiter : Delimiter} (h : delimiter ≠ .brace) (rest : List Token) :
    interpret false frames (delimiter.opening :: rest) = interpret false frames rest := by
  cases delimiter with
  | brace => exact absurd rfl h
  | round | square => exact interpret_mark_of_ne (by decide) rest

/-- And past what closes it. -/
theorem interpret_closing {delimiter : Delimiter} (h : delimiter ≠ .brace) (rest : List Token) :
    interpret false frames (delimiter.closing :: rest) = interpret false frames rest := by
  cases delimiter with
  | brace => exact absurd rfl h
  | round | square => exact interpret_mark_of_ne (by decide) rest

/-- An opening brace pushes a frame. -/
theorem interpret_openBrace (rest : List Token) :
    interpret false frames (.openBrace :: rest) = interpret false (.other :: frames) rest := by
  rw [interpret]

/-- A closing brace pops one. -/
theorem interpret_closeBrace (rest : List Token) :
    interpret false frames (.closeBrace :: rest) = interpret false frames.tail rest := by
  rw [interpret]

/-- The interpreter goes past an attribute. -/
theorem interpret_attribute (inside : TokenStream) (rest : List Token) :
    interpret false frames (.mark '#' :: .mark '[' :: (inside.tokens ++ .mark ']' :: rest)) =
      interpret false frames rest := by
  rw [interpret, behindGroup_tokens]
  rfl

/-- And past an inner attribute. -/
theorem interpret_innerAttribute (inside : TokenStream) (rest : List Token) :
    interpret false frames
        (.mark '#' :: .mark '!' :: .mark '[' :: (inside.tokens ++ .mark ']' :: rest)) =
      interpret false frames rest := by
  rw [interpret, behindGroup_tokens]
  rfl

end

/-! ## Inside of braces that are none of a module -/

section

variable {e : Expectation} {frames : List Frame} {outline : List Token}

/-- What is expected outside of attributes and declarations, if anything. -/
def Expectation.isOutside : Expectation → Bool
  | .any | .attribute | .attributeBracket => true
  | _ => false

/-- Of the marks that are no brackets an attribute claims the exclamation mark. -/
theorem Expectation.claims_mark (he : e.isOutside = true) {c : Char} (hc : isBracket c = false)
    (h : e.claims (.mark c) = true) : e = .attribute ∧ c = '!' := by
  have hbracket : c ≠ '[' := by
    rintro rfl
    exact absurd hc (by decide)
  cases e with
  | «attribute» => exact ⟨rfl, by simpa [Expectation.claims, hbracket] using h⟩
  | attributeBracket => exact absurd h (by simpa [Expectation.claims] using hbracket)
  | any => contradiction
  | _ => contradiction

/-- Of the brackets it claims the opening square one. -/
theorem Expectation.claims_opening (he : e.isOutside = true) {delimiter : Delimiter}
    (h : e.claims delimiter.opening = true) :
    delimiter = .square ∧ (e = .attribute ∨ e = .attributeBracket) := by
  cases e with
  | «attribute» => exact ⟨by revert h; cases delimiter <;> decide, .inl rfl⟩
  | attributeBracket => exact ⟨by revert h; cases delimiter <;> decide, .inr rfl⟩
  | any => contradiction
  | _ => contradiction

/-- What is expected there is no part of a declaration. So the interpreter goes past it if it does
not claim the next token. -/
theorem interpret_unread_outside (he : e.isOutside = true)
    (h : ∀ t ∈ outline.head?, e.claims t = false) :
    interpret false frames (unread e outline) = interpret false frames outline :=
  interpret_unread (fun hdeclaration => by cases e <;> contradiction) h

theorem interpret_unread_cons (he : e.isOutside = true) {t : Token} (h : ¬ e.claims t = true)
    (rest : List Token) :
    interpret false frames (unread e (t :: rest)) = interpret false frames (t :: rest) :=
  interpret_unread_outside he fun _ ht => Option.some.inj ht ▸ Bool.eq_false_iff.2 h

/-- Inside of braces that are none of a module the interpreter goes past a whole stream. -/
theorem interpret_hidden (f : TokenStream) (hhidden : frames.all Frame.isModule = false)
    (he : e.isOutside = true) (hclose : Closes outline) :
    interpret false frames (unread e (f.tokens ++ outline)) = interpret false frames outline := by
  induction f generalizing e outline frames with
  | nil =>
    -- What closes the stream is no part of an attribute.
    refine interpret_unread_outside he fun t ht => ?_
    obtain ⟨delimiter, rfl⟩ := hclose t ht
    exact claims_closing (by rintro depth rfl; contradiction) delimiter
  | word text behind ih =>
    -- Where nothing can be declared, a word is passed over.
    have hword : ¬ e.claims (.word text) = true := by
      cases e <;> first | exact Bool.false_ne_true | contradiction
    calc interpret false frames (unread e (.word text :: (behind.tokens ++ outline)))
        = interpret false frames (.word text :: (behind.tokens ++ outline)) :=
          interpret_unread_cons he hword _
      _ = interpret false frames (behind.tokens ++ outline) :=
          interpret_word_of_not (by simp [hhidden]) (by simp [hhidden])
      _ = interpret false frames outline := ih (e := .any) hhidden rfl hclose
  | mark c isPlain behind ih =>
    by_cases hclaims : e.claims (.mark c) = true
    · -- The bracket of an inner attribute may follow.
      obtain ⟨rfl, rfl⟩ := Expectation.claims_mark he isPlain hclaims
      exact ih (e := .attributeBracket) hhidden rfl hclose
    · refine (interpret_unread_cons he hclaims _).trans ?_
      -- Of the marks, a hash sign is the one that raises an expectation.
      by_cases hhash : c = '#'
      · subst hhash
        exact ih (e := .attribute) hhidden rfl hclose
      · rw [interpret_mark_of_ne hhash]
        exact ih (e := .any) hhidden rfl hclose
  | group delimiter inside behind ihInside ihBehind =>
    have hbehind := ihBehind (e := .any) hhidden rfl hclose
    have hcloses := closes_cons delimiter (behind.tokens ++ outline)
    rw [TokenStream.tokens, List.cons_append, List.append_assoc, List.cons_append]
    by_cases hclaims : e.claims delimiter.opening = true
    · -- It is the group of an attribute, which is passed over as a whole.
      obtain ⟨rfl, rfl | rfl⟩ := Expectation.claims_opening he hclaims
      · exact (interpret_attribute inside _).trans hbehind
      · exact (interpret_innerAttribute inside _).trans hbehind
    · refine (interpret_unread_cons he hclaims _).trans ?_
      -- A brace opens a frame that hides what is inside; no other delimiter opens one.
      by_cases hbrace : delimiter = .brace
      · subst hbrace
        calc interpret false frames
              (.openBrace :: (inside.tokens ++ .closeBrace :: (behind.tokens ++ outline)))
            = interpret false (.other :: frames)
                (inside.tokens ++ .closeBrace :: (behind.tokens ++ outline)) :=
              interpret_openBrace _
          _ = interpret false (.other :: frames) (.closeBrace :: (behind.tokens ++ outline)) :=
              ihInside (e := .any) rfl rfl hcloses
          _ = interpret false frames (behind.tokens ++ outline) := interpret_closeBrace _
          _ = interpret false frames outline := hbehind
      · have hinside := ihInside (e := .any) hhidden rfl hcloses
        calc interpret false frames
              (delimiter.opening ::
                (inside.tokens ++ delimiter.closing :: (behind.tokens ++ outline)))
            = interpret false frames
                (inside.tokens ++ delimiter.closing :: (behind.tokens ++ outline)) :=
              interpret_opening hbrace _
          _ = interpret false frames (delimiter.closing :: (behind.tokens ++ outline)) := hinside
          _ = interpret false frames (behind.tokens ++ outline) := interpret_closing hbrace _
          _ = interpret false frames outline := hbehind

end

/-! ## At module level -/

/-- The path of the first of some declarations inside of the modules of a stack, or what comes out
without them. -/
def firstOr (frames : List Frame) (declared : List Declaration)
    (outcome : List (List Char) ⊕ List Frame) : List (List Char) ⊕ List Frame :=
  match declared with
  | [] => outcome
  | d :: _ => .inl (moduleNames frames ++ d.path)

theorem firstOr_append (frames : List Frame) (first second : List Declaration)
    (outcome : List (List Char) ⊕ List Frame) :
    firstOr frames (first ++ second) outcome =
      firstOr frames first (firstOr frames second outcome) := by
  cases first <;> rfl

/-- A declaration in a module is one inside of the module's frame. -/
theorem firstOr_within (frames : List Frame) (name : List Char) (declared : List Declaration)
    (outcome : List (List Char) ⊕ List Frame) :
    firstOr frames (declared.map (.within name)) outcome =
      firstOr (.module name :: frames) declared outcome := by
  cases declared with
  | nil => rfl
  | cons d rest =>
    have hnames : moduleNames (.module name :: frames) = moduleNames frames ++ [name] := by
      simp [moduleNames, Frame.name?]
    rw [List.map_cons, firstOr, firstOr, hnames, List.append_assoc]
    rfl

/-- While no brace but those of modules is open, the interpreter comes to the first declaration of a
stream, or to its end with the same braces open. -/
theorem interpret_tokens (f : TokenStream) (bracketed : Bool) {frames : List Frame}
    (hlevel : frames.all Frame.isModule = true) {outline : List Token} (hclose : Closes outline) :
    interpret false frames (f.tokens ++ outline) =
      firstOr frames (f.declarations bracketed) (interpret false frames outline) := by
  -- By the recursion that collects the declarations: what it takes off the stream, the interpreter
  -- takes off the tokens. What stands behind the stream closes a group or is missing, so it is
  -- never mistaken for a part of the stream (`hclose`).
  fun_induction TokenStream.declarations bracketed f generalizing frames outline with
  | case1 => rfl
  | case2 bracketed isPlain inside behind ih =>
    -- An attribute is passed over, brackets and all.
    rw [TokenStream.tokens, TokenStream.tokens, List.cons_append, List.cons_append,
      List.append_assoc]
    exact (interpret_attribute inside _).trans (ih hlevel hclose)
  | case3 bracketed isPlain isPlain' inside behind ih =>
    -- So is one with an exclamation mark.
    rw [TokenStream.tokens, TokenStream.tokens, TokenStream.tokens, List.cons_append,
      List.cons_append, List.cons_append, List.append_assoc]
    exact (interpret_innerAttribute inside _).trans (ih hlevel hclose)
  | case4 bracketed c isPlain behind hattribute hinner ih =>
    -- What follows a hash sign in the tokens follows it in the stream.
    have hmark : interpret false frames (.mark c :: (behind.tokens ++ outline)) =
        interpret false frames (behind.tokens ++ outline) := by
      refine interpret_mark (fun rest hc hrest => ?_) fun rest hc hrest => ?_
      · obtain ⟨inside, next, rfl⟩ := TokenStream.eq_group .square hclose hrest
        exact hattribute inside next hc rfl
      · obtain ⟨next, rfl, hnext⟩ := TokenStream.eq_mark hclose (by decide) hrest
        obtain ⟨inside, next, rfl⟩ := TokenStream.eq_group .square hclose hnext.symm
        exact hinner (by decide) inside next hc rfl
    exact hmark.trans (ih hlevel hclose)
  | case5 bracketed keyword name behind htype ih =>
    -- The first declaration ends the reading, whatever follows.
    exact interpret_type hlevel htype name
  | case6 bracketed keyword name htype hmodule inside behind ihInside ihBehind =>
    -- What is inside of the module is read one frame deeper, up to the brace that closes it.
    obtain rfl := eq_of_beq hmodule
    have hframes : (Frame.module name :: frames).all Frame.isModule = true := hlevel
    calc interpret false frames (.word "mod".toList :: .word name :: .openBrace ::
          (inside.tokens ++ .closeBrace :: behind.tokens ++ outline))
        = interpret false (.module name :: frames)
            (inside.tokens ++ .closeBrace :: behind.tokens ++ outline) :=
          interpret_module hlevel name
      _ = firstOr (.module name :: frames) (inside.declarations bracketed)
            (interpret false (.module name :: frames)
              (.closeBrace :: (behind.tokens ++ outline))) := by
          rw [List.append_assoc, List.cons_append]
          exact ihInside hframes (closes_cons .brace _)
      _ = firstOr (.module name :: frames) (inside.declarations bracketed)
            (interpret false frames (behind.tokens ++ outline)) := by
          rw [interpret_closeBrace, List.tail_cons]
      _ = _ := by rw [ihBehind hlevel hclose, firstOr_append, firstOr_within]
  | case7 bracketed keyword name htype hmodule behind hbrace ih =>
    -- A module without a body opens no frame.
    obtain rfl := eq_of_beq hmodule
    refine (interpret_moduleName hlevel name fun rest hrest => ?_).trans (ih hlevel hclose)
    obtain ⟨inside, next, rfl⟩ := TokenStream.eq_group .brace hclose hrest
    exact hbrace inside next rfl
  | case8 bracketed keyword name behind htype hmodule ih =>
    -- A word with another one behind it that declares nothing is passed over.
    exact (interpret_word_of_not (by rwa [hlevel]) (by rwa [hlevel])).trans (ih hlevel hclose)
  | case9 bracketed text behind hword ih =>
    -- So is a word with anything else behind it.
    refine (interpret_word fun name rest hrest => ?_).trans (ih hlevel hclose)
    obtain ⟨next, rfl⟩ := TokenStream.eq_word hclose hrest
    exact hword name next rfl
  | case10 bracketed inside behind ih =>
    -- A brace that belongs to no module hides what is inside.
    have hcloses := closes_cons .brace (behind.tokens ++ outline)
    calc interpret false frames (.openBrace ::
          (inside.tokens ++ .closeBrace :: behind.tokens ++ outline))
        = interpret false (.other :: frames)
            (inside.tokens ++ .closeBrace :: (behind.tokens ++ outline)) := by
          rw [interpret_openBrace, List.append_assoc, List.cons_append]
      _ = interpret false (.other :: frames) (.closeBrace :: (behind.tokens ++ outline)) :=
          interpret_hidden (e := .any) inside rfl rfl hcloses
      _ = interpret false frames (behind.tokens ++ outline) := interpret_closeBrace _
      _ = _ := ih hlevel hclose
  | case11 bracketed delimiter inside behind hbrace ihInside ihBehind =>
    -- Other delimiters hide nothing: the interpreter reads on at the same level.
    have hcloses := closes_cons delimiter (behind.tokens ++ outline)
    calc interpret false frames (delimiter.opening ::
          (inside.tokens ++ delimiter.closing :: behind.tokens ++ outline))
        = interpret false frames
            (inside.tokens ++ delimiter.closing :: (behind.tokens ++ outline)) := by
          rw [interpret_opening hbrace, List.append_assoc, List.cons_append]
      _ = firstOr frames (inside.declarations true)
            (interpret false frames (delimiter.closing :: (behind.tokens ++ outline))) :=
          ihInside hlevel hcloses
      _ = firstOr frames (inside.declarations true)
            (interpret false frames (behind.tokens ++ outline)) := by
          rw [interpret_closing hbrace]
      _ = _ := by rw [ihBehind hlevel hclose, firstOr_append]

/-- The reader of an outline comes to the path of the first declaration of the stream. -/
theorem declaredPath_tokens (f : TokenStream) :
    declaredPath f.tokens = (f.declarations false).head?.map Declaration.path := by
  have hlevel : ([] : List Frame).all Frame.isModule = true := rfl
  have hinterpret : interpret false [] f.tokens = firstOr [] (f.declarations false) (.inr []) := by
    have htokens := interpret_tokens f false hlevel closes_nil
    rwa [List.append_nil, interpret] at htokens
  rw [declaredPath_eq_interpret, hinterpret]
  cases f.declarations false <;> rfl

/-- The name of a unit whose types are these. -/
def nameOf : List Declaration → Except Error String
  | [] => .error (.nameResolution "no top-level struct, enum or union declaration found")
  | d :: _ => .ok (String.ofList (Text.join pathSeparator d.path))

end Outline

open Outline

/-- **Declarations inside of groups.** The name of a unit is that of the first type that its tokens
declare in no braces but those of inline modules. The first one outside of all groups is that one
unless it stands in round or square brackets. -/
theorem resolveName_of_tokens {source : String} {f : TokenStream}
    (h : tokens source.toList = f.tokens) :
    resolveName source = nameOf (f.declarations false) ∧
      ((∀ d ∈ (f.declarations false).head?, d.bracketed = false) →
        resolveName source = nameOf ((f.declarations false).filter fun d => !d.bracketed)) := by
  have hname : resolveName source = nameOf (f.declarations false) := by
    rw [resolveName, h, declaredPath_tokens]
    cases f.declarations false <;> rfl
  refine ⟨hname, fun hfirst => hname.trans ?_⟩
  cases hdeclared : f.declarations false with
  | nil => rfl
  | cons d rest =>
    have hd : d.bracketed = false := hfirst d (by rw [hdeclared]; rfl)
    rw [List.filter_cons_of_pos (by rw [hd]; rfl)]
    rfl

/-- A type in a module, behind one in the body of a function and one in the braces of a macro. -/
def shownInModule : TokenStream :=
  .word "fn".toList <| .word ['f'] <| .group .round .nil <|
    .group .brace (.word "struct".toList <| .word "Local".toList <| .mark ';' rfl .nil) <|
    .word ['m'] <| .mark '!' rfl <|
    .group .brace (.word "struct".toList <| .word "Hidden".toList <| .mark ';' rfl .nil) <|
    .word "mod".toList <| .word ['p'] <|
    .group .brace
      (.mark '#' rfl <| .group .square (.word "doc".toList <| .mark '=' rfl .nil) <|
        .word "struct".toList <| .word "Shown".toList <| .mark ';' rfl .nil) <|
    .nil

/-- The body of a function and the braces of a macro hide what is declared in them. -/
theorem resolveName_of_tokens_shownInModule :
    tokens ("fn f() \x7b struct Local; \x7d m! \x7b struct Hidden; \x7d " ++
        "mod p \x7b #[doc = \"struct Doc;\"] struct Shown; \x7d").toList = shownInModule.tokens ∧
      (∀ d ∈ (shownInModule.declarations false).head?, d.bracketed = false) ∧
      resolveName ("fn f() \x7b struct Local; \x7d m! \x7b struct Hidden; \x7d " ++
        "mod p \x7b #[doc = \"struct Doc;\"] struct Shown; \x7d") = .ok "p::Shown" := by
  have htokens : tokens ("fn f() \x7b struct Local; \x7d m! \x7b struct Hidden; \x7d " ++
      "mod p \x7b #[doc = \"struct Doc;\"] struct Shown; \x7d").toList = shownInModule.tokens := by
    decide +kernel
  have hfirst : ∀ d ∈ (shownInModule.declarations false).head?, d.bracketed = false := by
    decide +kernel
  exact ⟨htokens, hfirst, ((resolveName_of_tokens htokens).2 hfirst).trans rfl⟩

/-- A type in the arguments of a macro, and one behind it. -/
def hiddenInArguments : TokenStream :=
  .word ['m'] <| .mark '!' rfl <|
    .group .round (.word "struct".toList <| .word "Hidden".toList <| .mark ';' rfl .nil) <|
    .mark ';' rfl <| .word "struct".toList <| .word "Shown".toList <| .mark ';' rfl .nil

/-- Round brackets do not hide it. -/
theorem resolveName_arguments :
    tokens "m!(struct Hidden;); struct Shown;".toList = hiddenInArguments.tokens ∧
      resolveName "m!(struct Hidden;); struct Shown;" = .ok "Hidden" ∧
      nameOf ((hiddenInArguments.declarations false).filter fun d => !d.bracketed) =
        .ok "Shown" := by
  decide +kernel

end UnitLoader
