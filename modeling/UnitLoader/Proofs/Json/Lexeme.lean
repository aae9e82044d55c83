import UnitLoader.Proofs.Json.Text

/-!
# Values are cut into lexemes as they are written

`Value.lexemes` says which lexemes a value stands as, and `lexemes_encode_print` that the bytes of
its text are cut into them. It goes by the structure of the value, with bytes behind it that cannot
go on with a number: in the text of a value those are a comma or the end of a container, and behind
the whole there is nothing.
-/

namespace UnitLoader.Json

open UnitLoader.Text

/-! ## The lexemes of a value -/

/-- What reading a whole number gives. -/
def readNatural (n : Nat) : Except Fault Number :=
  if n < UInt64.size then .ok (.natural n)
  else if beyondDoubles n 0 then .error .malformed else .ok .other

/-- The lexeme of a string. -/
def textLexeme (text : List Char) : Lexeme := .text (.ok text) (.ok ())

/-- What stands in front of the next part of a container. -/
def separator (first : Bool) : List Lexeme := if first then [] else [.comma]

mutual

/-- The lexemes of a value. -/
def Value.lexemes : Value → List Lexeme
  | .null => [.null]
  | .natural n => [.number (readNatural n) (.ok ())]
  | .text value => [textLexeme value]
  | .array elements => .openArray :: (Value.elementLexemes true elements ++ [.closeArray])
  | .object members => .openObject :: (Value.memberLexemes true members ++ [.closeObject])

/-- The lexemes of the values that follow in an array. -/
def Value.elementLexemes (first : Bool) : List Value → List Lexeme
  | [] => []
  | value :: others =>
    separator first ++ (value.lexemes ++ Value.elementLexemes false others)

/-- The lexemes of the members that follow in an object. -/
def Value.memberLexemes (first : Bool) : List (String × Value) → List Lexeme
  | [] => []
  | (name, value) :: others =>
    separator first ++ (textLexeme name.toList :: .colon :: value.lexemes ++
      Value.memberLexemes false others)

end

/-! ## One lexeme -/

/-- Bytes that belong to a lexeme that was cut off are passed over. -/
theorem lexemesFrom_append (read rest : List UInt8) :
    lexemesFrom read.length (read ++ rest) = lexemesFrom 0 rest := by
  induction read with
  | nil => rfl
  | cons b read ih => exact ih

/-- A lexeme is cut off, and the bytes behind it are cut. -/
theorem lexemesFrom_of_lexeme {b : UInt8} {read rest : List UInt8} {found : Lexeme}
    (hblank : isBlank b = false)
    (hlexeme : lexeme (b :: (read ++ rest)) = (found, read.length + 1)) :
    lexemesFrom 0 (b :: (read ++ rest)) = found :: lexemesFrom 0 rest := by
  rw [lexemesFrom, hblank, if_neg Bool.false_ne_true, hlexeme]
  exact congrArg _ (lexemesFrom_append read rest)

/-- The word for nothing. -/
theorem lexemes_null (rest : List UInt8) :
    lexemesFrom 0 (Utf8.encode "null".toList ++ rest) = .null :: lexemesFrom 0 rest := rfl

/-- A quote starts a string. -/
theorem lexeme_quote {rest : List UInt8} {length : Nat} (h : skipText 0 rest = .ok length) :
    lexeme (ascii '"' :: rest) = (.text (readText rest) (.ok ()), length + 1) := by
  rw [lexeme, h]
  rfl

/-- A string is cut off with its quotes. -/
theorem lexemes_string (text : List Char) (rest : List UInt8) :
    lexemesFrom 0 (Utf8.encode (string text) ++ rest) =
      textLexeme text :: lexemesFrom 0 rest := by
  have hbytes : Utf8.encode (string text) = ascii '"' :: quotedBytes text := by
    have happend : Utf8.encode (text.flatMap escape ++ ['"']) = quotedBytes text :=
      List.flatMap_append
    exact congrArg (ascii '"' :: ·) happend
  rw [hbytes]
  refine lexemesFrom_of_lexeme rfl ?_
  rw [lexeme_quote (skipText_quotedBytes text rest), readText_quotedBytes]
  rfl

/-- A digit starts a number. -/
theorem lexeme_digit {b : UInt8} (hb : isDigit b = true) {rest : List UInt8}
    (hshape : (numberShape (b :: rest)).broken = none) :
    lexeme (b :: rest) = (.number (numberShape (b :: rest)).read (numberShape (b :: rest)).skip,
      (numberShape (b :: rest)).length) := by
  unfold isDigit at hb
  rw [lexeme]
  split
  case h_11 =>
    rw [hb, Bool.or_true, if_pos rfl]
    dsimp only
    rw [hshape]
    rfl
  all_goals
    rename_i hchar
    rw [hchar] at hb
    exact absurd hb (by decide)

/-- A digit is no blank. -/
theorem isBlank_of_isDigit {b : UInt8} (hb : isDigit b = true) : isBlank b = false := by
  have hne (other : UInt8) (hother : isDigit other = false) : (b == other) = false := by
    refine beq_false_of_ne ?_
    rintro rfl
    rw [hb] at hother
    contradiction
  unfold isBlank
  rw [hne 32 rfl, hne 10 rfl, hne 13 rfl, hne 9 rfl]
  rfl

/-- A number is cut off at its end. -/
theorem lexemes_digits (n : Nat) {rest : List UInt8} (h : EndsNumber rest) :
    lexemesFrom 0 (Utf8.encode (Nat.toDigits 10 n) ++ rest) =
      .number (readNatural n) (.ok ()) :: lexemesFrom 0 rest := by
  have hshape := numberShape_digitBytes n h
  have hvalue := digitsValue_digitBytes n
  rw [encode_toDigits]
  cases hbytes : digitBytes n with
  | nil => exact absurd (List.map_eq_nil_iff.1 hbytes) Nat.toDigits_ne_nil
  | cons b read =>
    rw [hbytes] at hshape hvalue
    have hb : isDigit b = true := isDigit_of_mem_digitBytes (hbytes ▸ List.mem_cons_self)
    refine lexemesFrom_of_lexeme (isBlank_of_isDigit hb) ?_
    rw [List.cons_append] at hshape
    rw [lexeme_digit hb (by rw [hshape]), hshape]
    -- Without a sign, a fraction or an exponent a number is read as the natural number it shows.
    have hread : NumberShape.read ⟨false, b :: read, none, none, (b :: read).length, none⟩ =
        readNatural n := by
      rw [NumberShape.read]
      dsimp only
      rw [hvalue]
      simp only [readNatural, Bool.not_false, Bool.true_and, decide_eq_true_eq]
    rw [hread]
    rfl

/-! ## A whole value -/

/-- What stands behind a value in a text ends a number. -/
theorem endsNumber_cons {c : Char} (h : c = ',' ∨ c = ']' ∨ c = '\x7d') (rest : List UInt8) :
    EndsNumber (ascii c :: rest) := by
  intro b hb
  obtain rfl := Option.some.inj hb
  rcases h with rfl | rfl | rfl <;> decide

/-- A text is cut into lexemes, whatever follows it that ends a number. -/
def Lexes (text : List Char) (found : List Lexeme) : Prop :=
  ∀ rest, EndsNumber rest →
    lexemesFrom 0 (Utf8.encode text ++ rest) = found ++ lexemesFrom 0 rest

namespace Lexes

variable {text text' : List Char} {found found' : List Lexeme}

theorem nil : Lexes [] [] := fun _ _ => rfl

/-- Texts with a comma between them. -/
theorem comma (h : Lexes text found) (h' : Lexes text' found') :
    Lexes (text ++ ',' :: text') (found ++ .comma :: found') := by
  intro rest hrest
  have hbytes : Utf8.encode (text ++ ',' :: text') ++ rest =
      Utf8.encode text ++ (ascii ',' :: (Utf8.encode text' ++ rest)) := by
    rw [Utf8.encode_append, List.append_assoc]
    rfl
  have hcomma : lexemesFrom 0 (ascii ',' :: (Utf8.encode text' ++ rest)) =
      .comma :: lexemesFrom 0 (Utf8.encode text' ++ rest) := rfl
  rw [hbytes, h _ (endsNumber_cons (.inl rfl) _), hcomma, h' rest hrest, List.append_assoc]
  rfl

/-- A text behind a name. -/
theorem member (name : List Char) (h : Lexes text found) :
    Lexes (string name ++ ':' :: text) (textLexeme name :: .colon :: found) := by
  intro rest hrest
  have hbytes : Utf8.encode (string name ++ ':' :: text) ++ rest =
      Utf8.encode (string name) ++ (ascii ':' :: (Utf8.encode text ++ rest)) := by
    rw [Utf8.encode_append, List.append_assoc]
    rfl
  have hcolon : lexemesFrom 0 (ascii ':' :: (Utf8.encode text ++ rest)) =
      .colon :: lexemesFrom 0 (Utf8.encode text ++ rest) := rfl
  rw [hbytes, lexemes_string, hcolon, h rest hrest]
  rfl

/-- A text in brackets. -/
theorem array (h : Lexes text found) :
    Lexes ('[' :: text ++ [']']) (.openArray :: (found ++ [.closeArray])) := by
  intro rest hrest
  have hbytes : Utf8.encode ('[' :: text ++ [']']) ++ rest =
      ascii '[' :: (Utf8.encode text ++ (ascii ']' :: rest)) := by
    rw [Utf8.encode_append, List.append_assoc]
    rfl
  have hopen : lexemesFrom 0 (ascii '[' :: (Utf8.encode text ++ (ascii ']' :: rest))) =
      .openArray :: lexemesFrom 0 (Utf8.encode text ++ (ascii ']' :: rest)) := rfl
  have hclose : lexemesFrom 0 (ascii ']' :: rest) = .closeArray :: lexemesFrom 0 rest := rfl
  rw [hbytes, hopen, h _ (endsNumber_cons (.inr (.inl rfl)) _), hclose, List.cons_append,
    List.append_assoc]
  rfl

/-- A text in braces. -/
theorem object (h : Lexes text found) :
    Lexes ('\x7b' :: text ++ ['\x7d']) (.openObject :: (found ++ [.closeObject])) := by
  intro rest hrest
  have hbytes : Utf8.encode ('\x7b' :: text ++ ['\x7d']) ++ rest =
      ascii '\x7b' :: (Utf8.encode text ++ (ascii '\x7d' :: rest)) := by
    rw [Utf8.encode_append, List.append_assoc]
    rfl
  have hopen : lexemesFrom 0 (ascii '\x7b' :: (Utf8.encode text ++ (ascii '\x7d' :: rest))) =
      .openObject :: lexemesFrom 0 (Utf8.encode text ++ (ascii '\x7d' :: rest)) := rfl
  have hclose : lexemesFrom 0 (ascii '\x7d' :: rest) = .closeObject :: lexemesFrom 0 rest := rfl
  rw [hbytes, hopen, h _ (endsNumber_cons (.inr (.inr rfl)) _), hclose, List.cons_append,
    List.append_assoc]
  rfl

end Lexes

mutual

/-- **The text of a value is cut into the lexemes of the value.** -/
theorem lexes_print : (v : Value) → Lexes v.print v.lexemes
  | .null => fun rest _ => lexemes_null rest
  | .natural n => fun _ h => lexemes_digits n h
  | .text value => fun rest _ => lexemes_string value rest
  | .array elements => (lexes_printElements elements).array
  | .object members => (lexes_printMembers members).object

theorem lexes_printElements : (values : List Value) →
    Lexes (Value.printElements values) (Value.elementLexemes true values)
  | [] => .nil
  | [value] => by
    have hlast : Value.elementLexemes true [value] = value.lexemes := List.append_nil _
    rw [hlast]
    exact lexes_print value
  | value :: other :: others => (lexes_print value).comma (lexes_printElements (other :: others))

theorem lexes_printMembers : (members : List (String × Value)) →
    Lexes (Value.printMembers members) (Value.memberLexemes true members)
  | [] => .nil
  | [(name, value)] => by
    have hlast : Value.memberLexemes true [(name, value)] =
        textLexeme name.toList :: .colon :: value.lexemes := List.append_nil _
    rw [hlast]
    exact (lexes_print value).member name.toList
  | (name, value) :: other :: others =>
    ((lexes_print value).member name.toList).comma (lexes_printMembers (other :: others))

end

/-- So the lexemes of the text are those of the value. -/
theorem lexemes_encode_print (v : Value) : lexemes (Utf8.encode v.print) = v.lexemes := by
  have hnothing : EndsNumber [] := fun b hb => absurd hb (by simp)
  have hprint := lexes_print v [] hnothing
  rw [List.append_nil] at hprint
  rw [lexemes, hprint]
  exact List.append_nil _

end UnitLoader.Json
