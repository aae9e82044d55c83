import Mathlib.Algebra.Group.Nat.Defs
import Mathlib.Data.List.Infix
import UnitLoader.Proofs.Syntax.Number
import UnitLoader.Syntax.Lexer

/-!
# Literals from their first character to their last

`IsLiteral` tells the texts that are one literal: letters that name the kind, what stands between
the quotes, and a suffix; or a number. What is measured as a literal is one
(`startsWith_of_literalLength?`), and wherever a literal stands in front of a character that ends
it, the lexer takes exactly it (`IsLiteral.lexeme?_append`).
-/

namespace UnitLoader.Syntax

open UnitLoader.Text

variable {kind : LiteralKind} {text rest body suffix escape : List Char} {c : Char} {n : Nat}

/-! ## Escapes -/

/-- A character of an escape. -/
def isEscapePart (c : Char) : Bool :=
  Charset.isHexDigit c || "xnrt\\'\"u_\x7b\x7d".toList.contains c

/-- The text is an escape behind its backslash, whatever follows. -/
structure IsEscape (kind : LiteralKind) (escape : List Char) : Prop where
  measured : ∀ rest, shortEscapeLength? kind (escape ++ rest) = some escape.length
  parts : ∀ c ∈ escape, isEscapePart c = true

theorem isEscapePart_of_isHexDigit (h : Charset.isHexDigit c = true) : isEscapePart c = true := by
  rw [isEscapePart, h, Bool.true_or]

/-- The digits of a numeric escape end with their brace. -/
theorem unicodeDigits?_eq_some {value count v : Nat}
    (h : unicodeDigits? value count text = some (v, n)) :
    ∃ digits rest, text = digits ++ rest ∧ digits.length = n ∧
      (∀ rest, unicodeDigits? value count (digits ++ rest) = some (v, n)) ∧
      ∀ c ∈ digits, isEscapePart c = true := by
  induction text generalizing value count n with
  | nil => contradiction
  | cons c text ih =>
    -- A character that is passed over stands in front of what is found behind it.
    have hstep {value' count' : Nat} (hc : isEscapePart c = true)
        (hmore : ∀ rest, unicodeDigits? value count (c :: rest) =
          (unicodeDigits? value' count' rest).map fun found => (found.1, found.2 + 1)) :
        ∃ digits rest, c :: text = digits ++ rest ∧ digits.length = n ∧
          (∀ rest, unicodeDigits? value count (digits ++ rest) = some (v, n)) ∧
          ∀ c ∈ digits, isEscapePart c = true := by
      rw [hmore] at h
      obtain ⟨⟨v', m⟩, hrest, heq⟩ := Option.map_eq_some_iff.1 h
      cases heq
      obtain ⟨digits, rest, rfl, rfl, hmeasured, hparts⟩ := ih hrest
      refine ⟨c :: digits, rest, rfl, rfl, fun rest => ?_, List.forall_mem_cons.2 ⟨hc, hparts⟩⟩
      rw [List.cons_append, hmore, hmeasured]
      rfl
    -- An underscore behind a digit is passed over.
    by_cases hline : (c == '_' && 0 < count) = true
    · refine hstep ?_ fun rest => if_pos hline
      obtain rfl := eq_of_beq (Bool.and_eq_true_iff.1 hline).1
      decide
    -- The brace behind a digit ends the escape.
    by_cases hclose : (c == '\x7d' && 0 < count) = true
    · rw [unicodeDigits?, if_neg hline, if_pos hclose] at h
      cases h
      refine ⟨[c], text, rfl, rfl, fun rest => ?_, ?_⟩
      · rw [List.cons_append, unicodeDigits?, if_neg hline, if_pos hclose]
      · obtain rfl := eq_of_beq (Bool.and_eq_true_iff.1 hclose).1
        decide
    -- Anything else has to be one of six digits.
    by_cases hdigit : (!Charset.isHexDigit c || count == 6) = true
    · rw [unicodeDigits?, if_neg hline, if_neg hclose, if_pos hdigit] at h
      contradiction
    · have hmore (rest : List Char) := unicodeDigits?.eq_2 value count c rest
      simp only [if_neg hline, if_neg hclose, if_neg hdigit] at hmore
      exact hstep (isEscapePart_of_isHexDigit (by grind)) hmore

theorem unicodeEscape?_eq_some {v : Nat} (h : unicodeEscape? text = some (v, n)) :
    ∃ digits rest, text = digits ++ rest ∧ digits.length = n ∧
      (∀ rest, unicodeEscape? (digits ++ rest) = some (v, n)) ∧
      ∀ c ∈ digits, isEscapePart c = true := by
  unfold unicodeEscape? at h
  split at h
  · split at h
    · rename_i value m hdigits
      split at h
      · rename_i hvalid
        cases h
        obtain ⟨digits, rest, rfl, rfl, hmeasured, hparts⟩ := unicodeDigits?_eq_some hdigits
        refine ⟨'\x7b' :: digits, rest, rfl, rfl, fun rest => ?_, ?_⟩
        · rw [List.cons_append, unicodeEscape?, hmeasured]
          exact if_pos hvalid
        · exact List.forall_mem_cons.2 ⟨by decide, hparts⟩
      · contradiction
    · contradiction
  · contradiction

theorem byteEscapeLength?_eq_some (h : byteEscapeLength? kind text = some n) :
    ∃ digits rest, text = digits ++ rest ∧ digits.length + 1 = n ∧
      (∀ rest, byteEscapeLength? kind (digits ++ rest) = some n) ∧
      ∀ c ∈ digits, isEscapePart c = true := by
  unfold byteEscapeLength? at h
  split at h
  · rename_i a b rest
    have hthree : n = 3 := by grind
    refine ⟨[a, b], rest, rfl, hthree.symm, fun _ => h, ?_⟩
    split at h
    · contradiction
    · rename_i hdigits
      have ha : isEscapePart a = true := isEscapePart_of_isHexDigit (by grind)
      have hb : isEscapePart b = true := isEscapePart_of_isHexDigit (by grind)
      simp [ha, hb]
  · contradiction

/-- An escape is told by what it starts with. -/
theorem isEscape_of_shortEscapeLength? (h : shortEscapeLength? kind text = some n) :
    ∃ escape rest, text = escape ++ rest ∧ escape.length = n ∧ IsEscape kind escape := by
  fun_cases shortEscapeLength? kind text with
  -- The four ways in which an escape can start; in every other case none is measured.
  | case2 c text hx =>
    -- A byte in two digits.
    rw [shortEscapeLength?, if_pos hx] at h
    obtain ⟨digits, rest, rfl, rfl, hmeasured, hparts⟩ := byteEscapeLength?_eq_some h
    refine ⟨c :: digits, rest, rfl, rfl, fun rest => ?_, List.forall_mem_cons.2 ⟨?_, hparts⟩⟩
    · rw [List.cons_append, shortEscapeLength?, if_pos hx, hmeasured, List.length_cons]
    · obtain rfl := eq_of_beq hx
      decide
  | case3 c text hx hsingle =>
    -- One character that stands for another.
    rw [shortEscapeLength?, if_neg hx, if_pos hsingle] at h
    obtain rfl := Option.some.inj h
    refine ⟨[c], text, rfl, rfl, fun rest => ?_, List.forall_mem_singleton.2 ?_⟩
    · rw [List.cons_append, shortEscapeLength?, if_neg hx, if_pos hsingle, List.length_singleton]
    · simp only [Bool.or_eq_true, beq_iff_eq] at hsingle
      rcases hsingle with ((((rfl | rfl) | rfl) | rfl) | rfl) | rfl <;> decide
  | case5 c text hx hsingle hzero hkind =>
    -- The NUL, which a C string may not hold.
    rw [shortEscapeLength?, if_neg hx, if_neg hsingle, if_pos hzero, if_neg hkind] at h
    obtain rfl := Option.some.inj h
    refine ⟨[c], text, rfl, rfl, fun rest => ?_, List.forall_mem_singleton.2 ?_⟩
    · rw [List.cons_append, shortEscapeLength?, if_neg hx, if_neg hsingle, if_pos hzero,
        if_neg hkind, List.length_singleton]
    · obtain rfl := eq_of_beq hzero
      decide
  | case7 c text hx hsingle hzero hu value m hdigits hvalue =>
    -- Digits in braces, which a byte string may not hold.
    rw [shortEscapeLength?, if_neg hx, if_neg hsingle, if_neg hzero, if_pos hu, hdigits] at h
    dsimp only at h
    rw [if_neg hvalue] at h
    obtain rfl := Option.some.inj h
    obtain ⟨digits, rest, rfl, rfl, hmeasured, hparts⟩ := unicodeEscape?_eq_some hdigits
    refine ⟨c :: digits, rest, rfl, rfl, fun rest => ?_, List.forall_mem_cons.2 ⟨?_, hparts⟩⟩
    · rw [List.cons_append, shortEscapeLength?, if_neg hx, if_neg hsingle, if_neg hzero,
        if_pos hu, hmeasured]
      exact if_neg hvalue
    · obtain rfl : c = 'u' := eq_of_beq (Bool.and_eq_true_iff.1 hu).1
      decide
  | _ => simp_all [shortEscapeLength?]

/-! ## Quoted literals -/

/-- No escape starts with a line ending. -/
theorem IsEscape.ne_nil (h : IsEscape kind escape) : escape ≠ [] := by
  rintro rfl
  exact absurd (h.measured []) (by simp [shortEscapeLength?])

theorem isEscapePart_lineEnding {c : Char} (h : isEscapePart c = true) : c ≠ '\n' ∧ c ≠ '\r' := by
  constructor <;> rintro rfl <;> exact absurd h (by decide)

/-- What stands behind the opening quote of a literal, with the closing quote. A line continuation
is a backslash in front of a line ending; the blanks that it leaves out may stand in the literal
anyway. -/
inductive Quoted (kind : LiteralKind) : List Char → Prop
  | close : Quoted kind ['"']
  | plain {c : Char} {body : List Char} : kind.admits c = true → c ≠ '"' → c ≠ '\r' → c ≠ '\\' →
    Quoted kind body → Quoted kind (c :: body)
  | line {body : List Char} : Quoted kind body → Quoted kind ('\r' :: '\n' :: body)
  | escape {escape body : List Char} : IsEscape kind escape → Quoted kind body →
    Quoted kind ('\\' :: (escape ++ body))
  | continuation {c : Char} {body : List Char} : c = '\n' ∨ c = '\r' → Quoted kind (c :: body) →
    Quoted kind ('\\' :: c :: body)

/-- The blanks of a line continuation may stand in a literal. -/
theorem admits_blank (kind : LiteralKind) (h : (c == ' ' || c == '\t' || c == '\n') = true) :
    kind.admits c = true := by
  simp only [Bool.or_eq_true, beq_iff_eq] at h
  rcases h with (rfl | rfl) | rfl <;> cases kind <;> decide

/-- A plain character is part of the literal. -/
theorem quotedLength?_plain (hc : kind.admits c = true) (hquote : c ≠ '"') (hreturn : c ≠ '\r')
    (hslash : c ≠ '\\') (rest : List Char) :
    quotedLength? kind 0 (c :: rest) = (quotedLength? kind 0 rest).map (· + 1) := by
  rw [quotedLength?.eq_6 kind c rest hquote hreturn hslash, if_pos hc]

/-- A carriage return is part of a line ending. -/
theorem quotedLength?_line (rest : List Char) :
    quotedLength? kind 0 ('\r' :: '\n' :: rest) = (quotedLength? kind 0 rest).map (· + 2) := by
  rw [quotedLength?.eq_4, List.head?_cons, if_pos rfl, quotedLength?.eq_2, Option.map_map]
  rfl

/-- Passing over the blanks of a line continuation comes to the same as reading them. -/
theorem quotedLength?_continuationLength? (kind : LiteralKind) (text : List Char) :
    (continuationLength? text).bind (fun n => quotedLength? kind n text) =
      quotedLength? kind 0 text := by
  fun_induction continuationLength? text with
  | case1 => rfl
  | case2 rest ih =>
    rw [quotedLength?_line, ← ih]
    cases continuationLength? rest with
    | none => rfl
    | some n =>
      simp only [Option.map_some, Option.bind_some, quotedLength?.eq_2, Option.map_map]
      rfl
  | case3 rest hrest =>
    -- A carriage return must be followed by a line feed.
    rw [quotedLength?.eq_4, if_neg]
    · rfl
    · intro hhead
      cases rest with
      | nil => contradiction
      | cons c rest =>
        obtain rfl := Option.some.inj hhead
        exact hrest rest rfl
  | case4 c rest hr hr' hblank ih =>
    -- Any other blank character is one that the string admits.
    rw [quotedLength?_plain (admits_blank kind hblank) (by grind) (by grind) (by grind), ← ih]
    cases continuationLength? rest with
    | none => rfl
    | some n => rfl
  | case5 c rest hr hr' hblank => rfl

/-- So a backslash in front of a line ending adds its own length. -/
theorem quotedLength?_continuation (hc : c = '\n' ∨ c = '\r') (rest : List Char) :
    quotedLength? kind 0 ('\\' :: c :: rest) = (quotedLength? kind 0 (c :: rest)).map (· + 1) := by
  have hlength : escapeLength? kind (c :: rest) = continuationLength? (c :: rest) := by
    rcases hc with rfl | rfl <;> rfl
  rw [quotedLength?.eq_5, hlength, ← quotedLength?_continuationLength?]
  cases continuationLength? (c :: rest) <;> rfl

/-- An escape is part of the literal. -/
theorem quotedLength?_escape (h : IsEscape kind escape) (rest : List Char) :
    quotedLength? kind 0 ('\\' :: (escape ++ rest)) =
      (quotedLength? kind 0 rest).map (· + (escape.length + 1)) := by
  have hlength : escapeLength? kind (escape ++ rest) = some escape.length := by
    obtain ⟨c, others, rfl⟩ := List.exists_cons_of_ne_nil h.ne_nil
    obtain ⟨hn, hr⟩ := isEscapePart_lineEnding (h.parts c List.mem_cons_self)
    rw [← h.measured rest]
    unfold escapeLength?
    grind
  rw [quotedLength?.eq_5, hlength]
  dsimp only
  rw [quotedLength?_skip, Option.map_map]
  rfl

theorem Quoted.ne_nil (h : Quoted kind body) : body ≠ [] := by
  cases h <;> exact List.cons_ne_nil _ _

/-- Whatever follows, the literal ends with its closing quote. -/
theorem Quoted.length_append (h : Quoted kind body) (rest : List Char) :
    quotedLength? kind 0 (body ++ rest) = some body.length := by
  induction h with
  | close => rfl
  | plain hc hquote hreturn hslash _ ih =>
    rw [List.cons_append, quotedLength?_plain hc hquote hreturn hslash, ih]
    rfl
  | line _ ih =>
    rw [List.cons_append, List.cons_append, quotedLength?_line, ih]
    rfl
  | escape hescape _ ih =>
    rw [List.cons_append, List.append_assoc, quotedLength?_escape hescape, ih]
    simp
    omega
  | continuation hc _ ih =>
    rw [List.cons_append, List.cons_append, quotedLength?_continuation hc, ← List.cons_append, ih]
    rfl

/-- Behind a backslash stands a line ending or an escape. -/
theorem escapeLength?_eq_some (h : escapeLength? kind text = some n) :
    (∃ c rest, text = c :: rest ∧ (c = '\n' ∨ c = '\r')) ∨
      shortEscapeLength? kind text = some n := by
  unfold escapeLength? at h
  split at h
  · exact .inl ⟨_, _, rfl, .inl rfl⟩
  · exact .inl ⟨_, _, rfl, .inr rfl⟩
  · exact .inr h

/-- The closing quote is the last character. -/
theorem Quoted.getLast? (h : Quoted kind body) : body.getLast? = some '"' := by
  induction h with
  | close => rfl
  | plain _ _ _ _ _ ih => rw [List.getLast?_cons, ih, Option.getD_some]
  | line _ ih => rw [List.getLast?_cons, List.getLast?_cons, ih, Option.getD_some, Option.getD_some]
  | escape _ _ ih =>
    rw [List.getLast?_cons, List.getLast?_append, ih, Option.some_or, Option.getD_some]
  | continuation _ _ ih => rw [List.getLast?_cons, ih, Option.getD_some]

/-- What is measured as a literal is one. -/
theorem quoted_of_quotedLength? (h : quotedLength? kind 0 text = some n) :
    ∃ body rest, text = body ++ rest ∧ body.length = n ∧ Quoted kind body := by
  -- An escape takes several characters at once, so the induction is on the length.
  induction hlength : text.length using Nat.strong_induction_on generalizing text n with
  | _ length ih =>
  subst hlength
  cases text with
  | nil => contradiction
  | cons c text =>
  by_cases hquote : c = '"'
  · subst hquote
    obtain rfl := Option.some.inj h
    exact ⟨['"'], text, rfl, rfl, .close⟩
  -- A carriage return has to stand in front of a line feed.
  by_cases hreturn : c = '\r'
  · subst hreturn
    cases text with
    | nil => contradiction
    | cons d text =>
      by_cases hd : d = '\n'
      · subst hd
        rw [quotedLength?_line] at h
        obtain ⟨m, hm, rfl⟩ := Option.map_eq_some_iff.1 h
        have hlt : text.length < ('\r' :: '\n' :: text).length := by
          simp only [List.length_cons]
          omega
        obtain ⟨body, rest, rfl, rfl, hbody⟩ := ih text.length hlt hm rfl
        exact ⟨'\r' :: '\n' :: body, rest, rfl, rfl, .line hbody⟩
      · rw [quotedLength?.eq_4, List.head?_cons, if_neg (mt Option.some.inj hd)] at h
        contradiction
  -- A backslash begins an escape, or ends a line that goes on below.
  by_cases hslash : c = '\\'
  · subst hslash
    cases hescape : escapeLength? kind text with
    | none =>
      rw [quotedLength?.eq_5, hescape] at h
      contradiction
    | some k =>
      rcases escapeLength?_eq_some hescape with ⟨d, text, rfl, hd⟩ | hshort
      · rw [quotedLength?_continuation hd] at h
        obtain ⟨m, hm, rfl⟩ := Option.map_eq_some_iff.1 h
        obtain ⟨body, rest, heq, rfl, hbody⟩ := ih (d :: text).length (by simp) hm rfl
        obtain ⟨e, body, rfl⟩ := List.exists_cons_of_ne_nil hbody.ne_nil
        obtain ⟨rfl, rfl⟩ := List.cons.inj heq
        exact ⟨'\\' :: d :: body, rest, rfl, rfl, .continuation hd hbody⟩
      · -- The escape is passed over as a whole.
        obtain ⟨escape, others, rfl, rfl, hparts⟩ := isEscape_of_shortEscapeLength? hshort
        rw [quotedLength?_escape hparts] at h
        obtain ⟨m, hm, rfl⟩ := Option.map_eq_some_iff.1 h
        have hlt : others.length < ('\\' :: (escape ++ others)).length := by
          simp only [List.length_cons, List.length_append]
          omega
        obtain ⟨body, rest, rfl, rfl, hbody⟩ := ih others.length hlt hm rfl
        refine ⟨'\\' :: (escape ++ body), rest, by simp, ?_, .escape hparts hbody⟩
        simp
        omega
  -- Any other character stands for itself.
  rw [quotedLength?.eq_6 kind c text hquote hreturn hslash] at h
  split at h
  · rename_i hc
    obtain ⟨m, hm, rfl⟩ := Option.map_eq_some_iff.1 h
    obtain ⟨body, rest, rfl, rfl, hbody⟩ := ih text.length (by simp) hm rfl
    exact ⟨c :: body, rest, rfl, rfl, .plain hc hquote hreturn hslash hbody⟩
  · contradiction

/-! ## Raw literals -/

/-- What stands behind the opening quote of a raw literal, with the closing quote and the hash signs
behind it. -/
inductive RawBody (kind : LiteralKind) (hashes : Nat) : List Char → Prop
  | close : RawBody kind hashes ('"' :: List.replicate hashes '#')
  | quote {body : List Char} : ¬ List.replicate hashes '#' <+: body → RawBody kind hashes body →
    RawBody kind hashes ('"' :: body)
  | line {body : List Char} : RawBody kind hashes body → RawBody kind hashes ('\r' :: '\n' :: body)
  | plain {c : Char} {body : List Char} : kind.admits c = true → c ≠ '"' → c ≠ '\r' →
    RawBody kind hashes body → RawBody kind hashes (c :: body)

variable {hashes : Nat}

theorem RawBody.lt_length (h : RawBody kind hashes body) : hashes < body.length := by
  induction h with
  | close => simp
  | quote _ _ ih => exact Nat.lt_succ_of_lt ih
  | line _ ih => exact Nat.lt_succ_of_lt (Nat.lt_succ_of_lt ih)
  | plain _ _ _ _ ih => exact Nat.lt_succ_of_lt ih

/-- The hash signs of a terminator do not reach behind the body. -/
theorem RawBody.not_prefix_append (h : RawBody kind hashes body)
    (hstarts : ¬ List.replicate hashes '#' <+: body) (rest : List Char) :
    ¬ List.replicate hashes '#' <+: body ++ rest := fun happend =>
  hstarts (List.prefix_of_prefix_length_le happend (List.prefix_append body rest)
    (by rw [List.length_replicate]; exact Nat.le_of_lt h.lt_length))

theorem rawBodyLength?_plain (hc : kind.admits c = true) (hquote : c ≠ '"') (hreturn : c ≠ '\r')
    (rest : List Char) :
    rawBodyLength? kind hashes (c :: rest) = (rawBodyLength? kind hashes rest).map (· + 1) := by
  rw [rawBodyLength?.eq_5 kind hashes c rest hquote (fun _ h => absurd h hreturn) hreturn,
    if_pos hc]

/-- Whatever follows, the literal ends with its terminator. -/
theorem RawBody.length_append (h : RawBody kind hashes body) (rest : List Char) :
    rawBodyLength? kind hashes (body ++ rest) = some body.length := by
  induction h with
  | close =>
    rw [List.cons_append, rawBodyLength?.eq_2,
      if_pos (List.isPrefixOf_iff_prefix.2 (List.prefix_append _ _)), List.length_cons,
      List.length_replicate]
  | quote hstarts hbody ih =>
    rw [List.cons_append, rawBodyLength?.eq_2,
      if_neg (mt List.isPrefixOf_iff_prefix.1 (hbody.not_prefix_append hstarts rest)), ih]
    rfl
  | line _ ih =>
    rw [List.cons_append, List.cons_append, rawBodyLength?.eq_3, ih]
    rfl
  | plain hc hquote hreturn _ ih =>
    rw [List.cons_append, rawBodyLength?_plain hc hquote hreturn, ih]
    rfl

/-- The last character is the closing quote or a hash sign. -/
theorem RawBody.getLast? (h : RawBody kind hashes body) :
    ∃ c, body.getLast? = some c ∧ c ∈ ['"', '#'] := by
  induction h with
  | close =>
    rw [List.getLast?_cons, List.getLast?_replicate]
    split
    · exact ⟨'"', rfl, by decide⟩
    · exact ⟨'#', rfl, by decide⟩
  | line _ ih =>
    obtain ⟨c, hlast, hc⟩ := ih
    exact ⟨c, by rw [List.getLast?_cons, List.getLast?_cons, hlast]; rfl, hc⟩
  | quote _ _ ih | plain _ _ _ _ ih =>
    obtain ⟨c, hlast, hc⟩ := ih
    exact ⟨c, by rw [List.getLast?_cons, hlast]; rfl, hc⟩

/-- What is measured as the rest of a raw literal is one. -/
theorem rawBody_of_rawBodyLength? (h : rawBodyLength? kind hashes text = some n) :
    ∃ body rest, text = body ++ rest ∧ body.length = n ∧ RawBody kind hashes body := by
  fun_induction rawBodyLength? kind hashes text generalizing n with
  | case1 => contradiction
  | case2 rest hstarts =>
    obtain rfl := Option.some.inj h
    obtain ⟨others, rfl⟩ := List.isPrefixOf_iff_prefix.1 hstarts
    exact ⟨_, others, rfl, by simp, .close⟩
  | case3 rest hstarts ih =>
    obtain ⟨m, hm, rfl⟩ := Option.map_eq_some_iff.1 h
    obtain ⟨body, rest, rfl, rfl, hbody⟩ := ih hm
    -- Too few hash signs follow this quote, so it is part of the body.
    refine ⟨'"' :: body, rest, rfl, rfl, .quote (fun hbody => hstarts ?_) hbody⟩
    exact List.isPrefixOf_iff_prefix.2 (hbody.trans (List.prefix_append body rest))
  | case4 rest ih =>
    obtain ⟨m, hm, rfl⟩ := Option.map_eq_some_iff.1 h
    obtain ⟨body, rest, rfl, rfl, hbody⟩ := ih hm
    exact ⟨'\r' :: '\n' :: body, rest, rfl, rfl, .line hbody⟩
  | case5 => contradiction
  | case6 c rest hquote hline hreturn hc ih =>
    obtain ⟨m, hm, rfl⟩ := Option.map_eq_some_iff.1 h
    obtain ⟨body, rest, rfl, rfl, hbody⟩ := ih hm
    exact ⟨c :: body, rest, rfl, rfl, .plain hc hquote hreturn hbody⟩
  | case7 => contradiction

/-- A quote stops the count of hash signs. -/
theorem takeWhile_hashes (hashes : Nat) (rest : List Char) :
    (List.replicate hashes '#' ++ '"' :: rest).takeWhile (· == '#') =
      List.replicate hashes '#' := by
  induction hashes with
  | zero => rfl
  | succ hashes ih => exact congrArg ('#' :: ·) ih

/-- A raw literal behind its letters. -/
theorem RawBody.rawLength?_append (h : RawBody kind hashes body) (hle : hashes ≤ 255)
    (rest : List Char) :
    rawLength? kind (List.replicate hashes '#' ++ '"' :: (body ++ rest)) =
      some (body.length + (hashes + 1)) := by
  simp only [rawLength?, takeWhile_hashes, List.length_replicate]
  rw [List.drop_left' (List.length_replicate ..)]
  simp only
  rw [if_neg (Nat.not_lt.2 hle), h.length_append]
  rfl

theorem rawBody_of_rawLength? (h : rawLength? kind text = some n) :
    ∃ hashes body rest, text = List.replicate hashes '#' ++ '"' :: (body ++ rest) ∧
      body.length + (hashes + 1) = n ∧ hashes ≤ 255 ∧ RawBody kind hashes body := by
  simp only [rawLength?] at h
  have hfront : text.takeWhile (· == '#') =
      List.replicate (text.takeWhile (· == '#')).length '#' :=
    List.eq_replicate_iff.2
      ⟨rfl, fun c hc => eq_of_beq (List.all_eq_true.1 List.all_takeWhile c hc)⟩
  split at h
  · rename_i others hdrop
    split at h
    · contradiction
    · rename_i hle
      obtain ⟨m, hm, rfl⟩ := Option.map_eq_some_iff.1 h
      obtain ⟨body, rest, rfl, rfl, hbody⟩ := rawBody_of_rawBodyLength? hm
      refine ⟨_, body, rest, ?_, rfl, Nat.le_of_not_lt hle, hbody⟩
      rw [← hfront, ← hdrop]
      exact List.prefix_append_drop (List.takeWhile_prefix _)
  · contradiction

/-! ## Characters -/

/-- What stands behind the opening apostrophe of a character literal, with the closing one. -/
inductive CharacterBody (kind : LiteralKind) : List Char → Prop
  | plain {c : Char} : kind.admits c = true → c ≠ '\\' → CharacterBody kind [c, '\'']
  | escape {escape : List Char} : IsEscape kind escape →
    CharacterBody kind ('\\' :: (escape ++ ['\'']))

theorem CharacterBody.length_append (h : CharacterBody kind body) (rest : List Char) :
    characterLength? kind (body ++ rest) = some body.length := by
  cases h with
  | plain hc hslash =>
    rw [List.cons_append, characterLength?.eq_3 kind _ _ hslash, if_pos hc]
    rfl
  | @escape escape hescape =>
    have hclose : ((escape ++ (['\''] ++ rest)).drop escape.length).head? = some '\'' := by
      rw [List.drop_left]
      rfl
    rw [List.cons_append, List.append_assoc, characterLength?, hescape.measured]
    dsimp only
    rw [if_pos hclose]
    simp

theorem CharacterBody.getLast? (h : CharacterBody kind body) : body.getLast? = some '\'' := by
  cases h with
  | plain => rfl
  | escape => rw [List.getLast?_cons, List.getLast?_concat, Option.getD_some]

theorem characterBody_of_characterLength? (h : characterLength? kind text = some n) :
    ∃ body rest, text = body ++ rest ∧ body.length = n ∧ CharacterBody kind body := by
  unfold characterLength? at h
  split at h
  · contradiction
  · rename_i others
    split at h
    · -- An escape, with the apostrophe behind it.
      rename_i m hm
      split at h
      · -- A single character, with the apostrophe behind it.
        rename_i hclose
        obtain rfl := Option.some.inj h
        obtain ⟨escape, rest, rfl, rfl, hescape⟩ := isEscape_of_shortEscapeLength? hm
        rw [List.drop_left] at hclose
        obtain ⟨rest, rfl⟩ := List.head?_eq_some_iff.1 hclose
        exact ⟨'\\' :: (escape ++ ['\'']), rest, by simp, by simp, .escape hescape⟩
      · contradiction
    · contradiction
  · rename_i c others hslash
    split at h
    · rename_i hc
      split at h
      · rename_i hclose
        obtain rfl := Option.some.inj h
        obtain ⟨rest, rfl⟩ := List.head?_eq_some_iff.1 hclose
        exact ⟨[c, '\''], rest, rfl, rfl, .plain hc hslash⟩
      · contradiction
    · contradiction

/-! ## Blanks -/

/-- The code points of the blanks. -/
def blanks : List Nat :=
  List.range' 9 5 ++ [0x20, 0x85, 0xA0, 0x1680] ++ List.range' 0x2000 11 ++
    [0x200E, 0x200F, 0x2028, 0x2029, 0x202F, 0x205F, 0x3000]

theorem toNat_mem_blanks {c : Char} (h : isBlank c = true) : c.toNat ∈ blanks := by
  simp only [isBlank, Charset.isWhitespace, Bool.or_eq_true, Bool.and_eq_true,
    decide_eq_true_eq, beq_iff_eq] at h
  simp only [blanks, List.mem_append, List.mem_range'_1, List.mem_cons, List.not_mem_nil, or_false]
  rcases h with (h | rfl) | rfl
  · omega
  · simp
  · simp

theorem isNameStart_of_mem_blanks : ∀ n ∈ blanks, isNameStart (Char.ofNat n) = false := by
  decide +kernel

/-- No identifier starts with a blank. -/
theorem isBlank_of_isNameStart (h : isNameStart c = true) : isBlank c = false := by
  refine Bool.eq_false_iff.2 fun hblank => ?_
  have hstart := isNameStart_of_mem_blanks c.toNat (toNat_mem_blanks hblank)
  rw [Char.ofNat_toNat, h] at hstart
  contradiction

/-! ## Literals -/

/-- The letters in front of a quote that tell the kind. -/
def LiteralKind.letters : LiteralKind → List Char
  | .text => []
  | .bytes => ['b']
  | .cText => ['c']

/-- The text is a suffix, or nothing. -/
def IsSuffix (text : List Char) : Prop := nameLength text = text.length

/-- No character that ends a name stands in a suffix. -/
theorem IsSuffix.not_mem (h : IsSuffix suffix) : ∀ c ∈ suffix, c ∉ endMarks := by
  cases suffix with
  | nil => exact fun _ hmem => absurd hmem List.not_mem_nil
  | cons d suffix =>
    have hstart : isNameStart d = true := by
      rw [IsSuffix, nameLength] at h
      split at h
      · assumption
      · contradiction
    intro c hc hmem
    rcases List.mem_cons.1 hc with rfl | hc
    · rw [isNameStart_of_mem_endMarks c hmem] at hstart
      contradiction
    · have hrest := isIdentifierContinue_of_nameLength h c hc
      rw [isIdentifierContinue_of_mem_endMarks c hmem] at hrest
      contradiction

/-- The text is one literal from its first character to its last. -/
inductive IsLiteral : List Char → Prop
  | quoted {kind : LiteralKind} {body suffix : List Char} : Quoted kind body → IsSuffix suffix →
    IsLiteral (kind.letters ++ '"' :: (body ++ suffix))
  | raw {kind : LiteralKind} {hashes : Nat} {body suffix : List Char} : hashes ≤ 255 →
    RawBody kind hashes body → IsSuffix suffix →
    IsLiteral (kind.letters ++ 'r' :: ((List.replicate hashes '#' ++ '"' :: body) ++ suffix))
  | character {kind : LiteralKind} {body suffix : List Char} : kind ≠ .cText →
    CharacterBody kind body → IsSuffix suffix →
    IsLiteral (kind.letters ++ '\'' :: (body ++ suffix))
  | number {text : List Char} : IsNumber text → IsLiteral text
  | failed : IsLiteral failedExpansion.toList

/-- The characters that literals start with. -/
def literalStarts : List Char := "\"'rbc0123456789".toList

theorem mem_literalStarts_of_isAsciiDigit (h : Charset.isAsciiDigit c = true) :
    c ∈ literalStarts := by
  simp only [Charset.isAsciiDigit, Bool.and_eq_true, decide_eq_true_eq] at h
  have hlow : '0'.toNat ≤ c.toNat := h.1
  have hhigh : c.toNat ≤ '9'.toNat := h.2
  simp only [Char.reduceToNat] at hlow hhigh
  have hdigits : ∀ n < 58, 48 ≤ n → Char.ofNat n ∈ literalStarts := by decide
  have hmem := hdigits c.toNat (by omega) hlow
  rwa [Char.ofNat_toNat] at hmem

/-- A literal starts with one of a few characters. -/
theorem IsLiteral.head? (h : IsLiteral text) :
    ∃ c, text.head? = some c ∧ c ∈ '(' :: literalStarts := by
  cases h with
  | @quoted kind body suffix => cases kind <;> exact ⟨_, rfl, by decide⟩
  | @raw kind => cases kind <;> exact ⟨_, rfl, by decide⟩
  | @character kind => cases kind <;> exact ⟨_, rfl, by decide⟩
  | number h =>
    obtain ⟨c, rest, rfl⟩ := List.exists_cons_of_ne_nil h.ne_nil
    have hdigit := isAsciiDigit_of_numberLength? h
    exact ⟨c, rfl, List.mem_cons_of_mem _ (mem_literalStarts_of_isAsciiDigit hdigit)⟩
  | failed => exact ⟨'(', rfl, by decide⟩

/-- The suffix of a literal ends where a name does. -/
theorem suffixed_append (lead : List Char) {length? : Option Nat}
    (hbody : length? = some body.length) (hsuffix : IsSuffix suffix) (h : Ends rest) :
    suffixed (lead ++ (body ++ (suffix ++ rest))) lead.length length? =
      some (lead ++ (body ++ suffix)).length := by
  rw [suffixed, hbody, Option.map_some, ← List.length_append, ← List.append_assoc, List.drop_left,
    h.nameLength_append, hsuffix]
  simp only [List.length_append, Nat.add_assoc]

/-- A literal starts with one of them. -/
theorem mem_literalStarts (h : literalLength? text = some n) :
    ∀ c ∈ text.head?, c ∈ literalStarts := by
  intro c hc
  fun_cases literalLength? text with
  | case9 =>
    cases text with
    | nil => contradiction
    | cons d text =>
      obtain rfl := Option.some.inj hc
      rw [literalLength?.eq_9] at h
      · exact mem_literalStarts_of_isAsciiDigit (isAsciiDigit_of_numberLength? h)
      all_goals assumption
  | _ =>
    obtain rfl := Option.some.inj hc
    decide

/-- Behind a digit nothing but a number is looked for. -/
theorem literalLength?_of_isAsciiDigit (h : Charset.isAsciiDigit c = true) (text : List Char) :
    literalLength? (c :: text) = numberLength? (c :: text) := by
  have hnone : ∀ d ∈ "\"'rbc".toList, Charset.isAsciiDigit d = false := by decide
  rw [literalLength?.eq_9]
  all_goals
    intros
    rename_i heq
    obtain ⟨rfl, -⟩ := List.cons.inj heq
    exact Bool.eq_false_iff.1 (hnone _ (by decide)) h

/-- Where a literal starts, the lexer takes it. -/
theorem lexeme?_of_literalLength? (h : literalLength? text = some n) :
    lexeme? text = some (.token (.literal (String.ofList (text.take n))), n) := by
  have hstart := mem_literalStarts h
  have hexpansion : failedExpansion.toList.isPrefixOf text = false := by
    refine Bool.eq_false_iff.2 fun hstarts => ?_
    obtain ⟨rest, rfl⟩ := List.isPrefixOf_iff_prefix.1 hstarts
    exact absurd (hstart '(' rfl) (by decide)
  have hblank : ∀ c ∈ literalStarts, isBlank c = false := by decide
  unfold lexeme?
  rw [hexpansion, if_neg Bool.false_ne_true]
  -- No comment, delimiter or blank starts like a literal.
  split
  case h_9 c rest _ _ _ _ _ _ _ _ =>
    rw [hblank c (hstart c rfl), if_neg Bool.false_ne_true, leaf?.eq_def, h]
  case h_10 => contradiction
  all_goals exact absurd (hstart _ rfl) (by decide)

/-- A literal in front of what ends it is measured to its last character. -/
theorem IsLiteral.literalLength?_append (h : IsLiteral text)
    (hfailed : text ≠ failedExpansion.toList) (hrest : Ends rest) :
    literalLength? (text ++ rest) = some text.length := by
  cases h with
  | @quoted kind body suffix hbody hsuffix =>
    -- Only the letters in front of the quote differ from kind to kind.
    have hlength := hbody.length_append (suffix ++ rest)
    rw [List.append_assoc, List.cons_append, List.append_assoc]
    cases kind with
    | text => exact suffixed_append ['"'] hlength hsuffix hrest
    | bytes => exact suffixed_append ['b', '"'] hlength hsuffix hrest
    | cText => exact suffixed_append ['c', '"'] hlength hsuffix hrest
  | @raw kind hashes body suffix hle hbody hsuffix =>
    -- The hash signs in front are measured with the body.
    have hlength : rawLength? kind
        ((List.replicate hashes '#' ++ '"' :: body) ++ (suffix ++ rest)) =
          some (List.replicate hashes '#' ++ '"' :: body).length := by
      rw [List.append_assoc, List.cons_append, hbody.rawLength?_append hle]
      simp
      omega
    rw [List.append_assoc, List.cons_append, List.append_assoc _ suffix]
    cases kind with
    | text => exact suffixed_append ['r'] hlength hsuffix hrest
    | bytes => exact suffixed_append ['b', 'r'] hlength hsuffix hrest
    | cText => exact suffixed_append ['c', 'r'] hlength hsuffix hrest
  | @character kind body suffix hkind hbody hsuffix =>
    have hlength := hbody.length_append (suffix ++ rest)
    rw [List.append_assoc, List.cons_append, List.append_assoc]
    cases kind with
    | text => exact suffixed_append ['\''] hlength hsuffix hrest
    | bytes => exact suffixed_append ['b', '\''] hlength hsuffix hrest
    | cText => exact absurd rfl hkind
  | number h =>
    -- A number has no letters in front, and ends where the rest does not go on with it.
    obtain ⟨c, text, rfl⟩ := List.exists_cons_of_ne_nil h.ne_nil
    rw [List.cons_append, literalLength?_of_isAsciiDigit (isAsciiDigit_of_numberLength? h),
      ← List.cons_append, hrest.numberLength?_append (List.cons_ne_nil c text)]
    exact h
  | failed => exact absurd rfl hfailed

theorem lexeme?_failedExpansion (rest : List Char) :
    lexeme? (failedExpansion.toList ++ rest) =
      some (.token (.literal failedExpansion), failedExpansion.toList.length) := by
  have hstarts : failedExpansion.toList.isPrefixOf (failedExpansion.toList ++ rest) = true :=
    List.isPrefixOf_iff_prefix.2 (List.prefix_append _ _)
  rw [lexeme?.eq_def, if_pos hstarts, String.length_toList]

/-- The lexer takes a literal in front of what ends it. -/
theorem IsLiteral.lexeme?_append (h : IsLiteral text) (hrest : Ends rest) :
    lexeme? (text ++ rest) = some (.token (.literal (String.ofList text)), text.length) := by
  by_cases hfailed : text = failedExpansion.toList
  · rw [hfailed, lexeme?_failedExpansion, String.ofList_toList]
  · rw [lexeme?_of_literalLength? (h.literalLength?_append hfailed hrest), List.take_left]

/-- A text starts with a literal of a length. -/
def StartsWith (text : List Char) (n : Nat) : Prop :=
  ∃ front rest, text = front ++ rest ∧ front.length = n ∧ IsLiteral front

/-- What is measured as a suffix is one. -/
theorem exists_suffix (text : List Char) :
    ∃ suffix rest, text = suffix ++ rest ∧ IsSuffix suffix ∧ suffix.length = nameLength text := by
  have hparts := List.take_append_drop (nameLength text) text
  have hlength := List.length_take_of_le (nameLength_le text)
  have hsuffix : nameLength (text.take (nameLength text) ++ text.drop (nameLength text)) =
      (text.take (nameLength text)).length := by rw [hparts, hlength]
  exact ⟨_, _, hparts.symm, nameLength_of_append hsuffix, hlength⟩

/-- A literal is what stands up to its closing quote, with a suffix. -/
theorem StartsWith.of_suffixed (lead : List Char) {length? : Option Nat}
    (h : suffixed (lead ++ text) lead.length length? = some n)
    (hbody : ∀ m, length? = some m → ∃ body others, text = body ++ others ∧ body.length = m ∧
      ∀ suffix, IsSuffix suffix → IsLiteral (lead ++ (body ++ suffix))) :
    StartsWith (lead ++ text) n := by
  obtain ⟨m, hm, hn⟩ := Option.map_eq_some_iff.1 h
  obtain ⟨body, others, rfl, rfl, hliteral⟩ := hbody m hm
  rw [← List.length_append, ← List.append_assoc, List.drop_left] at hn
  obtain ⟨suffix, rest, rfl, hsuffix, hlength⟩ := exists_suffix others
  refine ⟨lead ++ (body ++ suffix), rest, by simp, ?_, hliteral suffix hsuffix⟩
  simp only [List.length_append] at hn ⊢
  omega

/-- What is measured as a literal is one. -/
theorem startsWith_of_literalLength? (h : literalLength? text = some n) : StartsWith text n := by
  -- Each kind of literal is measured behind its letters, and may have a suffix.
  have hquoted (kind : LiteralKind) {others : List Char} {m : Nat}
      (hm : quotedLength? kind 0 others = some m) : ∃ body rest, others = body ++ rest ∧
        body.length = m ∧ ∀ suffix, IsSuffix suffix →
          IsLiteral (kind.letters ++ '"' :: (body ++ suffix)) := by
    obtain ⟨body, rest, rfl, rfl, hbody⟩ := quoted_of_quotedLength? hm
    exact ⟨body, rest, rfl, rfl, fun suffix => .quoted hbody⟩
  have hraw (kind : LiteralKind) {others : List Char} {m : Nat}
      (hm : rawLength? kind others = some m) : ∃ body rest, others = body ++ rest ∧
        body.length = m ∧ ∀ suffix, IsSuffix suffix →
          IsLiteral (kind.letters ++ 'r' :: (body ++ suffix)) := by
    obtain ⟨hashes, body, rest, rfl, rfl, hle, hbody⟩ := rawBody_of_rawLength? hm
    refine ⟨List.replicate hashes '#' ++ '"' :: body, rest, by simp, ?_,
      fun suffix => .raw hle hbody⟩
    simp
    omega
  have hcharacter (kind : LiteralKind) (hkind : kind ≠ .cText) {others : List Char} {m : Nat}
      (hm : characterLength? kind others = some m) : ∃ body rest, others = body ++ rest ∧
        body.length = m ∧ ∀ suffix, IsSuffix suffix →
          IsLiteral (kind.letters ++ '\'' :: (body ++ suffix)) := by
    obtain ⟨body, rest, rfl, rfl, hbody⟩ := characterBody_of_characterLength? hm
    exact ⟨body, rest, rfl, rfl, fun suffix => .character hkind hbody⟩
  -- The letters in front tell the kinds apart.
  unfold literalLength? at h
  split at h
  case h_1 others => exact .of_suffixed ['"'] h fun _ => hquoted .text
  case h_2 others => exact .of_suffixed ['r'] h fun _ => hraw .text
  case h_3 others => exact .of_suffixed ['b', '"'] h fun _ => hquoted .bytes
  case h_4 others => exact .of_suffixed ['b', 'r'] h fun _ => hraw .bytes
  case h_5 others => exact .of_suffixed ['c', '"'] h fun _ => hquoted .cText
  case h_6 others => exact .of_suffixed ['c', 'r'] h fun _ => hraw .cText
  case h_7 others => exact .of_suffixed ['b', '\''] h fun _ => hcharacter .bytes (by decide)
  case h_8 others => exact .of_suffixed ['\''] h fun _ => hcharacter .text (by decide)
  -- What has none of these letters is a number.
  case h_9 =>
    have hparts := List.take_append_drop n text
    have hlength : (text.take n).length = n := List.length_take_of_le (numberLength?_le h)
    have hnumber : numberLength? (text.take n ++ text.drop n) = some (text.take n).length := by
      rw [hparts, hlength, h]
    exact ⟨_, _, hparts.symm, hlength, .number (isNumber_of_append hnumber)⟩

/-! ## Literals that are written for others -/

/-- A hexadecimal digit adds its value. -/
theorem unicodeDigits?_digitChar {value count d : Nat} (hd : d < 16) (hcount : count ≠ 6)
    (rest : List Char) :
    unicodeDigits? value count (Nat.digitChar d :: rest) =
      (unicodeDigits? (value * 16 + d) (count + 1) rest).map fun (v, n) => (v, n + 1) := by
  have hdigits : ∀ d < 16, (Nat.digitChar d == '_') = false ∧ (Nat.digitChar d == '\x7d') = false ∧
      Charset.isHexDigit (Nat.digitChar d) = true ∧
      (if Charset.isAsciiDigit (Nat.digitChar d) then (Nat.digitChar d).toNat - '0'.toNat
        else if 'a' ≤ Nat.digitChar d then (Nat.digitChar d).toNat - 'a'.toNat + 10
        else (Nat.digitChar d).toNat - 'A'.toNat + 10) = d := by decide
  obtain ⟨hline, hclose, hhex, hvalue⟩ := hdigits d hd
  rw [unicodeDigits?, hline, hclose, hhex, hvalue]
  simp [hcount]

theorem unicodeDigits?_toDigits (m : Nat) {value count : Nat}
    (hcount : count + (Nat.toDigits 16 m).length ≤ 6) (rest : List Char) :
    unicodeDigits? value count (Nat.toDigits 16 m ++ rest) =
      (unicodeDigits? (value * 16 ^ (Nat.toDigits 16 m).length + m)
        (count + (Nat.toDigits 16 m).length) rest).map
          fun (v, n) => (v, n + (Nat.toDigits 16 m).length) := by
  induction m using Nat.strong_induction_on generalizing rest with
  | _ m ih =>
  by_cases hm : m < 16
  · rw [Nat.toDigits_of_lt_base hm] at hcount ⊢
    rw [List.cons_append, unicodeDigits?_digitChar hm (by simp at hcount; omega)]
    simp
  · -- All digits but the last one are those of the quotient.
    have hle : 16 ≤ m := Nat.le_of_not_lt hm
    have hlast : m % 16 < 16 := Nat.mod_lt m (by decide)
    rw [Nat.toDigits_of_base_le (by decide) hle, List.length_append,
      List.length_singleton] at hcount ⊢
    rw [List.append_assoc, ih (m / 16) (by omega) (by omega), List.cons_append,
      unicodeDigits?_digitChar hlast (by omega), List.nil_append, Option.map_map]
    have hvalue : (value * 16 ^ (Nat.toDigits 16 (m / 16)).length + m / 16) * 16 + m % 16 =
        value * 16 ^ ((Nat.toDigits 16 (m / 16)).length + 1) + m := by
      rw [Nat.pow_succ, Nat.add_mul, Nat.mul_assoc, Nat.add_assoc, Nat.div_add_mod']
    rw [hvalue]
    refine congrArg (Option.map · _) (funext fun (v, n) => ?_)
    simp only [Function.comp]
    exact congrArg (v, ·) (by omega)

/-- An escape is told by its own length. -/
theorem isEscape_of_length (h : shortEscapeLength? kind escape = some escape.length) :
    IsEscape kind escape := by
  obtain ⟨front, rest, hparts, hlength, hescape⟩ := isEscape_of_shortEscapeLength? h
  obtain rfl : rest = [] := by
    have hsum := congrArg List.length hparts
    rw [List.length_append] at hsum
    exact List.length_eq_zero_iff.1 (by omega)
  rw [List.append_nil] at hparts
  rwa [hparts]

/-- A character by its number is an escape. -/
theorem isEscape_number (c : Char) :
    IsEscape .text ('u' :: '\x7b' :: (hexDigits c.toNat ++ ['\x7d'])) := by
  have hvalid : Nat.isValidChar c.toNat := c.valid
  have hbound : c.toNat < 16 ^ 6 := by
    unfold Nat.isValidChar at hvalid
    omega
  have hlength : (Nat.toDigits 16 c.toNat).length ≤ 6 :=
    (Nat.length_toDigits_le_iff (by decide) (by decide)).2 hbound
  have hpos : 0 < (Nat.toDigits 16 c.toNat).length := Nat.length_toDigits_pos
  have hdigits : unicodeDigits? 0 0 (hexDigits c.toNat ++ ['\x7d']) =
      some (c.toNat, 1 + (Nat.toDigits 16 c.toNat).length) := by
    rw [hexDigits, unicodeDigits?_toDigits c.toNat (by omega), unicodeDigits?]
    simp [hpos]
  refine isEscape_of_length ?_
  rw [shortEscapeLength?, unicodeEscape?, hdigits]
  simp [hvalid, hexDigits]
  omega

/-- A character is written in a string literal as an escape, or as itself. -/
theorem quoted_escapeChar (c : Char) (h : Quoted .text body) :
    Quoted .text (escapeChar c ++ body) := by
  have hsingle : ∀ e ∈ "trn\\\"".toList, IsEscape .text [e] := by
    intro e he
    refine isEscape_of_length ?_
    simp at he
    rcases he with rfl | rfl | rfl | rfl | rfl <;> rfl
  unfold escapeChar
  split
  case h_6 hreturn _ hslash hquote =>
    split
    · exact .escape (isEscape_number c) h
    · exact .plain rfl hquote hreturn hslash h
  all_goals exact .escape (hsingle _ (by decide)) h

theorem quoted_literalBody (text : List Char) : Quoted .text (literalBody text ++ ['"']) := by
  induction text with
  | nil => exact .close
  | cons c text ih =>
    rw [literalBody.eq_def]
    dsimp only
    split
    · rw [List.append_assoc]
      have hshort : IsEscape .text ['0'] := isEscape_of_length rfl
      have hlong : IsEscape .text ['x', '0', '0'] := isEscape_of_length rfl
      split
      · split
        · exact .escape hlong ih
        · exact .escape hshort ih
      · exact .escape hshort ih
    · rw [List.append_assoc]
      exact quoted_escapeChar c ih

/-- A text as a string literal is a literal. -/
theorem isLiteral_literal (text : List Char) : IsLiteral (literal text) := by
  have hsuffix : IsSuffix [] := rfl
  have h := IsLiteral.quoted (quoted_literalBody text) hsuffix
  rwa [List.append_nil] at h

/-- So is a number in decimal digits. -/
theorem isLiteral_toString (n : Nat) : IsLiteral (toString n).toList := by
  refine .number (isNumber_of_isAsciiDigit ?_ fun c hc => ?_)
  · rw [Nat.toString_eq_ofList_toDigits, String.toList_ofList]
    exact Nat.toDigits_ne_nil
  · rw [Nat.toString_eq_ofList_toDigits, String.toList_ofList] at hc
    exact Nat.isDigit_of_mem_toDigits (by decide) (by decide) hc

end UnitLoader.Syntax
