import Mathlib.Data.List.TakeWhile
import UnitLoader.Dispatch.Basic
import UnitLoader.Proofs.Outline.Continuation
import UnitLoader.Proofs.Outline.Word
import UnitLoader.Proofs.Syntax.Literal

/-!
# Which names can be written

The outline takes every word behind a keyword for the name of a type, while a dispatch module can
name a type only by an identifier. `generate_of_resolveName` says where the two part: a unit whose
name is read off its source has a dispatch module exactly if the last word of the name is an
identifier and has a raw form or needs none. So `struct self` gives a unit without one
(`generate_self`), although its source is one for the compiler to refuse.

A word is no blank, mark, delimiter or quoted literal, so reading it as tokens comes down to
whether it is a name from its first character to its last (`identifier?_of_isName`,
`isName_of_identifier?`).
-/

namespace UnitLoader

open Outline (isWordPart IsWord)
open Text (Charset.isWhitespace Charset.isAsciiDigit Position)

namespace Syntax

/-! ## Characters of words -/

theorem isWordPart_of_mem_blanks : ∀ n ∈ blanks, isWordPart (Char.ofNat n) = false := by
  decide +kernel

/-- A character of a word is no blank. -/
theorem isBlank_of_isWordPart {c : Char} (h : isWordPart c = true) : isBlank c = false := by
  refine Bool.eq_false_iff.2 fun hblank => ?_
  have hpart := isWordPart_of_mem_blanks c.toNat (toNat_mem_blanks hblank)
  rw [Char.ofNat_toNat, h] at hpart
  contradiction

/-- No mark, delimiter or quote is a character of a word, nor is a byte order mark. -/
theorem isWordPart_of_mem_marks {c : Char}
    (hc : c ∈ "~!@#$%^&*-=+|;:,<.>/?'\"()[]\x7b\x7d\uFEFF".toList) : isWordPart c = false := by
  have hall : ("~!@#$%^&*-=+|;:,<.>/?'\"()[]\x7b\x7d\uFEFF".toList.all
      fun c => !isWordPart c) = true := by decide +kernel
  simpa using List.all_eq_true.1 hall c hc

/-- So none of these stands in a word. -/
theorem not_mem_of_isWord {text : List Char} (h : IsWord text) :
    ∀ c ∈ "~!@#$%^&*-=+|;:,<.>/?'\"()[]\x7b\x7d\uFEFF".toList, c ∉ text := fun c hc hmem => by
  have hpart := isWordPart_of_mem_marks hc
  rw [h.parts c hmem] at hpart
  contradiction

/-! ## The lexemes of a word -/

section Word

variable {text : List Char}

/-- Behind the letters of a raw literal stands a quote. -/
theorem rawLength?_eq_none (h : '"' ∉ text) (kind : LiteralKind) : rawLength? kind text = none := by
  simp only [rawLength?]
  split
  · rename_i body hdrop
    exact absurd (List.mem_of_mem_drop (hdrop ▸ List.mem_cons_self)) h
  · rfl

/-- A word that starts with no digit is no literal. -/
theorem literalLength?_of_isWord (h : IsWord text)
    (hdigit : ∀ c ∈ text.head?, Charset.isAsciiDigit c = false) : literalLength? text = none := by
  have hquote : '"' ∉ text := not_mem_of_isWord h '"' (by decide)
  have hapostrophe : '\'' ∉ text := not_mem_of_isWord h '\'' (by decide)
  -- The letters of a raw literal are followed by a quote sooner or later.
  have hraw (lead : List Char) {kind : LiteralKind} {rest : List Char}
      (htext : text = lead ++ rest) :
      suffixed text lead.length (rawLength? kind rest) = none := by
    have hrest : '"' ∉ rest := fun hmem => hquote (htext ▸ List.mem_append_right lead hmem)
    rw [rawLength?_eq_none hrest, suffixed, Option.map_none]
  fun_cases literalLength? text with
  | case2 rest => exact hraw ['r'] rfl
  | case4 rest => exact hraw ['b', 'r'] rfl
  | case6 rest => exact hraw ['c', 'r'] rfl
  | case9 =>
    cases text with
    | nil => rfl
    | cons c rest => rw [numberLength?, if_neg (Bool.eq_false_iff.1 (hdigit c rfl))]
  | case7 | case8 => exact absurd (by simp) hapostrophe
  | _ => exact absurd (by simp) hquote

/-- A word starts with no mark. -/
theorem startsMark_of_isWord (h : IsWord text) : startsMark text = false := by
  fun_cases startsMark text with
  | case3 c rest =>
    refine Bool.eq_false_iff.2 fun hmark => not_mem_of_isWord h c ?_ List.mem_cons_self
    exact List.mem_append_left "\"()[]\x7b\x7d\uFEFF".toList (List.contains_iff_mem.1 hmark)
  | _ => rfl

/-- A word does not start like a broken literal. -/
theorem startsLiteral_of_isWord (h : IsWord text) : startsLiteral text = false := by
  have hquote : '"' ∉ text := not_mem_of_isWord h '"' (by decide)
  have hapostrophe : '\'' ∉ text := not_mem_of_isWord h '\'' (by decide)
  have hhash : '#' ∉ text := not_mem_of_isWord h '#' (by decide)
  unfold startsLiteral
  split
  case h_11 => rfl
  all_goals simp at hquote hapostrophe hhash

/-- A word has no hash sign behind its first letter, so what it starts with is not raw. -/
theorem word?_of_isWord (h : IsWord text) :
    word? text = (nameAt? text false).map fun name => (name, nameLength text) := by
  fun_cases word? text with
  | case4 => rfl
  | _ => exact absurd (by simp) (not_mem_of_isWord h '#' (by decide))

/-- At the start of a word stands a literal or an identifier. -/
theorem lexeme?_of_isWord (h : IsWord text) :
    lexeme? text =
      match literalLength? text with
      | some n => some (.token (.literal (String.ofList (text.take n))), n)
      | none => (nameAt? text false).map fun name => (.token (.word name), nameLength text) := by
  have hexpansion : failedExpansion.toList.isPrefixOf text = false := by
    refine Bool.eq_false_iff.2 fun hstarts => not_mem_of_isWord h '(' (by decide) ?_
    exact (List.isPrefixOf_iff_prefix.1 hstarts).subset (by decide)
  have hleaf : lexeme? text = leaf? text := by
    unfold lexeme?
    rw [hexpansion, if_neg Bool.false_ne_true]
    -- A comment, a blank or a delimiter would start with a character that no word has.
    split
    case h_9 c rest _ _ _ _ _ _ _ _ =>
      rw [isBlank_of_isWordPart (h.parts c List.mem_cons_self), if_neg Bool.false_ne_true]
    case h_10 => exact absurd rfl h.ne_nil
    all_goals exact absurd List.mem_cons_self (not_mem_of_isWord h _ (by decide))
  rw [hleaf, leaf?.eq_def]
  cases literalLength? text with
  | some n => rfl
  | none =>
    simp only
    split
    · exact absurd List.mem_cons_self (not_mem_of_isWord h '\'' (by decide))
    · rw [startsMark_of_isWord h, startsLiteral_of_isWord h, word?_of_isWord h,
        if_neg Bool.false_ne_true, if_neg Bool.false_ne_true, Option.map_map]
      rfl
    · exact absurd rfl h.ne_nil

/-- At the start of a word stands a token, and the name in it takes its own length. -/
theorem exists_token_of_lexeme? (h : IsWord text) {found : Lexeme} {n : Nat}
    (hfound : lexeme? text = some (found, n)) :
    ∃ t, found = .token t ∧ ∀ name, t = .word name → nameAt? text false = some name ∧
      n = nameLength text := by
  rw [lexeme?_of_isWord h] at hfound
  cases hliteral : literalLength? text with
  | some m =>
    rw [hliteral] at hfound
    obtain ⟨rfl, -⟩ := Prod.mk.inj (Option.some.inj hfound)
    exact ⟨_, rfl, fun name hname => absurd hname (by simp)⟩
  | none =>
    rw [hliteral] at hfound
    obtain ⟨name, hname, heq⟩ := Option.map_eq_some_iff.1 hfound
    obtain ⟨rfl, rfl⟩ := Prod.mk.inj heq
    exact ⟨_, rfl, fun name' hword => ⟨Token.word.inj hword ▸ hname, rfl⟩⟩

/-- Every lexeme of a word is a token. -/
theorem exists_tokens_of_lexemesFrom? {skip : Nat} {here : Position}
    {found : List (Lexeme × Position)} (h : ∀ c ∈ text, isWordPart c = true)
    (hfound : lexemesFrom? skip here text = some found) :
    ∃ ts : List (Token × Position), found = ts.map fun t => (.token t.1, t.2) := by
  induction text generalizing skip here found with
  | nil => exact ⟨[], (Option.some.inj (lexemesFrom?.eq_1 .. ▸ hfound)).symm⟩
  | cons c rest ih =>
    -- What is left of a word has the characters of a word, even if nothing is left.
    have hrest : ∀ d ∈ rest, isWordPart d = true := fun d hd => h d (List.mem_cons_of_mem c hd)
    cases skip with
    | succ skip => exact ih hrest hfound
    | zero =>
      rw [lexemesFrom?] at hfound
      split at hfound
      · contradiction
      · rename_i first length hfirst
        obtain ⟨others, hothers, rfl⟩ := Option.map_eq_some_iff.1 hfound
        obtain ⟨ts, rfl⟩ := ih hrest hothers
        obtain ⟨t, rfl, -⟩ := exists_token_of_lexeme? ⟨List.cons_ne_nil c rest, h⟩ hfirst
        exact ⟨(t, here) :: ts, rfl⟩

end Word

/-- Tokens are taken in as they are. -/
theorem addAll_tokens (f : Forest) (ts : List (Token × Position)) :
    f.addAll (ts.map fun t => (.token t.1, t.2)) =
      some { f with current := (ts.map fun t => TokenTree.token t.1).reverse ++ f.current } := by
  induction ts generalizing f with
  | nil => rfl
  | cons t rest ih => simp [Forest.addAll, Forest.add, ih]

/-- Nothing is read of a text exactly if all of it belongs to the lexeme that is already read. -/
theorem length_le_of_lexemesFrom?_nil {skip : Nat} {here : Position} {text : List Char}
    (h : lexemesFrom? skip here text = some []) : text.length ≤ skip := by
  induction text generalizing skip here with
  | nil => exact Nat.zero_le _
  | cons c rest ih =>
    cases skip with
    | succ skip => exact Nat.succ_le_succ (ih h)
    | zero =>
      rw [lexemesFrom?] at h
      split at h <;> simp at h

/-- A lexeme that is the only one of a text takes the whole text. -/
theorem lexeme?_of_lexemesFrom?_singleton {here place : Position} {text : List Char}
    {found : Lexeme} (h : lexemesFrom? 0 here text = some [(found, place)]) (hne : text ≠ []) :
    ∃ length, lexeme? text = some (found, length) ∧ text.length - 1 ≤ length - 1 := by
  cases text with
  | nil => exact absurd rfl hne
  | cons c rest =>
    rw [lexemesFrom?] at h
    split at h
    · contradiction
    · rename_i first length hfirst
      obtain ⟨others, hothers, heq⟩ := Option.map_eq_some_iff.1 h
      obtain ⟨hhead, rfl⟩ := List.cons.inj heq
      obtain ⟨rfl, -⟩ := Prod.mk.inj hhead
      exact ⟨length, hfirst, length_le_of_lexemesFrom?_nil hothers⟩

theorem lexemesFrom?_of_length_le {skip : Nat} (here : Position) {text : List Char}
    (h : text.length ≤ skip) : lexemesFrom? skip here text = some [] := by
  induction text generalizing skip here with
  | nil => rfl
  | cons c rest ih =>
    cases skip with
    | succ skip => exact ih _ (Nat.le_of_succ_le_succ h)
    | zero => exact absurd h (by simp)

/-! ## Names -/

theorem nameAt?_of_isName {text : List Char} (h : isName text = true) (raw : Bool) :
    nameAt? text raw = some ⟨String.ofList text, raw, by rw [String.toList_ofList]; exact h⟩ := by
  have hname := nameAt?_append h ends_nil raw
  rwa [List.append_nil] at hname

/-- What an identifier takes a whole text but its first character for is the text. -/
theorem isName_of_nameAt? {text : List Char} {raw : Bool} {name : Name}
    (h : nameAt? text raw = some name) (hlength : text.length - 1 ≤ nameLength text - 1) :
    isName text = true := by
  rw [nameAt?] at h
  split at h
  · contradiction
  · rename_i hne
    have hname := isName_take_nameLength hne
    rwa [List.take_of_length_le (by omega)] at hname

section Word

variable {text : List Char}

/-- A word does not start with a byte order mark. -/
theorem tokenTrees?_of_isWord (h : IsWord text) :
    tokenTrees? text = treesAt? Position.start text := by
  unfold tokenTrees?
  split
  · exact absurd List.mem_cons_self (not_mem_of_isWord h _ (by decide))
  · rfl

/-- A word that is an identifier is read as this one tree. -/
theorem tokenTrees?_of_isName (hword : IsWord text) (h : isName text = true) :
    tokenTrees? text =
      some [.word ⟨String.ofList text, false, by rw [String.toList_ofList]; exact h⟩] := by
  obtain _ | ⟨c, rest⟩ := text
  · exact absurd rfl hword.ne_nil
  have hliteral : literalLength? (c :: rest) = none := by
    refine literalLength?_of_isWord hword fun d hd => isAsciiDigit_of_isNameStart ?_
    exact Option.some.inj hd ▸ (Bool.and_eq_true_iff.1 h).1
  have hfirst := lexeme?_of_isWord hword
  rw [hliteral] at hfirst
  simp only [nameAt?_of_isName h, nameLength_of_isName h, Option.map_some] at hfirst
  rw [tokenTrees?_of_isWord hword, treesAt?, lexemesFrom?, hfirst]
  simp only [lexemesFrom?_of_length_le _ (Nat.le_refl rest.length), List.length_cons,
    Nat.add_sub_cancel, Option.map_some]
  rfl

/-- A word that is read as one identifier is this identifier. -/
theorem isName_of_tokenTrees? (hword : IsWord text) {name : Name}
    (h : tokenTrees? text = some [.token (.word name)]) : isName text = true := by
  rw [tokenTrees?_of_isWord hword, treesAt?] at h
  split at h
  · contradiction
  rename_i found hfound
  obtain ⟨ts, rfl⟩ := exists_tokens_of_lexemesFrom? hword.parts hfound
  rw [addAll_tokens] at h
  simp only [List.append_nil, List.reverse_reverse, Option.some.injEq] at h
  obtain ⟨⟨t, here⟩, rfl, ht⟩ := List.map_eq_singleton_iff.1 h
  obtain rfl : t = .word name := TokenTree.token.inj ht
  -- The name is the only lexeme, so it takes the whole word.
  obtain ⟨length, hfirst, hlength⟩ := lexeme?_of_lexemesFrom?_singleton hfound hword.ne_nil
  obtain ⟨t, ht, hread⟩ := exists_token_of_lexeme? hword hfirst
  obtain ⟨hname, rfl⟩ := hread name (Lexeme.token.inj ht).symm
  exact isName_of_nameAt? hname hlength

end Word

/-- What has no raw form is a keyword. -/
theorem isKeyword_of_isReservedRaw {name : String} (h : isReservedRaw name = true) :
    isKeyword name = true := by
  simp only [isReservedRaw, Bool.or_eq_true, beq_iff_eq] at h
  rcases h with (((rfl | rfl) | rfl) | rfl) | rfl
  all_goals decide

end Syntax

namespace Dispatch

open Syntax

/-! ## The target of a word -/

/-- A word that is an identifier is taken as it is unless it is a keyword. -/
theorem identifier?_of_isName {word : List Char} (hword : IsWord word) (h : isName word = true) :
    identifier? word =
      if isKeyword (String.ofList word) then none
      else some ⟨String.ofList word, false, by rw [String.toList_ofList]; exact h⟩ := by
  rw [identifier?, tokenTrees?_of_isName hword h]
  simp only [TokenTree.word, Bool.false_or, Bool.not_eq_true']
  cases isKeyword (String.ofList word) with
  | false => rfl
  | true => rfl

/-- What is taken as it is is an identifier from its first character to its last. -/
theorem isName_of_identifier? {word : List Char} (hword : IsWord word) {name : Name}
    (h : identifier? word = some name) : isName word = true := by
  rw [identifier?] at h
  split at h
  · rename_i htrees
    exact isName_of_tokenTrees? hword htrees
  · contradiction

/-- Why a word is not the name of a target: it is no identifier, or it has no raw form and needs
one. -/
def fault? (word : List Char) : Option NameFault :=
  if isName word then
    if isReservedRaw (String.ofList word) then some (.reserved word) else none
  else if word.all Charset.isAsciiDigit then some .number
  else some (.invalid word)

/-- No identifier consists of digits. -/
theorem all_isAsciiDigit_of_isName {word : List Char} (h : isName word = true) :
    word.all Charset.isAsciiDigit = false := by
  obtain _ | ⟨c, rest⟩ := word
  · contradiction
  · rw [List.all_cons, isAsciiDigit_of_isNameStart (Bool.and_eq_true_iff.1 h).1, Bool.false_and]

/-- A word has a raw form unless it has a fault. -/
theorem rawIdentifier_eq_error_iff {word : List Char} (hne : word ≠ []) (fault : NameFault) :
    rawIdentifier word = .error fault ↔ fault? word = some fault := by
  rw [rawIdentifier, fault?, if_neg (mt List.isEmpty_iff.1 hne)]
  by_cases hname : isName word = true
  · rw [all_isAsciiDigit_of_isName hname, if_neg Bool.false_ne_true, dif_pos hname, if_pos hname]
    by_cases hreserved : isReservedRaw (String.ofList word) = true
    · rw [if_pos hreserved, if_pos hreserved, Except.error.injEq, Option.some.injEq]
    · rw [if_neg hreserved, if_neg hreserved]
      exact iff_of_false (by simp) (by simp)
  · rw [dif_neg hname, if_neg hname]
    by_cases hdigits : word.all Charset.isAsciiDigit = true
    · rw [if_pos hdigits, if_pos hdigits, Except.error.injEq, Option.some.injEq]
    · rw [if_neg hdigits, if_neg hdigits, Except.error.injEq, Option.some.injEq]

/-! ## The last part of a name -/

theorem beforeSeparator_append {text : List Char} (h : ':' ∉ text) {more : List Char}
    (hmore : beforeSeparator more = []) : beforeSeparator (text ++ more) = text := by
  induction text with
  | nil => exact hmore
  | cons c rest ih =>
    have hrest : ':' ∉ rest := fun hmem => h (List.mem_cons_of_mem c hmem)
    rw [List.cons_append, beforeSeparator, ih hrest]
    rintro behind rfl
    exact absurd List.mem_cons_self h

/-- In front of the last text stands a separator, or nothing. -/
theorem join_concat (separator : List Char) (texts : List (List Char)) (text : List Char) :
    ∃ lead, Text.join separator (texts ++ [text]) = lead ++ text ∧
      (lead = [] ∨ ∃ before, lead = before ++ separator) := by
  induction texts with
  | nil => exact ⟨[], rfl, .inl rfl⟩
  | cons first rest ih =>
    obtain ⟨lead, hlead, hend⟩ := ih
    refine ⟨first ++ separator ++ lead, ?_, .inr ?_⟩
    · rw [List.cons_append, Text.join, hlead, List.append_assoc _ lead]
      exact List.concat_ne_nil text rest
    · rcases hend with rfl | ⟨before, rfl⟩
      · exact ⟨first, List.append_nil _⟩
      · exact ⟨first ++ separator ++ before, (List.append_assoc ..).symm⟩

/-- The last part of a path stands behind its last separator. -/
theorem lastPart_join (modules : List (List Char)) {word : List Char} (h : ':' ∉ word) :
    lastPart (Text.join pathSeparator (modules ++ [word])) = word := by
  obtain ⟨lead, hlead, hend⟩ := join_concat pathSeparator modules word
  have hseparator : beforeSeparator lead.reverse = [] := by
    rcases hend with rfl | ⟨before, rfl⟩
    · rfl
    · rw [List.reverse_append]
      rfl
  rw [lastPart, hlead, List.reverse_append,
    beforeSeparator_append (mt List.mem_reverse.1 h) hseparator, List.reverse_reverse]

/-! ## Units with a dispatch module -/

/-- A name of which the last part is a word gives a target unless the word has a fault. -/
theorem target_eq_error_iff (modules : List (List Char)) {word : List Char} (h : IsWord word)
    (fault : NameFault) :
    target (Text.join pathSeparator (modules ++ [word])) = .error fault ↔
      fault? word = some fault := by
  rw [target, lastPart_join modules (not_mem_of_isWord h ':' (by decide))]
  cases hfound : identifier? word with
  | none => exact rawIdentifier_eq_error_iff h.ne_nil fault
  | some found =>
    -- A word that is taken as it is is no keyword, so it is not reserved either.
    have hname := isName_of_identifier? h hfound
    rw [identifier?_of_isName h hname] at hfound
    have hkeyword : ¬ isKeyword (String.ofList word) = true := by
      rintro hkeyword
      rw [if_pos hkeyword] at hfound
      contradiction
    rw [fault?, if_pos hname, if_neg (mt isKeyword_of_isReservedRaw hkeyword)]
    exact iff_of_false (by simp) (by simp)

/-- A unit lacks a dispatch module exactly if its name gives no target. -/
theorem generate_eq_error_iff (u : SourceUnit) (fault : NameFault) :
    generate u = .error fault ↔ target u.name.toList = .error fault := by
  rw [generate]
  split
  · rename_i hfault
    rw [hfault]
    simp
  · rename_i name hname
    rw [hname]
    exact iff_of_false (by simp) (by simp)

/-- **Which units have a dispatch module:** the name of a unit is read off its source as a path of
words, and the unit has a dispatch module exactly if the last word of the path is an identifier and
has a raw form or needs none. If it has none, the fault is that of the word. -/
theorem generate_of_resolveName {source name : String} (h : resolveName source = .ok name) :
    ∃ modules word,
      Outline.declaredPath (Outline.tokens source.toList) = some (modules ++ [word]) ∧
      String.ofList (Text.join pathSeparator (modules ++ [word])) = name ∧
      (∀ w ∈ modules ++ [word], IsWord w) ∧
      ((∃ d, generate ⟨name, source⟩ = .ok d) ↔ fault? word = none) ∧
      ∀ fault, generate ⟨name, source⟩ = .error fault ↔ fault? word = some fault := by
  obtain ⟨path, hpath, rfl⟩ := resolveName_eq_ok_iff.1 h
  obtain ⟨modules, word, rfl, hwords⟩ := Outline.isWord_of_declaredPath hpath
  have hfault (fault : NameFault) :
      generate ⟨String.ofList (Text.join pathSeparator (modules ++ [word])), source⟩ =
        .error fault ↔ fault? word = some fault := by
    rw [generate_eq_error_iff, String.toList_ofList]
    exact target_eq_error_iff modules (hwords word (by simp)) fault
  refine ⟨modules, word, hpath, rfl, hwords, ?_, hfault⟩
  -- A unit either has a dispatch module or a fault, so one equivalence gives the other.
  cases hgenerate : generate
    ⟨String.ofList (Text.join pathSeparator (modules ++ [word])), source⟩ with
  | ok d =>
    refine iff_of_true ⟨d, rfl⟩ (Option.eq_none_iff_forall_ne_some.2 fun fault hsome => ?_)
    have herror := (hfault fault).2 hsome
    rw [hgenerate] at herror
    contradiction
  | error fault =>
    rw [(hfault fault).1 hgenerate]
    simp

/-- A keyword that can be raw, inside of a module whose name cannot be written. -/
theorem generate_of_resolveName_raw :
    resolveName "mod self \x7b struct type; \x7d" = .ok "self::type" ∧
      ∃ modules word,
        Outline.declaredPath (Outline.tokens "mod self \x7b struct type; \x7d".toList) =
          some (modules ++ [word]) ∧
        String.ofList (Text.join pathSeparator (modules ++ [word])) = "self::type" ∧
        (∀ w ∈ modules ++ [word], IsWord w) ∧
        ((∃ d, generate ⟨"self::type", "mod self \x7b struct type; \x7d"⟩ = .ok d) ↔
          fault? word = none) ∧
        ∀ fault, generate ⟨"self::type", "mod self \x7b struct type; \x7d"⟩ = .error fault ↔
          fault? word = some fault := by
  have h : resolveName "mod self \x7b struct type; \x7d" = .ok "self::type" := by decide +kernel
  exact ⟨h, generate_of_resolveName h⟩

/-- A type that is declared by the name `self` has no dispatch module. -/
theorem generate_self :
    resolveName "pub struct self;" = .ok "self" ∧
      generate ⟨"self", "pub struct self;"⟩ = .error (.reserved "self".toList) := by
  rw [generate_eq_error_iff]
  decide +kernel

end Dispatch

end UnitLoader
