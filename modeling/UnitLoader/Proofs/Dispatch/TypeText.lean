import UnitLoader.Dispatch.Plan
import UnitLoader.Proofs.Text.Replace

/-!
# What the text of a parameter's type denotes

A manifest shows the type of a parameter as a text. `Denotes` says what such a text stands for: a
name is passed by value, a reference to one by reference, and a reference to a string as the text
itself. The text is the printed type after a dozen replacements, of which three find something in
it: those at a path separator and the one at the mark of a reference (`tighten_eq`). So a type that
can be read from text is written as `namedText` and `referenceText` say (`typeText_named`,
`typeText_reference`), and its text denotes how its arguments are passed (`PassedAs.denotes`).

A text denotes one thing at most (`Denotes.unique`), because no character of a name is one of the
marks around it.
-/

namespace UnitLoader

namespace Dispatch

open Syntax
open Text (join replace)

/-! ## Marks -/

/-- The character stands in no name, with or without a raw mark. -/
def isMark (c : Char) : Bool :=
  !isNameStart c && !Text.Charset.isIdentifierContinue c && c != '#' && c != 'r'

theorem not_mem_print {c : Char} (h : isMark c = true) (n : Name) : c ∉ n.print := by
  simp only [isMark, Bool.and_eq_true, Bool.not_eq_true', bne_iff_ne] at h
  obtain ⟨⟨⟨hstart, hcontinue⟩, hhash⟩, hr⟩ := h
  have htext : c ∉ n.text.toList := by
    intro hmem
    -- Neither the first character of an identifier nor any other one is a mark.
    have hname := n.isName
    cases hchars : n.text.toList with
    | nil => exact List.not_mem_nil (hchars ▸ hmem)
    | cons first rest =>
      rw [hchars, isName, Bool.and_eq_true, List.all_eq_true] at hname
      rcases List.mem_cons.1 (hchars ▸ hmem) with rfl | hrest
      · exact Bool.false_ne_true (hstart.symm.trans hname.1)
      · exact Bool.false_ne_true (hcontinue.symm.trans (hname.2 c hrest))
  rw [Name.print, List.mem_append, not_or]
  refine ⟨fun hraw => ?_, htext⟩
  split at hraw
  · simp [hhash, hr] at hraw
  · exact List.not_mem_nil hraw

/-! ## The texts of types -/

/-- The text of a name as a type. -/
def namedText (t : NamedType) : List Char :=
  (if t.isGlobal then "::".toList else []) ++ t.name.print

/-- What stands between the mark of a reference and its type: a lifetime, and the word `mut`. -/
def qualifierTexts (lifetime : Option Name) (isMutable : Bool) : List (List Char) :=
  (lifetime.map fun name => '\'' :: name.print).toList ++ if isMutable then ["mut".toList] else []

/-- The text of a reference to a name. Words have a space between them. -/
def referenceText (lifetime : Option Name) (isMutable : Bool) (t : NamedType) : List Char :=
  let words := qualifierTexts lifetime isMutable
  '&' :: join [' '] words ++ (if words = [] ∨ t.isGlobal = true then [] else [' ']) ++ namedText t

/-- Texts with a space in front of each. -/
def lead (words : List (List Char)) : List Char := words.flatMap ([' '] ++ ·)

theorem lead_cons (word : List Char) (words : List (List Char)) :
    lead (word :: words) = ' ' :: (word ++ lead words) := rfl

theorem print_named (t : NamedType) :
    printTrees t.trees = (if t.isGlobal then ":: ".toList else []) ++ t.name.print := by
  obtain ⟨isGlobal, name⟩ := t
  cases isGlobal <;>
    simp [NamedType.trees, TokenTree.symbol, TokenTree.alone, TokenTree.word, printTrees,
      TokenTree.print, TokenTree.isJoint, Token.text]

theorem print_reference (lifetime : Option Name) (isMutable : Bool) (t : NamedType) :
    printTrees (TypeTree.reference lifetime isMutable (.named t)).trees =
      '&' :: lead (qualifierTexts lifetime isMutable) ++ ' ' :: printTrees t.trees := by
  obtain ⟨isGlobal, name⟩ := t
  cases lifetime <;> cases isMutable <;> cases isGlobal <;>
    simp [TypeTree.trees, lifetimeTrees, NamedType.trees, TokenTree.symbol, TokenTree.alone,
      TokenTree.word, printTrees, TokenTree.print, TokenTree.isJoint, Token.text, lead,
      qualifierTexts, Name.print]

/-- The brackets and the marks that end or part something, of which one is in each of the last nine
patterns. -/
def enclosing : List Char := ['<', '>', ',', '(', ')', '[', ']', ';']

/-- In a text without those, three patterns are replaced. -/
theorem tighten_eq {text spaced global result : List Char}
    (hspaced : replace [' ', ':', ':', ' '] [':', ':'] text = spaced)
    (hglobal : replace [':', ':', ' '] [':', ':'] spaced = global)
    (hreference : replace ['&', ' '] ['&'] global = result)
    (hplain : ∀ c ∈ enclosing, c ∉ result) : tighten text = result := by
  have hrest : ∀ patterns : List (String × String),
      patterns.all (fun p => enclosing.any p.1.toList.contains) = true →
      patterns.foldl (fun text p => replace p.1.toList p.2.toList text) result = result := by
    intro patterns h
    induction patterns with
    | nil => rfl
    | cons p patterns ih =>
      rw [List.all_cons, Bool.and_eq_true, List.any_eq_true] at h
      obtain ⟨⟨c, hc, hp⟩, hpatterns⟩ := h
      rw [List.foldl_cons, Text.replace_of_not_mem (List.contains_iff_mem.1 hp) (hplain c hc)]
      exact ih hpatterns
  -- The first three patterns leave the result, in which the others find nothing.
  have hfirst : tighten text = (tightenings.drop 3).foldl
      (fun text p => replace p.1.toList p.2.toList text) result := by
    rw [← hreference, ← hglobal, ← hspaced]
    rfl
  rw [hfirst]
  exact hrest _ (by decide)

/-- Without a separator of paths only the mark of a reference is left to find. -/
theorem tighten_of_not_mem {text result : List Char} (hcolon : ':' ∉ text)
    (hreference : replace ['&', ' '] ['&'] text = result)
    (hplain : ∀ c ∈ enclosing, c ∉ result) : tighten text = result := by
  refine tighten_eq ?_ (Text.replace_of_not_mem List.mem_cons_self hcolon) hreference hplain
  exact Text.replace_of_not_mem (List.mem_cons_of_mem _ List.mem_cons_self) hcolon

/-- A separator behind something else loses the spaces on both of its sides. -/
theorem tighten_separator {front name result : List Char} (hfront : ':' ∉ front)
    (hcolon : ':' ∉ name) (hspace : ' ' ∉ name)
    (hreference : replace ['&', ' '] ['&'] (front ++ ([':', ':'] ++ name)) = result)
    (hplain : ∀ c ∈ enclosing, c ∉ result) :
    tighten (front ++ ([' ', ':', ':', ' '] ++ name)) = result := by
  have hspaced : replace [' ', ':', ':', ' '] [':', ':'] (front ++ ([' ', ':', ':', ' '] ++ name)) =
      front ++ ([':', ':'] ++ name) := by
    rw [Text.replace_append_occurrence (by decide) hfront,
      Text.replace_of_not_mem (List.mem_cons_of_mem _ List.mem_cons_self) hcolon]
  -- The space behind it is gone already, so the second pattern is not there.
  have hglobal : replace [':', ':', ' '] [':', ':'] (front ++ ([':', ':'] ++ name)) =
      front ++ ([':', ':'] ++ name) := by
    have hnone : ' ' ∉ [':', ':'] ++ name := by simpa using hspace
    have hmem : ' ' ∈ [':', ':', ' '] := by simp
    rw [Text.replace_append_of_not_mem hfront, Text.replace_of_not_mem hmem hnone]
  exact tighten_eq hspaced hglobal hreference hplain

/-- A separator in front of everything loses the space behind it. -/
theorem tighten_global {name : List Char} (hcolon : ':' ∉ name) (hand : '&' ∉ name)
    (hplain : ∀ c ∈ enclosing, c ∉ [':', ':'] ++ name) :
    tighten ([':', ':', ' '] ++ name) = [':', ':'] ++ name := by
  have hspaced : replace [' ', ':', ':', ' '] [':', ':'] ([':', ':'] ++ ' ' :: name) =
      [':', ':'] ++ ' ' :: name := by
    have hnone : ':' ∉ ' ' :: name := List.not_mem_cons_of_ne_of_not_mem (by decide) hcolon
    rw [Text.replace_append_of_not_mem (by decide),
      Text.replace_of_not_mem (List.mem_cons_of_mem _ List.mem_cons_self) hnone]
  have hglobal : replace [':', ':', ' '] [':', ':'] ([':', ':', ' '] ++ name) =
      [':', ':'] ++ name := by
    rw [Text.replace_occurrence, Text.replace_of_not_mem List.mem_cons_self hcolon]
  have hreference : replace ['&', ' '] ['&'] ([':', ':'] ++ name) = [':', ':'] ++ name := by
    have hnone : '&' ∉ [':', ':'] ++ name := by simpa using hand
    exact Text.replace_of_not_mem List.mem_cons_self hnone
  exact tighten_eq hspaced hglobal hreference hplain

/-- Each of them is a mark, and none is a mark of a reference or of a path. -/
theorem isMark_of_mem_enclosing {c : Char} (h : c ∈ enclosing) :
    isMark c = true ∧ c ∉ ['&', '\'', ' ', ':'] := by
  have hall : enclosing.all (fun c => isMark c && decide (c ∉ ['&', '\'', ' ', ':'])) = true := by
    decide
  simpa using List.all_eq_true.1 hall c h

/-- Apostrophes and spaces apart, the words of a reference have no mark in them. -/
theorem not_mem_lead {c : Char} (h : isMark c = true) (happ : c ≠ '\'') (hspace : c ≠ ' ')
    (lifetime : Option Name) (isMutable : Bool) : c ∉ lead (qualifierTexts lifetime isMutable) := by
  have hmut : c ∉ "mut".toList := by
    intro hmem
    have hnone : "mut".toList.all (fun c => !isMark c) = true := by decide
    have hc := List.all_eq_true.1 hnone c hmem
    rw [h] at hc
    contradiction
  have hname := not_mem_print h
  cases lifetime <;> cases isMutable <;> simp_all [lead, qualifierTexts]

theorem not_mem_namedText {c : Char} (h : isMark c = true) (hcolon : c ≠ ':') (t : NamedType) :
    c ∉ namedText t := by
  have hname := not_mem_print h t.name
  unfold namedText
  split <;> simp_all

/-- A name is shown as it is printed, without the space. -/
theorem typeText_named (t : NamedType) : typeText (.named t) = String.ofList (namedText t) := by
  have hcolon : ':' ∉ t.name.print := not_mem_print (by decide) t.name
  have hand : '&' ∉ t.name.print := not_mem_print (by decide) t.name
  have hplain : ∀ c ∈ enclosing, c ∉ namedText t := by
    intro c hc
    obtain ⟨hmark, hother⟩ := isMark_of_mem_enclosing hc
    exact not_mem_namedText hmark (fun heq => hother (by simp [heq])) t
  suffices h : tighten (printTrees t.trees) = namedText t from congrArg String.ofList h
  rw [print_named]
  obtain ⟨isGlobal, name⟩ := t
  cases isGlobal with
  | false =>
    exact tighten_of_not_mem hcolon (Text.replace_of_not_mem List.mem_cons_self hand) hplain
  | true => exact tighten_global hcolon hand hplain

/-- The words of a reference, and what is in front of its name. -/
theorem referenceText_eq (lifetime : Option Name) (isMutable : Bool) (t : NamedType) :
    referenceText lifetime isMutable t =
      match qualifierTexts lifetime isMutable with
      | [] => '&' :: namedText t
      | word :: words =>
        '&' :: (word ++ lead words ++ ((if t.isGlobal then [] else [' ']) ++ namedText t)) := by
  unfold referenceText
  cases qualifierTexts lifetime isMutable with
  | nil => rfl
  | cons word words =>
    dsimp only
    rw [Text.join_cons]
    simp [lead]

theorem not_mem_referenceText {c : Char} (h : isMark c = true)
    (hother : c ∉ ['&', '\'', ' ', ':']) (lifetime : Option Name) (isMutable : Bool)
    (t : NamedType) : c ∉ referenceText lifetime isMutable t := by
  simp only [List.mem_cons, List.not_mem_nil, or_false, not_or] at hother
  obtain ⟨hand, happ, hspace, hcolon⟩ := hother
  have hlead := not_mem_lead h happ hspace lifetime isMutable
  have hnamed := not_mem_namedText h hcolon t
  rw [referenceText_eq]
  cases hwords : qualifierTexts lifetime isMutable with
  | nil => exact List.not_mem_cons_of_ne_of_not_mem hand hnamed
  | cons word words =>
    rw [hwords] at hlead
    cases t.isGlobal <;> simp_all [lead]

/-- The space behind the mark of a reference goes. -/
theorem replace_reference {rest : List Char} (h : '&' ∉ rest) :
    replace ['&', ' '] ['&'] ('&' :: ' ' :: rest) = '&' :: rest :=
  (Text.replace_occurrence '&' [' '] ['&'] rest).trans
    (congrArg (['&'] ++ ·) (Text.replace_of_not_mem List.mem_cons_self h))

/-- So does the space in front of the first of several words. -/
theorem replace_lead {word behind : List Char} {words : List (List Char)}
    (hwords : '&' ∉ lead (word :: words)) (hbehind : '&' ∉ behind) :
    replace ['&', ' '] ['&'] ('&' :: lead (word :: words) ++ behind) =
      '&' :: (word ++ lead words ++ behind) := by
  have hrest : '&' ∉ word ++ lead words ++ behind := by simp_all [lead_cons]
  have heq : '&' :: lead (word :: words) ++ behind =
      '&' :: ' ' :: (word ++ lead words ++ behind) := by
    simp [lead_cons]
  rw [heq, replace_reference hrest]

/-- A reference to a name is shown with a space between words only. -/
theorem typeText_reference (lifetime : Option Name) (isMutable : Bool) (t : NamedType) :
    typeText (.reference lifetime isMutable (.named t)) =
      String.ofList (referenceText lifetime isMutable t) := by
  have hcolon : ':' ∉ t.name.print := not_mem_print (by decide) t.name
  have hspace : ' ' ∉ t.name.print := not_mem_print (by decide) t.name
  have hand : '&' ∉ t.name.print := not_mem_print (by decide) t.name
  have hplain : ∀ c ∈ enclosing, c ∉ referenceText lifetime isMutable t := by
    intro c hc
    obtain ⟨hmark, hother⟩ := isMark_of_mem_enclosing hc
    exact not_mem_referenceText hmark hother lifetime isMutable t
  have hcolons : ':' ∉ '&' :: lead (qualifierTexts lifetime isMutable) :=
    List.not_mem_cons_of_ne_of_not_mem (by decide)
      (not_mem_lead (by decide) (by decide) (by decide) lifetime isMutable)
  have hands : '&' ∉ lead (qualifierTexts lifetime isMutable) :=
    not_mem_lead (by decide) (by decide) (by decide) lifetime isMutable
  suffices h : tighten (printTrees (TypeTree.reference lifetime isMutable (.named t)).trees) =
      referenceText lifetime isMutable t from congrArg String.ofList h
  rw [print_reference, print_named]
  rw [referenceText_eq] at hplain ⊢
  generalize qualifierTexts lifetime isMutable = words at hplain hcolons hands ⊢
  obtain ⟨isGlobal, name⟩ := t
  cases isGlobal with
  | false =>
    -- Without a separator there is only the space behind the mark to be taken out.
    have hnone : ':' ∉ '&' :: lead words ++ ' ' :: name.print := by
      rw [List.mem_append, not_or]
      exact ⟨hcolons, List.not_mem_cons_of_ne_of_not_mem (by decide) hcolon⟩
    refine tighten_of_not_mem hnone ?_ hplain
    cases words with
    | nil => exact replace_reference hand
    | cons word words =>
      have hbehind : '&' ∉ ' ' :: name.print := List.not_mem_cons_of_ne_of_not_mem (by decide) hand
      exact replace_lead hands hbehind
  | true =>
    -- The separator in front of the name is drawn to both sides.
    refine tighten_separator hcolons hcolon hspace ?_ hplain
    cases words with
    | nil =>
      -- The separator follows the mark at once, and no space is left between them.
      have hnone : ' ' ∉ '&' :: ([':', ':'] ++ name.print) := by simpa using hspace
      exact Text.replace_of_not_mem (List.mem_cons_of_mem _ List.mem_cons_self) hnone
    | cons word words =>
      have hbehind : '&' ∉ [':', ':'] ++ name.print := by simpa using hand
      exact replace_lead hands hbehind

/-! ## What the texts denote -/

/-- A value of the type can be read from text. -/
def Readable (t : NamedType) : Prop := t.name.raw = false ∧ t.name.text ∈ parsableTypes

/-- The type is that of strings, which are read as they are. -/
def IsString (t : NamedType) : Prop := t.name.raw = false ∧ t.name.text = "str"

/-- How an argument reaches a parameter of a type that is shown as this text. -/
inductive Denotes : List Char → Passing → Prop
  | text (lifetime : Option Name) {t : NamedType} :
    IsString t → Denotes (referenceText lifetime false t) .text
  | owned {t : NamedType} : Readable t → Denotes (namedText t) (.parsed .owned t)
  | shared (lifetime : Option Name) {t : NamedType} :
    Readable t → Denotes (referenceText lifetime false t) (.parsed .shared t)
  | exclusive (lifetime : Option Name) {t : NamedType} :
    Readable t → Denotes (referenceText lifetime true t) (.parsed .exclusive t)

theorem namedType?_eq_some {type : TypeTree} {t : NamedType} (h : namedType? type = some t) :
    type = .named t ∧ t.name.raw = false := by
  unfold namedType? at h
  split at h
  · split at h
    · contradiction
    · rename_i found hraw
      obtain rfl := Option.some.inj h
      exact ⟨rfl, by simpa using hraw⟩
  · contradiction

/-- An argument reaches a parameter of the type in this way. -/
inductive PassedAs : TypeTree → Passing → Prop
  | text (lifetime : Option Name) {t : NamedType} :
    IsString t → PassedAs (.reference lifetime false (.named t)) .text
  | owned {t : NamedType} : Readable t → PassedAs (.named t) (.parsed .owned t)
  | shared (lifetime : Option Name) {t : NamedType} :
    Readable t → PassedAs (.reference lifetime false (.named t)) (.parsed .shared t)
  | exclusive (lifetime : Option Name) {t : NamedType} :
    Readable t → PassedAs (.reference lifetime true (.named t)) (.parsed .exclusive t)

/-- Whatever can be read from text is a name or a reference to one. -/
theorem passedAs_of_passing? {type : TypeTree} {passing : Passing}
    (h : passing? type = some passing) : PassedAs type passing := by
  unfold passing? at h
  split at h
  · -- A reference: to a string, which must be shared, or to a type that is read.
    rename_i lifetime isMutable element
    split at h
    · contradiction
    · rename_i t hfound
      obtain ⟨rfl, hraw⟩ := namedType?_eq_some hfound
      split at h
      · rename_i hstring
        cases isMutable with
        | true => contradiction
        | false =>
          obtain rfl := Option.some.inj h
          exact .text lifetime ⟨hraw, hstring⟩
      · split at h
        · rename_i hparsable
          obtain rfl := Option.some.inj h
          cases isMutable with
          | true => exact .exclusive lifetime ⟨hraw, hparsable⟩
          | false => exact .shared lifetime ⟨hraw, hparsable⟩
        · contradiction
  · -- Any other type is passed by value, if it is read.
    split at h
    · contradiction
    · rename_i t hfound
      obtain ⟨rfl, hraw⟩ := namedType?_eq_some hfound
      split at h
      · rename_i hparsable
        obtain rfl := Option.some.inj h
        exact .owned ⟨hraw, hparsable⟩
      · contradiction

/-- The text of a type denotes how its arguments are passed. -/
theorem PassedAs.denotes {type : TypeTree} {passing : Passing} (h : PassedAs type passing) :
    Denotes (typeText type).toList passing := by
  cases h with
  | owned ht =>
    rw [typeText_named, String.toList_ofList]
    exact .owned ht
  | text lifetime ht =>
    rw [typeText_reference, String.toList_ofList]
    exact .text lifetime ht
  | shared lifetime ht =>
    rw [typeText_reference, String.toList_ofList]
    exact .shared lifetime ht
  | exclusive lifetime ht =>
    rw [typeText_reference, String.toList_ofList]
    exact .exclusive lifetime ht

/-! ## A text denotes one thing -/

/-- Behind the last mark of a text there is nothing but one name. -/
theorem eq_of_append_mark {before before' behind behind' : List Char} {c c' : Char}
    (hc : isMark c = true) (hc' : isMark c' = true) (hbehind : ∀ c ∈ behind, isMark c = false)
    (hbehind' : ∀ c ∈ behind', isMark c = false)
    (h : before ++ c :: behind = before' ++ c' :: behind') :
    before = before' ∧ c = c' ∧ behind = behind' := by
  -- No mark can stand behind the last one of the other text.
  have hnone : ∀ {x : Char} {between tail rest : List Char}, isMark x = true →
      (∀ c ∈ rest, isMark c = false) → rest ≠ between ++ x :: tail := by
    rintro x between tail _ hx hrest rfl
    exact Bool.false_ne_true
      ((hrest x (List.mem_append_right _ List.mem_cons_self)).symm.trans hx)
  rcases List.append_eq_append_iff.1 h with ⟨between, rfl, hrest⟩ | ⟨between, rfl, hrest⟩
  · cases between with
    | nil =>
      obtain ⟨rfl, rfl⟩ := List.cons.inj hrest
      exact ⟨(List.append_nil _).symm, rfl, rfl⟩
    | cons first between => exact absurd (List.cons.inj hrest).2 (hnone hc' hbehind)
  · cases between with
    | nil =>
      obtain ⟨rfl, rfl⟩ := List.cons.inj hrest
      exact ⟨List.append_nil _, rfl, rfl⟩
    | cons first between => exact absurd (List.cons.inj hrest).2 (hnone hc hbehind')

theorem isMark_of_mem_print {n : Name} {c : Char} (h : c ∈ n.print) : isMark c = false := by
  cases hc : isMark c with
  | false => rfl
  | true => exact absurd h (not_mem_print hc n)

/-- The mark in front of the name of a reference, and what is in front of the mark. -/
theorem referenceText_eq_append (lifetime : Option Name) (isMutable : Bool) (t : NamedType) :
    ∃ before c, referenceText lifetime isMutable t = before ++ c :: t.name.print ∧
      isMark c = true ∧
      (t.isGlobal = true ∧ c = ':' ∧
          before = '&' :: join [' '] (qualifierTexts lifetime isMutable) ++ [':'] ∨
        t.isGlobal = false ∧ c = '&' ∧ join [' '] (qualifierTexts lifetime isMutable) = [] ∨
        t.isGlobal = false ∧ c = ' ' ∧
          before = '&' :: join [' '] (qualifierTexts lifetime isMutable)) := by
  unfold referenceText namedText
  generalize qualifierTexts lifetime isMutable = words
  obtain ⟨isGlobal, name⟩ := t
  -- The mark is that of a global path, the ampersand, or the space behind a qualifier.
  cases isGlobal with
  | true =>
    exact ⟨'&' :: join [' '] words ++ [':'], ':', by simp, by decide, .inl ⟨rfl, rfl, rfl⟩⟩
  | false =>
    cases words with
    | nil => exact ⟨[], '&', rfl, by decide, .inr (.inl ⟨rfl, rfl, rfl⟩)⟩
    | cons word words =>
      exact ⟨'&' :: join [' '] (word :: words), ' ', by simp, by decide,
        .inr (.inr ⟨rfl, rfl, rfl⟩)⟩

/-- The words of a reference tell whether it is mutable. -/
theorem isMutable_iff_qualifierTexts (lifetime : Option Name) (isMutable : Bool) :
    isMutable = true ↔ join [' '] (qualifierTexts lifetime isMutable) = "mut".toList ∨
      ' ' ∈ join [' '] (qualifierTexts lifetime isMutable) := by
  have hspace : ∀ name : Name, ' ' ∉ name.print := not_mem_print (by decide)
  cases lifetime <;> cases isMutable <;> simp [qualifierTexts, join, hspace]

/-- References that are written in one way are to the same type, and they are mutable together. -/
theorem eq_of_referenceText {lifetime lifetime' : Option Name} {isMutable isMutable' : Bool}
    {t t' : NamedType}
    (h : referenceText lifetime isMutable t = referenceText lifetime' isMutable' t') :
    t.isGlobal = t'.isGlobal ∧ t.name.print = t'.name.print ∧ isMutable = isMutable' := by
  obtain ⟨before, c, htext, hc, hform⟩ := referenceText_eq_append lifetime isMutable t
  obtain ⟨before', c', htext', hc', hform'⟩ := referenceText_eq_append lifetime' isMutable' t'
  rw [htext, htext'] at h
  obtain ⟨rfl, rfl, hprint⟩ := eq_of_append_mark hc hc' (fun _ => isMark_of_mem_print)
    (fun _ => isMark_of_mem_print) h
  -- The last mark is a colon, an ampersand or a space, and each says what stands in front of it.
  have hjoin : t.isGlobal = t'.isGlobal ∧ join [' '] (qualifierTexts lifetime isMutable) =
      join [' '] (qualifierTexts lifetime' isMutable') := by
    rcases hform with ⟨hg, hc, hb⟩ | ⟨hg, hc, hb⟩ | ⟨hg, hc, hb⟩ <;>
      rcases hform' with ⟨hg', hc', hb'⟩ | ⟨hg', hc', hb'⟩ | ⟨hg', hc', hb'⟩ <;> simp_all
  have hmutable : isMutable = isMutable' := by
    rw [Bool.eq_iff_iff, isMutable_iff_qualifierTexts lifetime,
      isMutable_iff_qualifierTexts lifetime', hjoin.2]
  exact ⟨hjoin.1, hprint, hmutable⟩

/-- So are names that are written in one way. -/
theorem eq_of_namedText {t t' : NamedType} (h : namedText t = namedText t') :
    t.isGlobal = t'.isGlobal ∧ t.name.print = t'.name.print := by
  have hcolon : ∀ {name : Name} {behind : List Char}, name.print ≠ ':' :: behind := by
    intro name behind heq
    exact not_mem_print (by decide) name (heq ▸ List.mem_cons_self)
  unfold namedText at h
  obtain ⟨isGlobal, name⟩ := t
  obtain ⟨isGlobal', name'⟩ := t'
  cases isGlobal <;> cases isGlobal'
  · exact ⟨rfl, h⟩
  · exact absurd h hcolon
  · exact absurd h.symm hcolon
  · exact ⟨rfl, List.append_cancel_left h⟩

/-- A name has no mark of a reference in it. -/
theorem namedText_ne_referenceText {t t' : NamedType} {lifetime : Option Name} {isMutable : Bool} :
    namedText t ≠ referenceText lifetime isMutable t' := by
  intro h
  have hnone : '&' ∉ namedText t := not_mem_namedText (by decide) (by decide) t
  exact hnone (h ▸ List.mem_cons_self)

/-- Types with the same name, written without a raw mark, are the same. -/
theorem eq_of_print {t t' : NamedType} (hglobal : t.isGlobal = t'.isGlobal)
    (hraw : t.name.raw = false) (hraw' : t'.name.raw = false)
    (h : t.name.print = t'.name.print) : t = t' := by
  obtain ⟨isGlobal, text, raw, isName⟩ := t
  obtain ⟨isGlobal', text', raw', isName'⟩ := t'
  subst hglobal hraw hraw'
  obtain rfl : text = text' := String.toList_inj.1 h
  rfl

theorem not_readable_of_isString {t : NamedType} (h : IsString t) : ¬ Readable t := by
  intro hreadable
  have hstring : "str" ∉ parsableTypes := by decide
  exact hstring (h.2 ▸ hreadable.2)

/-- A text denotes one thing at most. -/
theorem Denotes.unique {text : List Char} {passing passing' : Passing} (h : Denotes text passing)
    (h' : Denotes text passing') : passing' = passing := by
  have hsame : ∀ {lifetime lifetime' : Option Name} {isMutable isMutable' : Bool}
      {t t' : NamedType}, t.name.raw = false → t'.name.raw = false →
      referenceText lifetime isMutable t = referenceText lifetime' isMutable' t' →
      isMutable = isMutable' ∧ t' = t := by
    intro lifetime lifetime' isMutable isMutable' t t' hraw hraw' heq
    obtain ⟨hglobal, hprint, hmutable⟩ := eq_of_referenceText heq
    exact ⟨hmutable, (eq_of_print hglobal hraw hraw' hprint).symm⟩
  -- References are told apart by the word `mut` and by their types, and names by their types; a
  -- type of strings is no type that can be read.
  generalize htext : text = text' at h'
  cases h with
  | owned ht =>
    cases h' with
    | owned ht' =>
      obtain ⟨hglobal, hprint⟩ := eq_of_namedText htext
      rw [eq_of_print hglobal ht.1 ht'.1 hprint]
    | text | shared | exclusive => exact absurd htext namedText_ne_referenceText
  | text lifetime ht =>
    -- A reference to a string is no reference to a type that is read, and none that is exclusive.
    cases h' with
    | owned => exact absurd htext.symm namedText_ne_referenceText
    | text => rfl
    | shared lifetime' ht' =>
      obtain ⟨-, rfl⟩ := hsame ht.1 ht'.1 htext
      exact absurd ht' (not_readable_of_isString ht)
    | exclusive lifetime' ht' => exact absurd (hsame ht.1 ht'.1 htext).1 Bool.false_ne_true
  | shared lifetime ht =>
    cases h' with
    | owned => exact absurd htext.symm namedText_ne_referenceText
    | text lifetime' ht' =>
      obtain ⟨-, rfl⟩ := hsame ht.1 ht'.1 htext
      exact absurd ht (not_readable_of_isString ht')
    | shared lifetime' ht' => rw [(hsame ht.1 ht'.1 htext).2]
    | exclusive lifetime' ht' => exact absurd (hsame ht.1 ht'.1 htext).1 Bool.false_ne_true
  | exclusive lifetime ht =>
    cases h' with
    | owned => exact absurd htext.symm namedText_ne_referenceText
    | text lifetime' ht' => exact absurd (hsame ht.1 ht'.1 htext).1 (by decide)
    | shared lifetime' ht' => exact absurd (hsame ht.1 ht'.1 htext).1 (by decide)
    | exclusive lifetime' ht' => rw [(hsame ht.1 ht'.1 htext).2]

end Dispatch

end UnitLoader
