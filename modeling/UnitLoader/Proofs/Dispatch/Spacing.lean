import UnitLoader.Proofs.Dispatch.Plan
import UnitLoader.Proofs.Dispatch.Tightened
import UnitLoader.Proofs.Syntax.PrintsWhole.Item

/-!
# What the spacing of a type leaves as it is

A manifest shows a type without some of the spaces with which its trees are printed. Nothing else is
taken out (`filter_tighten`), and read as tokens the text gives the pieces of the type, in each
literal of which the same spaces are missing. This needs a layout in which no piece runs into the
next one (`readsBack_of_safe`), and the types of every source text that can be parsed have one
(`readsBack_in_source`). So the text is that of the same type exactly if no literal in it has a
space at one of the marks; in the length of an array there may be one that has
(`plan_of_spacedLength`).
-/

namespace UnitLoader.Dispatch

open Syntax Text

/-! ## Spaces -/

/-- Without its spaces a text is what it is without some of them. -/
theorem Squeezes.filter_eq {text out : List Char} (h : Squeezes text out) :
    out.filter (· != ' ') = text.filter (· != ' ') := by
  induction h with
  | nil => rfl
  | keep c _ ih => rw [List.filter_cons, List.filter_cons, ih]
  | before _ _ ih =>
    rw [ih]
    rfl
  | behind _ _ ih =>
    rw [List.filter_cons, List.filter_cons, List.filter_cons, ih]
    rfl

/-- Tightening takes out spaces and nothing else. -/
theorem filter_tighten (text : List Char) :
    (tighten text).filter (· != ' ') = text.filter (· != ' ') := by
  have hall {patterns : List (String × String)} (hpatterns : ∀ t ∈ patterns, t ∈ tightenings) :
      ∀ text, (replaceAll patterns text).filter (· != ' ') = text.filter (· != ' ') := by
    induction patterns with
    | nil => exact fun _ => rfl
    | cons t patterns ih =>
      obtain ⟨ht, hpatterns⟩ := List.forall_mem_cons.1 hpatterns
      intro text
      rw [replaceAll, List.foldl_cons, ← replaceAll, ih hpatterns]
      exact (squeezes_replace (tightens_of_mem_tightenings t ht) text).filter_eq
  rw [tighten_eq_replaceAll]
  exact hall (fun _ ht => ht) text

/-! ## Reading a type back -/

/-- The text of a type, read as tokens, is the type with its literals tightened. -/
structure ReadsBack (type : TypeTree) : Prop where
  /-- It is the printed type but for spaces. -/
  spaces : (typeText type).toList.filter (· != ' ') = (printTrees type.trees).filter (· != ' ')
  /-- It has the words, marks, literals and delimiters of the type. -/
  pieces : ∃ trees, tokenTrees? (typeText type).toList = some trees ∧
    piecesAll trees = (piecesAll type.trees).map (Piece.map tighten)
  /-- They are all the same exactly if no literal is changed. -/
  same_iff : (∃ trees, tokenTrees? (typeText type).toList = some trees ∧
      piecesAll trees = piecesAll type.trees) ↔
    ∀ text, .literal text ∈ piecesAll type.trees → tighten text = text

theorem map_tighten_eq_iff (pieces : List Piece) :
    pieces.map (Piece.map tighten) = pieces ↔
      ∀ text, .literal text ∈ pieces → tighten text = text := by
  have hpiece (p : Piece) :
      p.map tighten = p ↔ ∀ text, p = .literal text → tighten text = text := by
    cases p <;> simp [Piece.map]
  conv_lhs => rw [← List.map_id pieces, List.map_map]
  rw [List.map_inj_left]
  constructor
  · exact fun h text hmem => (hpiece _).1 (h _ hmem) text rfl
  · exact fun h p hmem => (hpiece p).2 fun text htext => h text (htext ▸ hmem)

/-- The first method stands in an item of the source. -/
theorem holds_of_firstMethod? {u : SourceUnit} {m : Method} (h : firstMethod? u = some m) :
    ∃ items item, parseFile? u.source.toList = some items ∧ item ∈ items ∧ item.Holds m := by
  obtain ⟨items, hparse, hhead⟩ := Option.bind_eq_some_iff.1 h
  obtain ⟨item, hitem, hm⟩ := List.mem_flatMap.1 (List.mem_of_mem_head? hhead)
  refine ⟨items, item, hparse, hitem, ?_⟩
  unfold methodsOf at hm
  split at hm
  · split at hm
    · exact .implementation hm
    · contradiction
  · contradiction

/-- The text of a type in whose layout no piece runs into the next one is read as the type, with its
literals tightened. -/
theorem readsBack_of_safe {type : TypeTree} (h : Safe (layoutAll type.trees false)) :
    ReadsBack type := by
  obtain ⟨tight, htext, hsafe, hpieces⟩ := exists_tight h
  have hprint : (layoutAll type.trees false).text = printTrees type.trees := by
    rw [text_layoutAll]
    exact List.append_nil _
  have htypeText : tight.text = (typeText type).toList := by
    rw [htext, hprint, typeText, String.toList_ofList]
  rw [map_fst_layoutAll] at hpieces
  -- What is printed without those spaces is still safe, so it is read as the same pieces.
  obtain ⟨trees, htrees, hread⟩ := tokenTrees?_text tighten hsafe hpieces
  rw [htypeText] at htrees
  rw [hpieces] at hread
  refine ⟨?_, ⟨trees, htrees, hread⟩, ?_⟩
  · rw [typeText, String.toList_ofList, filter_tighten]
  · rw [← map_tighten_eq_iff, ← hread]
    constructor
    · rintro ⟨trees', htrees', hsame⟩
      obtain rfl := Option.some.inj (htrees.symm.trans htrees')
      exact hsame
    · exact fun hsame => ⟨trees, htrees, hsame⟩

/-- Whatever the types of a method in a source text are, and however deep it stands in modules,
their texts are read back. -/
theorem readsBack_in_source {text : List Char} {items : List Item} {item : Item} {m : Method}
    {type : TypeTree} (hparse : parseFile? text = some items) (hitem : item ∈ items)
    (hm : item.Holds m) (htype : m.signature.HasType type) : ReadsBack type :=
  readsBack_of_safe (whole_of_parseFile? hparse item hitem m hm type htype).safe_layoutAll

/-- A type with a method that gives a reference to an array, whose length is that of a text. -/
def borrowedWindow : SourceUnit where
  name := "A"
  source := "pub struct A; impl A \x7b pub fn f<'a>(&'a self) " ++
    "-> Option<&'a [u8; \"a , b\".len()]> \x7b None \x7d \x7d"

/-- A path, a lifetime, marks, groups and a literal are read back. -/
theorem readsBack_in_source_window : ∃ items item m type,
    parseFile? borrowedWindow.source.toList = some items ∧ item ∈ items ∧ item.Holds m ∧
      m.signature.HasType type ∧
      typeText type = "Option<&'a [u8; \"a, b\" . len ()]>" ∧ ReadsBack type := by
  -- The characters of a text are cheap to compute with, the text is not.
  have hchars : borrowedWindow.source.toList = _ :=
    String.toList_append.trans (congrArg₂ (· ++ ·) String.toList_ofList String.toList_ofList)
  have hseen : ((firstMethod? borrowedWindow).bind fun m => m.signature.output.map typeText) =
      some "Option<&'a [u8; \"a, b\" . len ()]>" := by
    rewrite [firstMethod?, hchars]
    decide +kernel
  obtain ⟨m, hm, houtput⟩ := Option.bind_eq_some_iff.1 hseen
  obtain ⟨type, htype, htext⟩ := Option.map_eq_some_iff.1 houtput
  obtain ⟨items, item, hparse, hitem, hholds⟩ := holds_of_firstMethod? hm
  exact ⟨items, item, m, type, hparse, hitem, hholds, .inr htype, htext,
    readsBack_in_source hparse hitem hholds (.inr htype)⟩

/-- A type with a method that gives an array, whose length is that of a text with spaces. -/
def spacedLength : SourceUnit where
  name := "A"
  source := "pub struct A; impl A \x7b pub fn f() -> [u8; \"a , b\".len()] \x7b [0; 5] \x7d \x7d"

/-- The manifest shows the length of another text. -/
theorem plan_of_spacedLength : ∃ m p type, firstMethod? spacedLength = some m ∧
    planMethod? m = some p ∧ m.signature.output = some type ∧
    .literal "\"a , b\"".toList ∈ piecesAll type.trees ∧
    p.operation.returns = some "[u8; \"a, b\" . len ()]" ∧
    ¬ ∃ trees, tokenTrees? (typeText type).toList = some trees ∧
      piecesAll trees = piecesAll type.trees := by
  have hchars : spacedLength.source.toList = _ := String.toList_ofList
  have hseen : ((firstMethod? spacedLength).bind fun m => (planMethod? m).map fun p =>
      (m.signature.output.map fun type => (
        decide (.literal "\"a , b\"".toList ∈ piecesAll type.trees),
        decide ((tokenTrees? (typeText type).toList).map piecesAll = some (piecesAll type.trees))),
      p.operation.returns)) = some (some (true, false), some "[u8; \"a, b\" . len ()]") := by
    rewrite [firstMethod?, hchars]
    decide +kernel
  obtain ⟨m, p, hm, hplan, hseen⟩ := exists_firstMethod hseen
  obtain ⟨houtput, hreturns⟩ := Prod.mk.inj hseen
  obtain ⟨type, htype, hsame⟩ := Option.map_eq_some_iff.1 houtput
  obtain ⟨hmem, hsame⟩ := Prod.mk.inj hsame
  refine ⟨m, p, type, hm, hplan, htype, of_decide_eq_true hmem, hreturns, ?_⟩
  rintro ⟨trees, htrees, hpieces⟩
  exact of_decide_eq_false hsame (by rw [htrees, Option.map_some, hpieces])

end UnitLoader.Dispatch
