import UnitLoader.Proofs.Dispatch.Attribution
import UnitLoader.Proofs.Outline.Continuation
import UnitLoader.Proofs.Syntax.Module

/-!
# Where the dispatch module of a nested type goes

The dispatch module of a type in a module belongs in front of the closing brace of that module.
`exists_endsModule` says that the anchor is this brace: its place is the one behind the text in
front of the brace, and the lexemes of this text leave open exactly the modules on the way to the
type.

The place is that of a text without a byte order mark, and a source that starts with a mark has its
first line moved by one column. So `attach_nested` has two cases. Without a mark, or with a brace on
a later line, the module is spliced in front of the brace. With a mark and a brace on the first line
the place is that of the character in front of the brace: unless this is a closing brace too, the
module is appended behind the source (`attach_markedUnit`).
-/

namespace UnitLoader.Dispatch

open Syntax
open Text (OneLine Position)

/-! ## The innermost module -/

/-- What is entered by a name is the inside of a module. -/
theorem moduleNamed?_eq_some {text : List Char} {item : Item} {inner : Scope}
    (h : moduleNamed? text item = some inner) :
    ∃ name close, item = .inlineModule name close inner.items ∧ name.text.toList = text ∧
      inner.close = some close := by
  unfold moduleNamed? at h
  split at h
  · rename_i name close items
    split at h
    · rename_i hnamed
      obtain rfl := Option.some.inj h
      exact ⟨name, close, rfl, eq_of_beq hnamed, rfl⟩
    · contradiction
  · contradiction

/-- Modules that are entered one after the other are in the trees that were parsed. -/
theorem encloses_of_enter? {trees : List TokenTree} {s scope : Scope} {modules : List (List Char)}
    (hparsed : Parsed trees s.items) (hne : modules ≠ []) (h : s.enter? modules = some scope) :
    ∃ content close, Encloses trees modules content close ∧ scope.close = some close ∧
      Parsed content scope.items := by
  induction modules generalizing s trees with
  | nil => contradiction
  | cons text others ih =>
    rw [Scope.enter?] at h
    split at h
    · contradiction
    · rename_i inner hinner
      obtain ⟨item, hmem, hitem⟩ := List.exists_of_findSome?_eq_some hinner
      obtain ⟨name, close, rfl, rfl, hclose⟩ := moduleNamed?_eq_some hitem
      obtain ⟨front, content, behind, rfl, hcontent⟩ := hparsed.inlineModule hmem
      cases others with
      | nil =>
        obtain rfl := Option.some.inj h
        exact ⟨content, close, .innermost front behind name content close, hclose, hcontent⟩
      | cons next others =>
        obtain ⟨inmost, end', hothers, hend, hinmost⟩ := ih hcontent (List.cons_ne_nil _ _) h
        exact ⟨inmost, end', .inside front behind name close hothers, hend, hinmost⟩

/-- A closing brace of a source ends the innermost one of these modules, and that one declares a
type of this name, without parameters. -/
structure EndsModule (source : List Char) (modules : List (List Char)) (type : List Char)
    (before behind : List Char) : Prop where
  /-- Where the brace stands in the source, but for a byte order mark. -/
  text : behindMark source = before ++ '\x7d' :: behind
  /-- It is read as a closing brace, and in front of it exactly the modules are open. -/
  innermost : ∃ front back content items,
    fileLexemes? source =
        some (front ++ (.closing .brace, Position.start.afterAll before) :: back) ∧
      LeavesOpen front modules content ∧ Parsed content items ∧
      items.findSome? (genericsOf? type) = some []

/-- A type that can be used is declared in the file, and has no parameters. -/
theorem usable?_eq_some {u : SourceUnit} {used : Declared} (h : usable? u = some used) :
    ∃ items, parseFile? u.source.toList = some items ∧
      declared? items (SourceUnit.nameParts u.name) = some used ∧ used.isGeneric = false := by
  unfold usable? at h
  split at h
  · contradiction
  · rename_i items hitems
    split at h
    · rename_i found hfound
      split at h
      · contradiction
      · rename_i hplain
        obtain rfl := Option.some.inj h
        exact ⟨items, hitems, hfound, eq_false_of_ne_true hplain⟩
    · contradiction

/-- A type is declared in the scope that the modules in front of its name lead to. -/
theorem declared?_eq_some {items : List Item} {modules : List (List Char)} {type : List Char}
    {found : Declared} (h : declared? items (modules ++ [type]) = some found) :
    ∃ scope generics, Scope.enter? ⟨items, none⟩ modules = some scope ∧
      scope.items.findSome? (genericsOf? type) = some generics ∧
      found.isGeneric = !generics.isEmpty ∧ found.anchor = scope.close := by
  unfold declared? at h
  simp only [List.getLast?_concat, List.dropLast_concat] at h
  split at h
  · contradiction
  · rename_i scope henter
    obtain ⟨generics, hgenerics, rfl⟩ := Option.map_eq_some_iff.1 h
    exact ⟨scope, generics, henter, hgenerics, rfl, rfl⟩

/-- The anchor of a nested type is the closing brace of the innermost module. -/
theorem exists_endsModule {u : SourceUnit} {used : Declared} {modules : List (List Char)}
    {type : List Char} (hname : SourceUnit.nameParts u.name = modules ++ [type])
    (hne : modules ≠ []) (h : usable? u = some used) :
    ∃ before behind, EndsModule u.source.toList modules type before behind ∧
      used.anchor = some (Position.start.afterAll before) := by
  obtain ⟨items, hitems, hfound, hplain⟩ := usable?_eq_some h
  rw [hname] at hfound
  obtain ⟨scope, generics, henter, htype, hgeneric, hanchor⟩ := declared?_eq_some hfound
  obtain rfl : generics = [] := by
    rw [hgeneric] at hplain
    simpa using hplain
  obtain ⟨trees, htrees, hparsed⟩ := parsed_of_parseFile? hitems
  obtain ⟨found, hlexemes, hmade⟩ := tokenTrees?_eq_some htrees
  obtain ⟨content, close, henclose, hclose, hcontent⟩ := encloses_of_enter? hparsed hne henter
  -- At the end of the file no module is open.
  obtain ⟨front, back, rfl, hopen⟩ := closes_of_encloses henclose ⟨[], hmade, .nil⟩
  obtain ⟨before, behind, htext, rfl⟩ := brace_of_fileLexemes? hlexemes
  refine ⟨before, behind, ⟨htext, ?_⟩, hanchor.trans hclose⟩
  exact ⟨front, back, content, scope.items, hlexemes, hopen, hcontent, htype⟩

/-! ## Splicing -/

/-- A dispatch module is spliced in front of a closing brace of a source, behind all that stands in
front of the brace, and the region it takes is known. -/
structure SplicedAt (d : Dispatch) (before behind : List Char) : Prop where
  /-- The anchor is the byte offset of the brace. -/
  offset : d.anchor.bind (·.byteOffset? (before ++ '\x7d' :: behind)) =
    some (Text.byteLength before)
  /-- The module goes between the two. -/
  attached : d.attach (before ++ '\x7d' :: behind) =
    ⟨before, d.code, ' ' :: '\x7d' :: behind, some (Attribution.regionBehind before d.code)⟩

variable {d : Dispatch} {before : List Char}

/-- Where the anchor is the place of a closing brace, the module is spliced in front of it. -/
theorem splicedAt (h : d.anchor = some (Position.start.afterAll before)) (behind : List Char) :
    SplicedAt d before behind := by
  have hsplit := Position.split?_afterAll (c := '\x7d') (by decide) before behind
  constructor
  · rw [h, Option.bind_some, Position.byteOffset?, hsplit]
    rfl
  · unfold attach atAnchor?
    rw [h]
    dsimp only
    rw [hsplit]
    rfl

/-- Where it is the place of another character, the module is appended. -/
theorem attach_of_ne {c : Char} (h : d.anchor = some (Position.start.afterAll before))
    (hline : c ≠ '\n') (hc : c ≠ '\x7d') (behind : List Char) :
    d.attach (before ++ c :: behind) =
      ⟨Text.completeLine (before ++ c :: behind), d.code, ['\n'], none⟩ := by
  have hnone : atAnchor? d.anchor (before ++ c :: behind) = none := by
    unfold atAnchor?
    rw [h]
    dsimp only
    rw [Position.split?_afterAll hline]
    split
    · rename_i hsplit
      obtain ⟨-, hcons⟩ := Prod.mk.inj (Option.some.inj hsplit)
      exact absurd (List.cons.inj hcons).1 hc
    · rfl
  unfold attach
  rw [hnone]

/-- A byte order mark moves what stands on its line by one character. -/
theorem afterAll_of_marked {first : List Char} {c : Char} (h : OneLine before)
    (hmarked : '\uFEFF' :: before = first ++ [c]) :
    Position.start.afterAll before = Position.start.afterAll first ∧ c ≠ '\n' := by
  have hline : OneLine (first ++ [c]) := hmarked ▸ Text.oneLine_cons.2 ⟨by decide, h⟩
  obtain ⟨hfirst, hc⟩ := Text.oneLine_append.1 hline
  have hlength : before.length = first.length := by
    have := congrArg List.length hmarked
    simpa using this
  refine ⟨?_, (Text.oneLine_cons.1 hc).1⟩
  rw [Position.afterAll_of_oneLine h, Position.afterAll_of_oneLine hfirst, hlength]

/-! ## Units with a nested type -/

/-- The anchor of a dispatch module is that of the type. -/
theorem anchor_of_generate {u : SourceUnit} {used : Declared} (hused : usable? u = some used)
    (h : generate u = .ok d) : d.anchor = used.anchor := by
  unfold generate at h
  split at h
  · contradiction
  · obtain rfl := Except.ok.inj h
    dsimp only
    rw [hused, Option.bind_some]

/-- **Where the dispatch module of a nested type goes.** The anchor is the closing brace of the
innermost module on the way to the type, in the source behind the byte order mark that it may start
with. Without a mark, and with a brace that is not on the first line, the module is spliced in front
of this brace. Otherwise the anchor is the place of the character in front of the brace, so that the
module is spliced in front of that character if it is a closing brace too, and else is appended. -/
theorem attach_nested {u : SourceUnit} {used : Declared} {modules : List (List Char)}
    {type : List Char} (hname : SourceUnit.nameParts u.name = modules ++ [type])
    (hmodules : modules ≠ []) (hused : usable? u = some used) (h : generate u = .ok d) :
    ∃ mark before behind, u.source.toList = mark ++ before ++ '\x7d' :: behind ∧
      (mark = [] ∨ mark = ['\uFEFF']) ∧ EndsModule u.source.toList modules type before behind ∧
      d.anchor = some (Position.start.afterAll before) ∧
      (mark = [] ∨ ¬ OneLine before → SplicedAt d (mark ++ before) behind) ∧
      (mark ≠ [] → OneLine before → ∀ first c, mark ++ before = first ++ [c] →
        if c = '\x7d' then SplicedAt d first ('\x7d' :: behind)
        else d.attach u.source.toList =
          ⟨Text.completeLine u.source.toList, d.code, ['\n'], none⟩) := by
  obtain ⟨before, behind, hends, hanchor⟩ := exists_endsModule hname hmodules hused
  obtain ⟨mark, hmark, hsource⟩ := eq_mark_append u.source.toList
  rw [hends.text, ← List.append_assoc] at hsource
  rw [← anchor_of_generate hused h] at hanchor
  refine ⟨mark, before, behind, hsource, hmark, hends, hanchor, fun hplain => ?_,
    fun hmarked hline first c hlast => ?_⟩
  · refine splicedAt ?_ behind
    rw [hanchor]
    rcases hmark with rfl | rfl
    · -- Without a mark the anchor is where the brace is.
      rfl
    · -- The line feed in front of the brace comes behind the mark.
      have hlater := hplain.resolve_left (List.cons_ne_nil _ _)
      exact congrArg some (Position.afterAll_congr_of_not_oneLine hlater rfl)
  · -- With a mark on the brace's own line, the anchor is one character too far to the left.
    obtain rfl := hmark.resolve_left hmarked
    obtain ⟨hplace, hc⟩ := afterAll_of_marked hline hlast
    rw [hplace] at hanchor
    split
    · exact splicedAt hanchor _
    · rename_i hbrace
      rw [hsource, hlast, List.append_assoc]
      exact attach_of_ne hanchor hc hbrace _

/-- What is computed of the dispatch module of a unit is so of one that it has. -/
theorem exists_of_map_generate {β : Type} {u : SourceUnit} {f : Dispatch → β} {b : β}
    (h : (generate u).toOption.map f = some b) : ∃ d, generate u = .ok d ∧ f d = b := by
  cases hmade : generate u with
  | error fault =>
    rw [hmade] at h
    contradiction
  | ok d =>
    rw [hmade] at h
    exact ⟨d, rfl, Option.some.inj h⟩

/-- A unit with an interpreter in its first line and characters of several bytes in front of the
brace. -/
def scriptUnit : SourceUnit := ⟨"m::A", "#!/usr/bin/env é\nmod m \x7b pub struct A; /* é */ \x7d"⟩

/-- Its dispatch module is spliced. -/
theorem attach_nested_scriptUnit :
    ∃ d before behind, generate scriptUnit = .ok d ∧
      scriptUnit.source.toList = before ++ '\x7d' :: behind ∧ SplicedAt d before behind := by
  have hname : SourceUnit.nameParts scriptUnit.name = ["m".toList] ++ ["A".toList] := by
    decide +kernel
  have hfound : (usable? scriptUnit).isSome = true := by decide +kernel
  have hmade : (generate scriptUnit).toOption.map (·.isInstantiable) = some true := by
    decide +kernel
  have hfirst : scriptUnit.source.toList.head? = some '#' := by decide +kernel
  obtain ⟨used, hused⟩ := Option.isSome_iff_exists.1 hfound
  obtain ⟨d, hd, -⟩ := exists_of_map_generate hmade
  obtain ⟨mark, before, behind, hsource, hmark, -, -, hspliced, -⟩ :=
    attach_nested hname (List.cons_ne_nil _ _) hused hd
  -- The source starts with no mark.
  rcases hmark with rfl | rfl
  · exact ⟨d, before, behind, hd, hsource, hspliced (.inl rfl)⟩
  · rw [hsource] at hfirst
    exact absurd hfirst (by simp)

/-- A unit of one line that starts with a byte order mark. -/
def markedUnit : SourceUnit := ⟨"m::A", "\uFEFFmod m \x7b pub struct A; \x7d"⟩

/-- Its type is found in the module and can be used, and yet its dispatch module is not spliced. -/
theorem attach_markedUnit :
    resolveName markedUnit.source = .ok markedUnit.name ∧
      SourceUnit.nameParts markedUnit.name = ["m".toList, "A".toList] ∧
      ∃ used d, usable? markedUnit = some used ∧ generate markedUnit = .ok d ∧
        (d.attach markedUnit.source.toList).region = none := by
  have hparts : SourceUnit.nameParts markedUnit.name = ["m".toList, "A".toList] := by
    decide +kernel
  have hname : resolveName markedUnit.source = .ok markedUnit.name :=
    resolveName_eq_ok_iff.2 ⟨["m".toList, "A".toList], by decide +kernel, by decide +kernel⟩
  have hfound : (usable? markedUnit).isSome = true := by decide +kernel
  have hregion : (generate markedUnit).toOption.map
      (fun d => (d.attach markedUnit.source.toList).region) = some none := by
    decide +kernel
  obtain ⟨used, hused⟩ := Option.isSome_iff_exists.1 hfound
  obtain ⟨d, hd, hnone⟩ := exists_of_map_generate hregion
  exact ⟨hname, hparts, used, d, hused, hd, hnone⟩

end UnitLoader.Dispatch
