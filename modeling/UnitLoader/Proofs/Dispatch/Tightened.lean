import UnitLoader.Proofs.Dispatch.Squeeze
import UnitLoader.Proofs.Syntax.ReadBack

/-!
# Tightening a layout

In the text of a layout a replacement of `tightenings` closes spaces behind and in front of pieces
that stand for themselves, and it replaces inside of literals; it does nothing else
(`exists_tight`). Such a space may be missing: what was safe stays safe (`Safe.tightened`).
-/

namespace UnitLoader

namespace Syntax

open Dispatch Text

variable {pattern replacement : List Char} {p : Piece} {c : Char} {layout : Layout}

/-! ## The ends of a piece -/

theorem isFirm_of_mem_name (name : Name) : ∀ c ∈ name.print, isFirm c = true := by
  have hmarks : ∀ c ∈ ' ' :: tightBehind, c ∈ outsideNames := by decide
  intro c hc
  have hfirm {c : Char} (h : ∀ d ∈ ' ' :: tightBehind, c ≠ d) : isFirm c = true := by
    refine isFirm_iff.2 ⟨h ' ' List.mem_cons_self, fun hmem => ?_⟩
    exact h c (List.mem_cons_of_mem _ hmem) rfl
  rw [Name.print] at hc
  rcases List.mem_append.1 hc with hc | hc
  · split at hc
    · have hraw : ∀ c ∈ ['r', '#'], isFirm c = true := by decide
      exact hraw c hc
    · exact absurd hc List.not_mem_nil
  · refine hfirm fun d hd => ?_
    rintro rfl
    exact not_mem_of_isName name.isName c (hmarks c hd) hc

/-- A piece ends with a firm character or is one character. -/
theorem Piece.Good.isFirm_getLast? (h : p.Good) (hc : p.text.getLast? = some c) :
    isFirm c = true ∨ p.text = [c] := by
  cases p with
  | word name => exact .inl (isFirm_of_mem_name name c (List.mem_of_getLast? hc))
  | literal text => exact .inl (IsLiteral.isFirm_getLast? h c hc)
  | mark d =>
    obtain rfl := Option.some.inj hc
    exact .inr rfl
  | opening delimiter | closing delimiter =>
    obtain rfl := Option.some.inj hc
    exact .inr rfl

/-- No piece starts with a space. -/
theorem Piece.Good.head?_ne_space (h : p.Good) : p.text.head? ≠ some ' ' := by
  cases p with
  | word name =>
    obtain ⟨c, others, hprint, hstart⟩ := name.exists_print
    rw [Piece.text, hprint]
    rintro ⟨⟩
    exact absurd hstart (by decide)
  | literal text =>
    obtain ⟨c, hhead, hmem⟩ := IsLiteral.head? h
    rw [Piece.text, hhead]
    rintro ⟨⟩
    exact absurd hmem (by decide)
  | mark c =>
    rintro ⟨⟩
    have hspace : isMark ' ' = true := h
    contradiction
  | opening delimiter | closing delimiter => cases delimiter <;> decide

/-- What starts with such a character is that character. -/
theorem Piece.Good.eq_of_head? (h : p.Good) (hc : c ∈ tightBefore) (hhead : p.text.head? = some c) :
    p.text = [c] := by
  cases p with
  | word name =>
    obtain ⟨d, others, hprint, hstart⟩ := name.exists_print
    have hmarks : ∀ c ∈ tightBefore, c ∈ outsideNames := by decide
    rw [Piece.text, hprint] at hhead
    obtain rfl := Option.some.inj hhead
    rw [isNameStart_of_mem_outsideNames d (hmarks d hc)] at hstart
    contradiction
  | literal text =>
    obtain ⟨d, hd, hmem⟩ := IsLiteral.head? h
    obtain rfl := Option.some.inj (hd.symm.trans hhead)
    exact absurd hc ((by decide : ∀ c ∈ '(' :: literalStarts, c ∉ tightBefore) d hmem)
  | mark d | opening delimiter | closing delimiter =>
    obtain rfl := Option.some.inj hhead
    rfl

theorem Piece.Good.ne_space (h : p.Good) (htext : p.text = [c]) : c ≠ ' ' := by
  rintro rfl
  exact h.head?_ne_space (by rw [htext]; rfl)

/-- Only a literal is changed by a replacement. -/
theorem Piece.Good.text_map (h : p.Good) (hspace : ' ' ∈ pattern) :
    (p.map (replace pattern replacement)).text = replace pattern replacement p.text := by
  have hsingle {q : Piece} {d : Char} (hq : q.Good) (htext : q.text = [d]) : ' ' ∉ q.text := by
    rw [htext, List.mem_singleton]
    exact (hq.ne_space htext).symm
  cases p with
  | literal text => rfl
  | word name =>
    refine (replace_of_not_mem hspace fun hmem => ?_).symm
    exact absurd (isFirm_of_mem_name name ' ' hmem) (by decide)
  | mark c | opening delimiter | closing delimiter =>
    exact (replace_of_not_mem hspace (hsingle h rfl)).symm

/-- A character that is a piece is not changed. -/
theorem Piece.Good.text_map_of_single (h : p.Good) (hspace : ' ' ∈ pattern) (htext : p.text = [c]) :
    (p.map (replace pattern replacement)).text = [c] := by
  rw [h.text_map hspace, htext]
  refine replace_of_not_mem hspace ?_
  rw [List.mem_singleton]
  exact (h.ne_space htext).symm

/-- The pieces of the layout may be read. -/
inductive Layout.Good : Layout → Prop
  | nil : Good []
  | cons {p : Piece} {isGap : Bool} {layout : Layout} : p.Good → layout.Good →
    Good ((p, isGap) :: layout)

theorem Safe.good (h : Safe layout) : layout.Good := by
  induction h with
  | nil => exact .nil
  | cons hgood _ _ ih => exact .cons hgood ih

/-- No layout starts with a space. -/
theorem Layout.Good.head?_ne_space (h : layout.Good) : layout.text.head? ≠ some ' ' := by
  cases h with
  | nil => exact fun hhead => absurd hhead (by decide)
  | cons hgood _ =>
    obtain ⟨d, others, htext⟩ := List.exists_cons_of_ne_nil hgood.text_ne_nil
    have hspace := hgood.head?_ne_space
    rw [Layout.text_cons, htext]
    rwa [htext] at hspace

/-- What starts with a mark at which spaces are taken out has it as its first piece. -/
theorem Layout.Good.eq_cons (h : layout.Good) (hc : c ∈ tightBefore) {rest : List Char}
    (htext : layout.text = c :: rest) :
    ∃ (p : Piece) (isGap : Bool) (others : Layout), layout = (p, isGap) :: others ∧
      p.text = [c] ∧ p.Good ∧ others.Good ∧ rest = gap isGap ++ others.text := by
  cases h with
  | nil => contradiction
  | @cons p isGap others hgood hothers =>
    obtain ⟨d, behind, hp⟩ := List.exists_cons_of_ne_nil hgood.text_ne_nil
    rw [Layout.text_cons, hp] at htext
    obtain ⟨rfl, hrest⟩ := List.cons.inj htext
    have hsingle := hgood.eq_of_head? hc (by rw [hp]; rfl)
    obtain rfl : behind = [] := (List.cons.inj (hp.symm.trans hsingle)).2
    exact ⟨p, isGap, others, rfl, hp, hgood, hothers, hrest.symm⟩

/-- A space in front of a layout is a gap. -/
theorem Layout.Good.eq_of_space (h : layout.Good) {isGap : Bool} {rest : List Char}
    (htext : ' ' :: rest = gap isGap ++ layout.text) : isGap = true ∧ rest = layout.text := by
  cases isGap with
  | true => exact ⟨rfl, (List.cons.inj htext).2⟩
  | false => exact absurd (congrArg List.head? htext.symm) h.head?_ne_space

/-- Two marks with a space behind them are two pieces with a gap behind the second one. -/
theorem Layout.Good.eq_pair (h : layout.Good) {rest : List Char}
    (htext : layout.text = ':' :: ':' :: ' ' :: rest) :
    ∃ (p q : Piece) (others : Layout), layout = (p, false) :: (q, true) :: others ∧
      p.text = [':'] ∧ p.Good ∧ q.text = [':'] ∧ q.Good ∧ others.Good ∧ rest = others.text := by
  obtain ⟨p, isGap, behind, rfl, hp, hpgood, hbehind, hrest⟩ := h.eq_cons (by decide) htext
  cases isGap with
  | true => exact absurd (List.cons.inj hrest).1 (by decide)
  | false =>
    obtain ⟨q, isGap, others, rfl, hq, hqgood, hothers, hrest⟩ :=
      hbehind.eq_cons (by decide) (Eq.symm hrest)
    obtain ⟨rfl, rfl⟩ := hothers.eq_of_space hrest
    exact ⟨p, q, others, rfl, hp, hpgood, hq, hqgood, hothers, rfl⟩

/-- A piece in front of a text is replaced by itself, if no pattern starts or goes on with it. -/
theorem Piece.Good.replace_append (h : p.Good) (hspace : ' ' ∈ pattern)
    (hfirm : ∀ c ∈ pattern.dropLast, isFirm c = false ∧ p.text ≠ [c]) (text : List Char) :
    replace pattern replacement (p.text ++ text) =
      (p.map (replace pattern replacement)).text ++ replace pattern replacement text := by
  rw [h.text_map hspace]
  refine Text.replace_append (List.ne_nil_of_mem hspace) (fun c hc hmem => ?_) text
  obtain ⟨hloose, hne⟩ := hfirm c hmem
  rcases h.isFirm_getLast? hc with hlast | hlast
  · rw [hloose] at hlast
    contradiction
  · exact hne hlast

end Syntax

namespace Dispatch

open Syntax Text

variable {pattern replacement : List Char} {f : List Char → List Char} {p : Piece}
  {layout tight : Layout} {c : Char}

/-- A space in front of the piece may be taken out. -/
def TightBefore (p : Piece) : Prop := ∃ c ∈ tightBefore, p.text = [c]

/-- A space behind the piece may be taken out. -/
def TightBehind (p : Piece) : Prop := ∃ c ∈ tightBehind, p.text = [c]

/-- The same pieces, with other literals and without some of the spaces at such pieces. -/
inductive Tightened (f : List Char → List Char) : Layout → Layout → Prop
  | nil : Tightened f [] []
  | keep (p : Piece) (isGap : Bool) {layout tight : Layout} : Tightened f layout tight →
    Tightened f ((p, isGap) :: layout) ((p.map f, isGap) :: tight)
  | close {p : Piece} {layout tight : Layout} :
    (TightBehind p ∨ ∃ q ∈ layout.first?, TightBefore q) → Tightened f layout tight →
    Tightened f ((p, true) :: layout) ((p.map f, false) :: tight)

/-- A replacement gives the text of a tightened layout. -/
def Gives (pattern replacement : List Char) (layout : Layout) : Prop :=
  ∃ tight : Layout, tight.text = replace pattern replacement layout.text ∧
    Tightened (replace pattern replacement) layout tight

theorem gives_nil : Gives pattern replacement [] := ⟨[], rfl, .nil⟩

/-- A piece and what is behind it stay. -/
theorem Gives.keep (h : Gives pattern replacement layout) {isGap : Bool}
    (htext : replace pattern replacement (p.text ++ (gap isGap ++ layout.text)) =
      (p.map (replace pattern replacement)).text ++
        (gap isGap ++ replace pattern replacement layout.text)) :
    Gives pattern replacement ((p, isGap) :: layout) := by
  obtain ⟨tight, hlayout, htight⟩ := h
  exact ⟨_, by rw [Layout.text_cons, Layout.text_cons, htext, hlayout], .keep p isGap htight⟩

/-- The space behind a piece is taken out. -/
theorem Gives.close (h : Gives pattern replacement layout)
    (hp : TightBehind p ∨ ∃ q ∈ layout.first?, TightBefore q)
    (htext : replace pattern replacement (p.text ++ (gap true ++ layout.text)) =
      (p.map (replace pattern replacement)).text ++ replace pattern replacement layout.text) :
    Gives pattern replacement ((p, true) :: layout) := by
  obtain ⟨tight, hlayout, htight⟩ := h
  refine ⟨_, ?_, .close hp htight⟩
  rw [Layout.text_cons, Layout.text_cons, htext, hlayout, gap, if_neg Bool.false_ne_true,
    List.nil_append]

/-- A gap stays in front of a pattern that starts with something else. -/
theorem replace_gap (hc : c ≠ ' ') (isGap : Bool) (text : List Char) :
    replace (c :: pattern) replacement (gap isGap ++ text) =
      gap isGap ++ replace (c :: pattern) replacement text := by
  refine replace_append_of_not_mem (fun hmem => ?_) text
  cases isGap with
  | true => exact hc (List.mem_singleton.1 hmem)
  | false => contradiction

/-- Spaces in front of a mark are taken out. -/
theorem gives_before (hc : c ∈ tightBefore) (hgood : layout.Good) : Gives [' ', c] [c] layout := by
  have hspace : ' ' ≠ c := by
    rintro rfl
    exact absurd hc (by decide)
  induction hgood with
  | nil => exact gives_nil
  | @cons p isGap layout hp hgood ih =>
    have hpiece (text : List Char) : replace [' ', c] [c] (p.text ++ text) =
        (p.map (replace [' ', c] [c])).text ++ replace [' ', c] [c] text := by
      refine hp.replace_append List.mem_cons_self (fun d hd => ?_) text
      obtain rfl := List.mem_singleton.1 hd
      exact ⟨by decide, fun htext => hp.ne_space htext rfl⟩
    cases isGap with
    | false => exact ih.keep (hpiece layout.text)
    | true =>
      by_cases hstarts : [' ', c] <+: ' ' :: layout.text
      · obtain ⟨rest, hrest⟩ := hstarts
        have hlayout : layout.text = c :: rest := (List.cons.inj hrest).2.symm
        -- The mark is the start of the next piece, which closes up to this one.
        obtain ⟨q, isGap, others, rfl, hq, -⟩ := hgood.eq_cons hc hlayout
        refine ih.close (.inr ⟨q, rfl, c, hc, hq⟩) ?_
        have hnot : ¬ [' ', c] <+: c :: rest := fun h => hspace (List.cons_prefix_cons.1 h).1
        have hoccurrence := replace_occurrence ' ' [c] [c] rest
        rw [hpiece, hlayout, replace_cons hnot]
        exact congrArg _ hoccurrence
      · -- The space stands in front of something else.
        refine ih.keep ?_
        rw [hpiece]
        exact congrArg _ (replace_cons hstarts)

/-- Spaces behind a mark are taken out. -/
theorem gives_behind (hc : c ∈ tightBehind) (hgood : layout.Good) : Gives [c, ' '] [c] layout := by
  have hspace : c ≠ ' ' := by
    rintro rfl
    exact absurd hc (by decide)
  have hloose : isFirm c = false := Bool.eq_false_iff.2 fun hfirm => (isFirm_iff.1 hfirm).2 hc
  have hmem : ' ' ∈ [c, ' '] := List.mem_cons_of_mem _ List.mem_cons_self
  induction hgood with
  | nil => exact gives_nil
  | @cons p isGap layout hp hgood ih =>
    by_cases htext : p.text = [c]
    · have hmap : (p.map (replace [c, ' '] [c])).text = [c] := hp.text_map_of_single hmem htext
      cases isGap with
      | true =>
        refine ih.close (.inl ⟨c, hc, htext⟩) ?_
        rw [hmap, htext]
        exact replace_occurrence c [' '] [c] layout.text
      | false =>
        refine ih.keep ?_
        rw [hmap, htext]
        -- The layout has no space here, and the next piece starts with none.
        refine replace_cons fun hstarts => ?_
        obtain ⟨rest, hrest⟩ := (List.cons_prefix_cons.1 hstarts).2
        exact hgood.head?_ne_space (congrArg List.head? hrest).symm
    · refine ih.keep ?_
      rw [hp.replace_append hmem fun d hd => ?_]
      · rw [replace_gap hspace]
      · obtain rfl := List.mem_singleton.1 hd
        exact ⟨hloose, htext⟩

/-- Spaces behind a separator of paths are taken out. -/
theorem gives_pair (hgood : layout.Good) : Gives [':', ':', ' '] [':', ':'] layout := by
  have hmem : ' ' ∈ [':', ':', ' '] := by decide
  -- The mark of a path is two pieces, which are taken at once; so the induction is on the length.
  induction hlength : layout.length using Nat.strong_induction_on generalizing layout with
  | _ length ih =>
  subst hlength
  cases hgood with
  | nil => exact gives_nil
  | @cons p isGap layout hp hgood =>
    have hlayout := ih _ (Nat.lt_succ_self _) hgood rfl
    by_cases hstarts : [':', ':', ' '] <+: Layout.text ((p, isGap) :: layout)
    · obtain ⟨rest, hrest⟩ := hstarts
      obtain ⟨p, q, others, heq, hp, hpgood, hq, hqgood, hothers, rfl⟩ :=
        Layout.Good.eq_pair (.cons hp hgood) hrest.symm
      obtain ⟨⟨rfl, rfl⟩, rfl⟩ := List.cons.inj heq
      have hshorter : others.length < ((p, false) :: (q, true) :: others).length :=
        Nat.lt_add_of_pos_right Nat.two_pos
      obtain ⟨tight, hothers, htight⟩ := ih others.length hshorter hothers rfl
      refine ⟨_, ?_, .keep p false (.close (.inl ⟨':', by decide, hq⟩) htight)⟩
      rw [← hrest, replace_occurrence, ← hothers, Layout.text_cons, Layout.text_cons,
        hpgood.text_map_of_single hmem hp, hqgood.text_map_of_single hmem hq]
      rfl
    · -- No mark of a path starts at this piece, which is kept with the space behind it.
      refine hlayout.keep ?_
      rw [← replace_gap (by decide)]
      by_cases htext : p.text = [':']
      · rw [hp.text_map_of_single hmem htext, htext]
        rw [Layout.text_cons, htext] at hstarts
        exact replace_cons hstarts
      · refine hp.replace_append hmem (fun d hd => ?_) _
        obtain rfl : d = ':' := by simpa using hd
        exact ⟨by decide, htext⟩

/-- Spaces on both sides of it are taken out. -/
theorem gives_around (hgood : layout.Good) : Gives [' ', ':', ':', ' '] [':', ':'] layout := by
  have hmem : ' ' ∈ [' ', ':', ':', ' '] := List.mem_cons_self
  -- Up to three pieces are taken at once here.
  induction hlength : layout.length using Nat.strong_induction_on generalizing layout with
  | _ length ih =>
  subst hlength
  cases hgood with
  | nil => exact gives_nil
  | @cons p isGap layout hp hgood =>
    have hlayout := ih _ (Nat.lt_succ_self _) hgood rfl
    -- No occurrence of the pattern starts inside of a piece.
    have hpiece (text : List Char) : replace [' ', ':', ':', ' '] [':', ':'] (p.text ++ text) =
        (p.map (replace [' ', ':', ':', ' '] [':', ':'])).text ++
          replace [' ', ':', ':', ' '] [':', ':'] text := by
      by_cases htext : p.text = [':']
      · rw [hp.text_map_of_single hmem htext, htext]
        exact replace_cons fun h => absurd (List.cons_prefix_cons.1 h).1 (by decide)
      · refine hp.replace_append hmem (fun d hd => ?_) _
        have hpattern : d = ' ' ∨ d = ':' := by simpa using hd
        rcases hpattern with rfl | rfl
        · exact ⟨by decide, fun hspace => hp.ne_space hspace rfl⟩
        · exact ⟨by decide, htext⟩
    cases isGap with
    -- A piece without a space behind it is kept as it is.
    | false => exact hlayout.keep (hpiece layout.text)
    | true =>
      by_cases hstarts : [' ', ':', ':', ' '] <+: ' ' :: layout.text
      · -- A space and two joint colons with a space behind: both gaps are closed, and what is
        -- behind the second colon comes next.
        obtain ⟨rest, hrest⟩ := hstarts
        obtain ⟨q, r, others, rfl, hq, hqgood, hr, hrgood, hothers, rfl⟩ :=
          hgood.eq_pair (List.cons.inj hrest).2.symm
        have hshorter : others.length < ((p, true) :: (q, false) :: (r, true) :: others).length :=
          Nat.lt_add_of_pos_right (Nat.succ_pos 2)
        obtain ⟨tight, hothers, htight⟩ := ih others.length hshorter hothers rfl
        refine ⟨_, ?_, .close (.inr ⟨q, rfl, ':', by decide, hq⟩)
          (.keep q false (.close (.inl ⟨':', by decide, hr⟩) htight))⟩
        have hbehind : replace [' ', ':', ':', ' '] [':', ':']
            (gap true ++ Layout.text ((q, false) :: (r, true) :: others)) =
              [':', ':'] ++ tight.text := by
          rw [hothers, ← replace_occurrence]
          exact congrArg _ hrest.symm
        rw [Layout.text_cons p true, hpiece, hbehind, Layout.text_cons, Layout.text_cons,
          Layout.text_cons, hqgood.text_map_of_single hmem hq, hrgood.text_map_of_single hmem hr]
        rfl
      · -- Any other space is kept.
        refine hlayout.keep ?_
        rw [hpiece]
        exact congrArg _ (replace_cons hstarts)

/-- Each of the replacements tightens the layout. -/
theorem gives_of_mem_tightenings (hgood : layout.Good) :
    ∀ t ∈ tightenings, Gives t.1.toList t.2.toList layout := by
  simp only [tightenings, List.forall_mem_cons]
  exact ⟨gives_around hgood, gives_pair hgood,
    gives_behind (by decide) hgood, gives_before (by decide) hgood, gives_behind (by decide) hgood,
    gives_before (by decide) hgood, gives_before (by decide) hgood, gives_behind (by decide) hgood,
    gives_before (by decide) hgood, gives_behind (by decide) hgood, gives_before (by decide) hgood,
    gives_before (by decide) hgood, fun _ h => absurd h List.not_mem_nil⟩

/-! ## Safe layouts stay safe -/

theorem map_fst_of_tightened (h : Tightened f layout tight) :
    tight.map Prod.fst = (layout.map Prod.fst).map (Piece.map f) := by
  induction h with
  | nil => rfl
  | keep _ _ _ ih | close _ _ ih => exact congrArg _ ih

theorem first?_of_tightened (h : Tightened f layout tight) :
    tight.first? = layout.first?.map (Piece.map f) := by
  cases h <;> rfl

/-- What the replacement does to literals is harmless. -/
structure KeepsLiterals (f : List Char → List Char) : Prop where
  literal : ∀ text, IsLiteral text → IsLiteral (f text)
  startsLikeWord : ∀ text, StartsLikeWord text → StartsLikeWord (f text)

theorem keepsLiterals_replace (h : Tightens pattern replacement) :
    KeepsLiterals (replace pattern replacement) := by
  constructor
  · exact fun text hliteral => hliteral.squeezes (squeezes_replace h text)
  · rintro text ⟨letters, body, hletters, rfl⟩
    have hfirm : ∀ l ∈ ["r", "b", "br", "c", "cr"], ∀ c ∈ l.toList ++ ['"'], isFirm c = true := by
      decide
    have hsqueezes := squeezes_replace h (letters.toList ++ '"' :: body)
    rw [List.append_cons] at hsqueezes
    obtain ⟨out, hout, -⟩ := hsqueezes.append_of_isFirm _ (hfirm letters hletters)
    refine ⟨letters, out, hletters, ?_⟩
    rw [List.append_cons, hout, ← List.append_cons]

theorem KeepsLiterals.good (h : KeepsLiterals f) (hp : p.Good) : (p.map f).Good := by
  cases p with
  | literal text => exact h.literal text hp
  | word | mark | opening | closing => exact hp

/-- A word or a literal is no mark at which a space is taken out. -/
theorem TightBefore.ends (hgood : p.Good) (h : TightBefore p) : p.Ends := by
  obtain ⟨c, hc, htext⟩ := h
  cases p with
  | word name =>
    -- No word and no literal starts with such a mark.
    obtain ⟨d, others, hprint, hstart⟩ := name.exists_print
    have hmarks : ∀ c ∈ tightBefore, isNameStart c = false := by decide
    obtain rfl := (List.cons.inj (hprint.symm.trans htext)).1
    rw [hmarks d hc] at hstart
    contradiction
  | literal text =>
    obtain ⟨d, hd, hmem⟩ := IsLiteral.head? hgood
    obtain rfl : text = [c] := htext
    obtain rfl := Option.some.inj hd
    exact absurd hc ((by decide : ∀ c ∈ '(' :: literalStarts, c ∉ tightBefore) c hmem)
  | mark d =>
    obtain rfl := (List.cons.inj htext).1
    have hmarks : ∀ c ∈ tightBefore, c ∈ endMarks := by decide
    exact hmarks d hc
  | opening delimiter =>
    obtain rfl := (List.cons.inj htext).1
    cases delimiter <;> exact absurd hc (by decide)
  | closing => trivial

theorem TightBehind.not_isFirm (h : TightBehind p) : ∃ c ∈ p.text.getLast?, isFirm c = false := by
  obtain ⟨c, hc, htext⟩ := h
  refine ⟨c, by rw [htext]; rfl, Bool.eq_false_iff.2 fun hfirm => ?_⟩
  exact (isFirm_iff.1 hfirm).2 hc

theorem Stands.map {isGap : Bool} {next : Option Piece} (hf : KeepsLiterals f)
    (h : p.Stands isGap next) : (p.map f).Stands isGap (next.map (Piece.map f)) := by
  have hends (h : isGap = true ∨ ∀ q ∈ next, q.Ends) :
      isGap = true ∨ ∀ q ∈ next.map (Piece.map f), q.Ends := by
    refine h.imp_right fun hnext q hq => ?_
    obtain ⟨q, hmem, rfl⟩ := Option.map_eq_some_iff.1 hq
    have hq := hnext q hmem
    cases q <;> exact hq
  cases p with
  -- What stands behind a word or a literal has to end it, and is of the same kind afterwards.
  | word | literal => exact hends h
  | mark c =>
    -- An apostrophe and a slash are the marks for which it matters what follows.
    by_cases hquote : c = '\''
    · subst hquote
      obtain ⟨hgap, q, hq, hfollows⟩ := h
      refine ⟨hgap, q.map f, by rw [hq]; rfl, ?_⟩
      cases q with
      | word => trivial
      | literal text => exact hf.startsLikeWord text hfollows
      | mark | opening | closing => exact hfollows
    · by_cases hslash : c = '/'
      · subst hslash
        refine Or.imp_right (fun hnext q hq => ?_) h
        obtain ⟨q, hmem, rfl⟩ := Option.map_eq_some_iff.1 hq
        have hq := hnext q hmem
        cases q with
        | mark => exact hq
        | word | literal | opening | closing => exact ⟨by simp [Piece.map], by simp [Piece.map]⟩
      · exact stands_mark hquote hslash
  | opening | closing => trivial

/-- Where a space may be taken out, the piece in front of it may stand without it. -/
theorem Stands.close {next : Option Piece} (hp : p.Good) (hnext : ∀ q ∈ next, q.Good)
    (h : p.Stands true next) (htight : TightBehind p ∨ ∃ q ∈ next, TightBefore q) :
    p.Stands false next := by
  have hends (hfirm : ∀ c ∈ p.text.getLast?, isFirm c = true) :
      false = true ∨ ∀ q ∈ next, q.Ends := by
    rcases htight with hbehind | ⟨q, hq, hbefore⟩
    · obtain ⟨c, hc, hloose⟩ := hbehind.not_isFirm
      rw [hfirm c hc] at hloose
      contradiction
    · refine .inr fun q' hq' => ?_
      obtain rfl := Option.some.inj (hq.symm.trans hq')
      exact hbefore.ends (hnext q hq)
  cases p with
  -- Names and literals end with a firm character, so it is the next piece that is tight, and it
  -- ends them.
  | word name => exact hends fun c hc => isFirm_of_mem_name name c (List.mem_of_getLast? hc)
  | literal text => exact hends (IsLiteral.isFirm_getLast? hp)
  | mark c =>
    -- An apostrophe has no space behind it, and no mark behind a slash lets one be taken out.
    by_cases hquote : c = '\''
    · subst hquote
      exact absurd h.1 Bool.true_eq_false.mp
    · by_cases hslash : c = '/'
      · subst hslash
        rcases htight with ⟨c, hc, htext⟩ | ⟨q, hq, c, hc, htext⟩
        · obtain rfl := (List.cons.inj htext).1
          exact absurd hc (by decide)
        · refine .inr fun q' hq' => ?_
          obtain rfl := Option.some.inj (hq.symm.trans hq')
          have hother (d : Char) (hd : d ∉ tightBefore) : q ≠ .mark d := by
            rintro rfl
            obtain rfl := (List.cons.inj htext).1
            exact hd hc
          exact ⟨hother '/' (by decide), hother '*' (by decide)⟩
      · exact stands_mark hquote hslash
  | opening | closing => trivial

/-- What is safe stays safe. -/
theorem Safe.tightened (h : Safe layout) (hf : KeepsLiterals f)
    (htight : Tightened f layout tight) : Safe tight := by
  induction htight with
  | nil => exact .nil
  | @keep p isGap layout tight htight ih =>
    cases h with
    | cons hgood hstands hrest =>
      refine .cons (hf.good hgood) ?_ (ih hrest)
      rw [first?_of_tightened htight]
      exact Stands.map hf hstands
  | @close p layout tight hclose htight ih =>
    cases h with
    | cons hgood hstands hrest =>
      refine .cons (hf.good hgood) ?_ (ih hrest)
      rw [first?_of_tightened htight]
      exact Stands.map hf (Stands.close hgood hrest.good_of_first? hstands hclose)

/-- One replacement after the other gives the text of a layout with the same pieces, up to
literals. -/
theorem exists_foldl {patterns : List (String × String)}
    (hpatterns : ∀ t ∈ patterns, t ∈ tightenings) (h : Safe layout) :
    ∃ tight : Layout, tight.text = replaceAll patterns layout.text ∧ Safe tight ∧
      tight.map Prod.fst = (layout.map Prod.fst).map (Piece.map (replaceAll patterns)) := by
  induction patterns generalizing layout with
  | nil =>
    refine ⟨layout, rfl, h, ?_⟩
    exact (List.map_id'' Piece.map_id _).symm
  | cons t patterns ih =>
    obtain ⟨ht, hpatterns⟩ := List.forall_mem_cons.1 hpatterns
    obtain ⟨middle, hmiddle, htight⟩ := gives_of_mem_tightenings h.good t ht
    have hf := keepsLiterals_replace (tightens_of_mem_tightenings t ht)
    obtain ⟨tight, htext, hsafe, hpieces⟩ := ih hpatterns (Safe.tightened h hf htight)
    refine ⟨tight, ?_, hsafe, ?_⟩
    · rw [htext, hmiddle]
      rfl
    · rw [hpieces, map_fst_of_tightened htight, List.map_map]
      exact List.map_congr_left fun p _ => p.map_map _ _

/-- The tightened text of a layout is that of a layout, with the same pieces up to literals. -/
theorem exists_tight (h : Safe layout) :
    ∃ tight : Layout, tight.text = tighten layout.text ∧ Safe tight ∧
      tight.map Prod.fst = (layout.map Prod.fst).map (Piece.map tighten) := by
  simp only [funext tighten_eq_replaceAll]
  exact exists_foldl (fun _ ht => ht) h

end Dispatch

end UnitLoader
