import UnitLoader.Proofs.Syntax.Module
import UnitLoader.Proofs.Syntax.Whole

/-!
# Parsers that print whole trees

A parser that takes whole trees off the front and prints whole trees `PrintsWhole`. Steps one after
the other do if each of them does, and so do all ways to put parsers together, so this is a class
and most parsers of the grammar are found to have the property by their parts. Where what a parser
gives is printed later, it is `Gives` that says what is known of it.

One operator is torn from what stands behind it: the slash, which must not be the last tree that is
taken if it is joined. What is taken with it is whole because something is taken behind it
(`prints_operator`); `Takes` says that a parser takes something.
-/

namespace UnitLoader.Syntax

/-! ## Operators -/

/-- The characters are marks, none is an apostrophe, and none starts a comment with the next. -/
def isSpelling : List Char → Bool
  | [] => true
  | c :: rest => isMark c && c != '\'' &&
      !(c == '/' && (rest.head? == some '/' || rest.head? == some '*')) && isSpelling rest

/-- The trees of an operator are whole. -/
theorem whole_symbol {spelling : List Char} (h : isSpelling spelling = true) :
    Whole (TokenTree.symbol spelling) := by
  induction spelling with
  | nil => exact .nil
  | cons c rest ih =>
    simp only [isSpelling, Bool.and_eq_true, Bool.not_eq_true', bne_iff_ne, ne_eq] at h
    obtain ⟨⟨⟨hmark, hquote⟩, hcomment⟩, hrest⟩ := h
    cases rest with
    | nil => exact whole_alone hmark hquote .nil
    | cons d rest =>
      refine .token hmark ?_ (ih hrest)
      by_cases hslash : c = '/'
      · subst hslash
        have hfront : frontOf (TokenTree.symbol (d :: rest)) = some (.mark d) := by
          cases rest <;> rfl
        refine ⟨.mark d, hfront, ?_, ?_⟩ <;> rintro ⟨⟩ <;> simp at hcomment
      · exact joins_mark hquote (.inl hslash)

theorem ne_apostrophe_of_isSpelling {spelling : List Char} (h : isSpelling spelling = true) :
    ∀ c ∈ spelling, c ≠ '\'' := by
  induction spelling with
  | nil => exact fun c hc => absurd hc List.not_mem_nil
  | cons d rest ih =>
    simp only [isSpelling, Bool.and_eq_true, bne_iff_ne] at h
    exact List.forall_mem_cons.2 ⟨h.1.1.2, ih h.2⟩

/-- The trees of an operator in front end with its last mark. -/
theorem Ahead.exists_of_marks {spelling : List Char} {ts : List TokenTree} {last : Char}
    (h : Ahead.marks spelling ts = true) (hlast : spelling.getLast? = some last) :
    ∃ front joint, ts = front ++ .token (.mark last joint) :: ts.drop spelling.length := by
  induction spelling generalizing ts with
  | nil => contradiction
  | cons c rest ih =>
    unfold Ahead.marks at h
    split at h
    case h_1 => contradiction
    -- The last mark of an operator may be joint or not.
    case h_2 d joint others hone =>
      obtain ⟨rfl, rfl⟩ := List.cons.inj hone
      obtain rfl := Option.some.inj hlast
      refine ⟨[], joint, ?_⟩
      rw [beq_iff_eq.1 h]
      rfl
    case h_3 d rest' others hne hmore =>
      obtain ⟨rfl, rfl⟩ := List.cons.inj hmore
      cases rest with
      | nil => exact (hne rfl).elim
      | cons next rest =>
        rw [List.getLast?_cons_cons] at hlast
        obtain ⟨front, joint, hothers⟩ := ih (Bool.and_eq_true_iff.1 h).2 hlast
        exact ⟨_ :: front, joint, congrArg (_ :: ·) hothers⟩
    case h_4 => contradiction

/-- The operator may be taken by itself: what stands behind its last mark does not belong to it. -/
class Operator (spelling : String) : Prop where
  /-- Its marks make whole trees. -/
  isSpelling : isSpelling spelling.toList = true
  /-- It ends with a mark that is no slash. -/
  ends : spelling.toList.getLast?.any (· != '/') = true

instance : Operator "!" := ⟨by decide, by decide⟩
instance : Operator "#" := ⟨by decide, by decide⟩
instance : Operator "&" := ⟨by decide, by decide⟩
instance : Operator "*" := ⟨by decide, by decide⟩
instance : Operator "+" := ⟨by decide, by decide⟩
instance : Operator "," := ⟨by decide, by decide⟩
instance : Operator "-" := ⟨by decide, by decide⟩
instance : Operator "->" := ⟨by decide, by decide⟩
instance : Operator "." := ⟨by decide, by decide⟩
instance : Operator ".." := ⟨by decide, by decide⟩
instance : Operator "..." := ⟨by decide, by decide⟩
instance : Operator "..=" := ⟨by decide, by decide⟩
instance : Operator ":" := ⟨by decide, by decide⟩
instance : Operator "::" := ⟨by decide, by decide⟩
instance : Operator ";" := ⟨by decide, by decide⟩
instance : Operator "<" := ⟨by decide, by decide⟩
instance : Operator "=" := ⟨by decide, by decide⟩
instance : Operator "=>" := ⟨by decide, by decide⟩
instance : Operator ">" := ⟨by decide, by decide⟩
instance : Operator "?" := ⟨by decide, by decide⟩
instance : Operator "@" := ⟨by decide, by decide⟩
instance : Operator "|" := ⟨by decide, by decide⟩

instance {condition : Prop} [Decidable condition] {s s' : String} [Operator s] [Operator s'] :
    Operator (if condition then s else s') := by
  split <;> assumption

namespace Parser

/-! ## What is taken and what is printed -/

/-- From one cursor to another whole trees are taken, and what is printed then is whole. -/
structure Leads (c c' : Cursor) : Prop where
  /-- The trees that are taken are whole. -/
  taken : ∃ taken, c.rest = taken ++ c'.rest ∧ Whole taken
  /-- So are those that are printed. -/
  printed : Whole c'.printed.reverse

/-- Nothing but whole trees is left and printed. -/
structure Sound (c : Cursor) : Prop where
  /-- What is left. -/
  rest : Whole c.rest
  /-- What is printed. -/
  printed : Whole c.printed.reverse

/-- Where trees are whole, the parser takes whole trees and prints whole trees. -/
class PrintsWhole {α : Type} (p : Parser α) : Prop where
  leads : ∀ {c c' : Cursor} {a : α}, Sound c → p.run c = some (a, c') → Leads c c'

/-- Besides, this holds of what it gives. -/
structure Gives {α : Type} (p : Parser α) (Q : α → Prop) : Prop extends PrintsWhole p where
  given : ∀ {c c' : Cursor} {a : α}, Sound c → p.run c = some (a, c') → Q a

section

variable {α β σ : Type} {p q : Parser α} {f : α → Parser β} {c c' c'' : Cursor} {a : α}
  {P Q : α → Prop} {R : β → Prop} {ts : List TokenTree}

theorem Leads.sound (h : Leads c c') (hc : Sound c) : Sound c' := by
  obtain ⟨taken, htaken, -⟩ := h.taken
  exact ⟨(htaken ▸ hc.rest).of_append, h.printed⟩

theorem leads_self (h : Sound c) : Leads c c := ⟨⟨[], rfl, .nil⟩, h.printed⟩

theorem Leads.trans (h : Leads c c') (h' : Leads c' c'') : Leads c c'' := by
  obtain ⟨first, hfirst, hwhole⟩ := h.taken
  obtain ⟨second, hsecond, hwhole'⟩ := h'.taken
  refine ⟨⟨first ++ second, ?_, hwhole.append hwhole'⟩, h'.printed⟩
  rw [hfirst, hsecond, List.append_assoc]

/-- One tree is taken and printed. -/
theorem leads_of_front {front rest : List TokenTree} (h : Sound c) (hrest : c.rest = front ++ rest)
    (hfront : Whole front) (hprinted : Whole ts) :
    Leads c ⟨rest, ts.reverse ++ c.printed⟩ := by
  refine ⟨⟨front, hrest, hfront⟩, ?_⟩
  rw [List.reverse_append, List.reverse_reverse]
  exact h.printed.append hprinted

theorem Gives.run (h : Gives p Q) (hc : Sound c) (hrun : p.run c = some (a, c')) :
    Leads c c' ∧ Q a := ⟨h.leads hc hrun, h.given hc hrun⟩

theorem gives_of_run (h : ∀ {c c' : Cursor} {a : α}, Sound c → p.run c = some (a, c') →
    Leads c c' ∧ Q a) : Gives p Q :=
  { leads := fun hc hrun => (h hc hrun).1, given := fun hc hrun => (h hc hrun).2 }

/-- Nothing is known of what other parsers give. -/
theorem PrintsWhole.gives [h : PrintsWhole p] : Gives p fun _ => True :=
  { leads := h.leads, given := fun _ _ => trivial }

theorem Gives.mono (h : Gives p P) (hPQ : ∀ a, P a → Q a) : Gives p Q :=
  { leads := h.leads, given := fun hc hrun => hPQ _ (h.given hc hrun) }

/-! ## Putting parsers together -/

/-- What is known of what the first step gives may be used in the second one. -/
theorem Gives.bind (hp : Gives p Q) (hf : ∀ a, Q a → Gives (f a) R) : Gives (p >>= f) R := by
  refine gives_of_run fun hc hrun => ?_
  obtain ⟨a, c₁, hfirst, hsecond⟩ := bind_eq_some hrun
  obtain ⟨hleads, hgiven⟩ := hp.run hc hfirst
  obtain ⟨hleads', hgiven'⟩ := (hf a hgiven).run (hleads.sound hc) hsecond
  exact ⟨hleads.trans hleads', hgiven'⟩

theorem Gives.prints_bind (hp : Gives p Q) (hf : ∀ a, Q a → PrintsWhole (f a)) :
    PrintsWhole (p >>= f) :=
  (hp.bind fun a ha => have := hf a ha; PrintsWhole.gives).toPrintsWhole

/-- If nothing is known of it, the second one decides. -/
theorem gives_bind [PrintsWhole p] (hf : ∀ a, Gives (f a) R) : Gives (p >>= f) R :=
  PrintsWhole.gives.bind fun a _ => hf a

theorem gives_pure (h : Q a) : Gives (pure a) Q := by
  refine gives_of_run fun hc hrun => ?_
  obtain ⟨rfl, rfl⟩ := pure_eq_some hrun
  exact ⟨leads_self hc, h⟩

theorem Gives.map {g : α → β} (h : Gives p Q) (hg : ∀ a, Q a → R (g a)) : Gives (g <$> p) R :=
  h.bind fun a ha => gives_pure (hg a ha)

theorem Gives.ite {condition : Prop} [Decidable condition] (hp : Gives p Q) (hq : Gives q Q) :
    Gives (if condition then p else q) Q := by
  split
  · exact hp
  · exact hq

instance [PrintsWhole p] [∀ a, PrintsWhole (f a)] : PrintsWhole (p >>= f) :=
  (gives_bind fun a => (PrintsWhole.gives : Gives (f a) _)).toPrintsWhole

theorem prints_bind [PrintsWhole p] (hf : ∀ a, PrintsWhole (f a)) : PrintsWhole (p >>= f) :=
  inferInstance

instance : PrintsWhole (pure a : Parser α) :=
  (gives_pure (Q := fun _ => True) trivial).toPrintsWhole

theorem gives_failure : Gives (failure : Parser α) Q := gives_of_run fun _ hrun => by contradiction

instance : PrintsWhole (failure : Parser α) :=
  (gives_failure (Q := fun _ => True)).toPrintsWhole

instance {g : α → β} [PrintsWhole p] : PrintsWhole (g <$> p) :=
  inferInstanceAs (PrintsWhole (p >>= fun a => pure (g a)))

instance [PrintsWhole p] : PrintsWhole (Functor.discard p) :=
  inferInstanceAs (PrintsWhole (Function.const α PUnit.unit <$> p))

theorem PrintsWhole.ite {condition : Prop} [Decidable condition] (hp : PrintsWhole p)
    (hq : PrintsWhole q) : PrintsWhole (if condition then p else q) :=
  (Gives.ite (Q := fun _ => True) PrintsWhole.gives PrintsWhole.gives).toPrintsWhole

instance {condition : Prop} [Decidable condition] [hp : PrintsWhole p] [hq : PrintsWhole q] :
    PrintsWhole (if condition then p else q) := hp.ite hq

instance {condition : Bool} : PrintsWhole (require condition) :=
  inferInstanceAs (PrintsWhole (if condition then pure () else failure : Parser Unit))

/-! ## Looking and printing -/

theorem gives_look {g : List TokenTree → β} (h : ∀ ts, Whole ts → R (g ts)) : Gives (look g) R := by
  refine gives_of_run fun hc hrun => ?_
  cases hrun
  exact ⟨leads_self hc, h _ hc.rest⟩

theorem gives_rest : Gives rest Whole := gives_look fun _ h => h

instance {g : List TokenTree → β} : PrintsWhole (look g) :=
  (gives_look (R := fun _ => True) fun _ _ => trivial).toPrintsWhole

instance : PrintsWhole rest := gives_rest.toPrintsWhole

instance : PrintsWhole atEnd := inferInstanceAs (PrintsWhole (look List.isEmpty))

instance {test : List TokenTree → Bool} : PrintsWhole (peek test) :=
  inferInstanceAs (PrintsWhole (look test))

theorem prints_reprint {g : List TokenTree → List TokenTree}
    (h : ∀ printed, Whole printed.reverse → Whole (g printed).reverse) :
    PrintsWhole (reprint g) := by
  refine ⟨fun hc hrun => ?_⟩
  cases hrun
  exact ⟨⟨[], rfl, .nil⟩, h _ hc.printed⟩

/-- Whole trees may be printed behind others. -/
theorem prints_print (h : Whole ts) : PrintsWhole (print ts) :=
  prints_reprint fun printed hprinted => by
    rw [List.reverse_append, List.reverse_reverse]
    exact hprinted.append h

instance : PrintsWhole enclose := prints_reprint fun _ h => .group h .nil

/-! ## Single trees -/

/-- What is taken with an operator is whole, unless it ends with a slash and nothing is taken behind
it. -/
theorem Sound.whole_of_marks {spelling : String} {more behind : List TokenTree} (h : Sound c)
    (hspelling : isSpelling spelling.toList = true) (hmarks : Ahead.symbol spelling c.rest = true)
    (hbehind : c.rest.drop spelling.toList.length = more ++ behind) (hmore : Whole more)
    (hends : spelling.toList.getLast? ≠ some '/' ∨ more ≠ []) :
    ∃ taken, c.rest = taken ++ behind ∧ Whole taken := by
  cases hlast : spelling.toList.getLast? with
  | none =>
    -- An operator without characters is nothing.
    rw [List.getLast?_eq_none_iff.1 hlast] at hbehind
    exact ⟨more, hbehind, hmore⟩
  | some last =>
    obtain ⟨front, joint, hfront⟩ := Ahead.exists_of_marks hmarks hlast
    rw [hbehind] at hfront
    refine ⟨front ++ .token (.mark last joint) :: more, by simp [hfront], ?_⟩
    have hrest : Whole ((front ++ .token (.mark last joint) :: more) ++ behind) := by
      have hc := h.rest
      rw [hfront] at hc
      simpa using hc
    -- What was taken is whole if its last tree is not torn from what stands behind.
    refine hrest.of_front fun t ht => ?_
    cases more with
    | nil =>
      -- The operator itself is the end, so it is no slash.
      rw [List.getLast?_concat] at ht
      obtain rfl := TokenTree.token.inj (Option.some.inj ht)
      refine joins_mark ?_ (.inl ?_)
      · exact ne_apostrophe_of_isSpelling hspelling last (List.mem_of_getLast? hlast)
      · rintro rfl
        exact hends.elim (· hlast) (· rfl)
    | cons next more =>
      -- The end is that of the trees behind it, which are whole by themselves.
      refine hmore.joins_getLast? ?_
      rw [← ht, List.getLast?_append_cons, List.getLast?_cons_cons]

theorem symbolAs_eq_some {spelling printed : String} {u : Unit}
    (h : (symbolAs spelling printed).run c = some (u, c')) :
    Ahead.symbol spelling c.rest = true ∧ c' = ⟨c.rest.drop spelling.toList.length,
      (TokenTree.symbol printed.toList).reverse ++ c.printed⟩ := by
  unfold symbolAs at h
  dsimp only at h
  split at h
  · rename_i hahead
    cases h
    exact ⟨hahead, rfl⟩
  · contradiction

instance {spelling printed : String} [hop : Operator spelling] [hprinted : Operator printed] :
    PrintsWhole (symbolAs spelling printed) := by
  refine ⟨fun {c c' u} hc hrun => ?_⟩
  obtain ⟨hmarks, rfl⟩ := symbolAs_eq_some hrun
  have hends : spelling.toList.getLast? ≠ some '/' := by
    intro hslash
    have hany := hop.ends
    rw [hslash] at hany
    exact absurd hany (by decide)
  refine ⟨hc.whole_of_marks hop.isSpelling hmarks (List.nil_append _).symm .nil (.inl hends), ?_⟩
  rw [List.reverse_append, List.reverse_reverse]
  exact hc.printed.append (whole_symbol hprinted.isSpelling)

instance {spelling : String} [Operator spelling] : PrintsWhole (symbol spelling) :=
  inferInstanceAs (PrintsWhole (symbolAs spelling spelling))

instance {spelling : String} [Operator spelling] : PrintsWhole (symbol? spelling) := by
  unfold symbol?
  infer_instance

theorem gives_word : Gives word fun n => (Piece.word n).Good := by
  refine gives_of_run fun {c c' n} hc hrun => ?_
  unfold word at hrun
  dsimp only at hrun
  split at hrun
  · cases hrun
    have hgood : (Piece.word n).Good := by
      cases hc.rest with
      | token hgood _ _ => exact hgood
    have hwhole := whole_word hgood .nil
    exact ⟨leads_of_front hc rfl hwhole hwhole, hgood⟩
  · contradiction

instance : PrintsWhole word := gives_word.toPrintsWhole

theorem gives_name : Gives name fun n => (Piece.word n).Good :=
  gives_bind fun _ => gives_bind fun _ => gives_word

instance : PrintsWhole name := gives_name.toPrintsWhole

instance {spelling : String} : PrintsWhole (keyword spelling) := by
  unfold keyword
  infer_instance

instance {spelling : String} : PrintsWhole (keyword? spelling) := by
  unfold keyword?
  infer_instance

/-- A lifetime is an apostrophe and a word. -/
theorem gives_lifetime : Gives lifetime fun n => (Piece.word n).Good := by
  refine gives_of_run fun {c c' n} hc hrun => ?_
  unfold lifetime at hrun
  dsimp only at hrun
  split at hrun
  · cases hrun
    have hgood : (Piece.word n).Good := by
      cases hc.rest with
      | token _ _ hrest =>
        cases hrest with
        | token hgood _ _ => exact hgood
    have hwhole := whole_lifetime hgood .nil
    exact ⟨leads_of_front hc rfl hwhole hwhole, hgood⟩
  · contradiction

instance : PrintsWhole lifetime := gives_lifetime.toPrintsWhole

theorem gives_lifetime? : Gives lifetime? fun n? => ∀ n ∈ n?, (Piece.word n).Good :=
  gives_bind fun _ => .ite (gives_lifetime.map fun n hn m hm => Option.some.inj hm ▸ hn)
    (gives_pure fun _ hm => absurd hm (by simp))

instance : PrintsWhole lifetime? := gives_lifetime?.toPrintsWhole

/-- A literal is one tree, or a number behind a minus sign. -/
theorem whole_of_literal {t : TokenTree} {others : List TokenTree}
    (h : Ahead.literal (t :: others) = true) (hwhole : Whole (t :: others)) :
    (Whole [t] ∧ ∀ mark joint, t ≠ .token (.mark mark joint)) ∨
      ∃ joint number behind, t = .token (.mark '-' joint) ∧ others = number :: behind ∧
        Whole [t, number] ∧ Whole [.alone '-', number] := by
  unfold Ahead.literal at h
  split at h
  case h_1 | h_2 =>
    rename_i hcons
    obtain ⟨rfl, rfl⟩ := List.cons.inj hcons
    cases hwhole with
    | token hgood _ _ => exact .inl ⟨.token hgood trivial .nil, nofun⟩
  case h_3 hcons =>
    obtain ⟨rfl, rfl⟩ := List.cons.inj hcons
    cases hwhole with
    | token hmark _ hrest =>
      cases hrest with
      | token hgood _ _ =>
        have hnumber := whole_literal hgood .nil
        exact .inr ⟨_, _, _, rfl, rfl, .token hmark (joins_mark (by decide) (.inl (by decide)))
          hnumber, whole_alone rfl (by decide) hnumber⟩
  case h_4 => contradiction

instance : PrintsWhole literal := by
  refine ⟨fun {c c' u} hc hrun => ?_⟩
  unfold literal at hrun
  dsimp only at hrun
  split at hrun
  · rename_i hahead
    split at hrun
    · rename_i mark joint number others hrest
      cases hrun
      rw [hrest] at hahead
      rcases whole_of_literal hahead (hrest ▸ hc.rest) with
        ⟨-, hmark⟩ | ⟨_, _, _, hminus, hothers, htaken, hprinted⟩
      · exact absurd rfl (hmark mark joint)
      · obtain ⟨rfl, rfl⟩ := List.cons.inj hothers
        exact leads_of_front hc hrest htaken hprinted
    · rename_i t others hmark hrest
      cases hrun
      rw [hrest] at hahead
      rcases whole_of_literal hahead (hrest ▸ hc.rest) with ⟨hone, -⟩ | ⟨_, _, _, rfl, rfl, -⟩
      · exact leads_of_front hc hrest hone hone
      · exact (hmark _ _ _ _ rfl rfl).elim
    · contradiction
  · contradiction

/-! ## Groups -/

theorem Gives.groupWithEnd {delimiter : Delimiter} (h : Gives p Q) :
    Gives (groupWithEnd delimiter p) fun found => Q found.1 := by
  refine gives_of_run fun {c c' found} hc hrun => ?_
  obtain ⟨a, close⟩ := found
  obtain ⟨content, printed, hrest, hcontent, hprinted⟩ := groupWithEnd_eq_some hrun
  have hgroup : Whole (.group delimiter content close :: c'.rest) := hrest ▸ hc.rest
  obtain ⟨hleads, hgiven⟩ := h.run (c := ⟨content, []⟩) ⟨hgroup.content, .nil⟩ hcontent
  obtain ⟨rest, all⟩ := c'
  obtain rfl : all = _ := hprinted
  have hwhole : Whole [.group delimiter printed.reverse close] := .group hleads.printed .nil
  exact ⟨leads_of_front hc hrest (.group hgroup.content .nil) hwhole, hgiven⟩

theorem Gives.group {delimiter : Delimiter} (h : Gives p Q) : Gives (group delimiter p) Q :=
  h.groupWithEnd.map fun _ ha => ha

instance {delimiter : Delimiter} [PrintsWhole p] : PrintsWhole (group delimiter p) :=
  (PrintsWhole.gives.group).toPrintsWhole

instance : PrintsWhole anyGroup := by
  refine ⟨fun {c c' d} hc hrun => ?_⟩
  unfold anyGroup at hrun
  dsimp only at hrun
  split at hrun
  · rename_i inside close rest printed
    cases hrun
    have hwhole : Whole [.group d inside close] := .group hc.rest.content .nil
    exact leads_of_front hc rfl hwhole hwhole
  · contradiction

/-! ## What is printed apart -/

theorem Gives.captured (h : Gives p Q) :
    Gives (captured p) fun found => Q found.1 ∧ Whole found.2 := by
  refine gives_of_run fun {c c' found} hc hrun => ?_
  unfold Parser.captured at hrun
  dsimp only at hrun
  split at hrun
  · rename_i a c₁ hp
    cases hrun
    obtain ⟨hleads, hgiven⟩ := h.run (c := ⟨c.rest, []⟩) ⟨hc.rest, .nil⟩ hp
    exact ⟨⟨hleads.taken, hc.printed⟩, hgiven, hleads.printed⟩
  · contradiction

theorem gives_captured [PrintsWhole p] : Gives (captured p) fun found => Whole found.2 :=
  PrintsWhole.gives.captured.mono fun _ h => h.2

instance [PrintsWhole p] : PrintsWhole (captured p) := gives_captured.toPrintsWhole

theorem Gives.silently (h : Gives p Q) : Gives (silently p) Q := h.captured.map fun _ ha => ha.1

instance [PrintsWhole p] : PrintsWhole (silently p) := PrintsWhole.gives.silently.toPrintsWhole

instance [PrintsWhole p] : PrintsWhole (afresh p) :=
  gives_captured.prints_bind fun (_, _) htrees =>
    have := prints_print htrees
    inferInstance

/-- The trees that are taken are whole, so they may be printed as they are. -/
theorem Gives.verbatimIf {p : Parser (α × Bool)} (h : Gives p fun found => Q found.1) :
    Gives (verbatimIf p) Q := by
  refine gives_of_run fun {c c' a} hc hrun => ?_
  unfold Parser.verbatimIf at hrun
  dsimp only at hrun
  split at hrun
  · rename_i c₁ hp
    cases hrun
    obtain ⟨hleads, hgiven⟩ := h.run hc hp
    obtain ⟨taken, htaken, hwhole⟩ := hleads.taken
    have hfront : c.rest.take (c.rest.length - c₁.rest.length) = taken := by
      rw [htaken, List.length_append, Nat.add_sub_cancel, List.take_left]
    rw [hfront]
    exact ⟨leads_of_front hc htaken hwhole hwhole, hgiven⟩
  · rename_i hp
    cases hrun
    exact h.run hc hp
  · contradiction

instance {p : Parser (α × Bool)} [PrintsWhole p] : PrintsWhole (verbatimIf p) :=
  (Gives.verbatimIf (Q := fun _ => True) PrintsWhole.gives).toPrintsWhole

instance [PrintsWhole p] : PrintsWhole (verbatim p) :=
  inferInstanceAs (PrintsWhole (verbatimIf ((·, true) <$> p)))

theorem Gives.attempt (h : Gives p Q) : Gives (attempt p) fun a? => ∀ a ∈ a?, Q a := by
  refine gives_of_run fun {c c' a?} hc hrun => ?_
  unfold Parser.attempt at hrun
  dsimp only at hrun
  split at hrun
  · rename_i hp
    cases hrun
    obtain ⟨hleads, hgiven⟩ := h.run hc hp
    exact ⟨hleads, fun b hb => Option.some.inj hb ▸ hgiven⟩
  · cases hrun
    exact ⟨leads_self hc, fun b hb => absurd hb (by simp)⟩

instance [PrintsWhole p] : PrintsWhole (attempt p) := PrintsWhole.gives.attempt.toPrintsWhole

/-! ## Repetition -/

/-- What every step keeps of what it goes on with, and of where it stands, holds at the end. -/
theorem repeating_eq_some {start : σ} {step : σ → Parser (σ ⊕ α)} {I : σ → Cursor → Prop}
    {E : α → Cursor → Prop} (h : (repeating start step).run c = some (a, c')) (hstart : I start c)
    (hstep : ∀ s c c' outcome, I s c → (step s).run c = some (outcome, c') →
      outcome.elim (I · c') (E · c')) : E a c' := by
  obtain ⟨ts, c₁, hrest, hsteps⟩ := bind_eq_some h
  cases hrest
  exact iterate_eq_some (fun s c next c' => hstep s c c' (.inl next))
    (fun s c a c' => hstep s c c' (.inr a)) hstart hsteps

/-- What every step keeps of what it goes on with holds at the end. -/
theorem gives_repeating {start : σ} {step : σ → Parser (σ ⊕ α)} {I : σ → Prop} (hstart : I start)
    (hstep : ∀ s, I s → Gives (step s) (Sum.elim I Q)) : Gives (repeating start step) Q := by
  refine gives_of_run fun {c c' a} hc hrun => ?_
  -- The cursor is led from where the repetition starts.
  refine repeating_eq_some (I := fun s c₁ => Leads c c₁ ∧ I s) (E := fun a c₁ => Leads c c₁ ∧ Q a)
    hrun ⟨leads_self hc, hstart⟩ ?_
  rintro s c₁ c₂ outcome ⟨hleads, hs⟩ hrun
  obtain ⟨hstepped, houtcome⟩ := (hstep s hs).run (hleads.sound hc) hrun
  cases outcome with
  | inl next => exact ⟨hleads.trans hstepped, houtcome⟩
  | inr result => exact ⟨hleads.trans hstepped, houtcome⟩

theorem prints_repeating {start : σ} {step : σ → Parser (σ ⊕ α)}
    (h : ∀ s, PrintsWhole (step s)) : PrintsWhole (repeating start step) :=
  (gives_repeating (I := fun _ => True) (Q := fun _ => True) trivial fun s _ =>
    PrintsWhole.gives.mono fun outcome _ => by cases outcome <;> trivial).toPrintsWhole

instance {start : σ} {step : σ → Parser (σ ⊕ α)} [h : ∀ s, PrintsWhole (step s)] :
    PrintsWhole (repeating start step) := prints_repeating h

theorem Gives.many (h : Gives p Q) : Gives (many p) fun items => ∀ a ∈ items, Q a := by
  refine gives_repeating (I := fun taken => ∀ a ∈ taken, Q a) (fun a ha => absurd ha (by simp))
    fun taken htaken => gives_bind fun ended => .ite (gives_pure ?_) ?_
  · exact fun a ha => htaken a (List.mem_reverse.1 ha)
  · exact (h.map fun a ha => List.forall_mem_cons.2 ⟨ha, htaken⟩).map fun _ hmore => hmore

instance [PrintsWhole p] : PrintsWhole (many p) := PrintsWhole.gives.many.toPrintsWhole

instance [PrintsWhole p] : PrintsWhole (commas p) := by
  unfold commas
  infer_instance

instance {stop : List TokenTree → Bool} {separator : String} [Operator separator]
    [PrintsWhole p] : PrintsWhole (separatedUntil stop separator p) := by
  unfold separatedUntil
  infer_instance

/-! ## Printing nothing -/

/-- The parser prints nothing. -/
class Silent {α : Type} (p : Parser α) : Prop where
  printed : ∀ {c c' : Cursor} {a : α}, p.run c = some (a, c') → c'.printed = c.printed

instance [hp : Silent p] [hf : ∀ a, Silent (f a)] : Silent (p >>= f) := ⟨fun {c c' b} hrun => by
  obtain ⟨a, c₁, hfirst, hsecond⟩ := bind_eq_some hrun
  rw [(hf a).printed hsecond, hp.printed hfirst]⟩

instance : Silent (pure a : Parser α) := ⟨fun hrun => by rw [(pure_eq_some hrun).2]⟩

instance {condition : Prop} [Decidable condition] [hp : Silent p] [hq : Silent q] :
    Silent (if condition then p else q) := by
  split
  · exact hp
  · exact hq

instance {test : List TokenTree → Bool} : Silent (peek test) := ⟨fun hrun => by cases hrun; rfl⟩

instance : Silent rest := ⟨fun hrun => by cases hrun; rfl⟩

instance : Silent (captured p) := ⟨fun {c c' found} hrun => by
  unfold captured at hrun
  dsimp only at hrun
  split at hrun
  · cases hrun
    rfl
  · contradiction⟩

instance : Silent (silently p) := inferInstanceAs (Silent (captured p >>= fun a => pure a.1))

instance {start : σ} {step : σ → Parser (σ ⊕ α)} [hstep : ∀ s, Silent (step s)] :
    Silent (repeating start step) := ⟨fun {c c' a} hrun => by
  refine repeating_eq_some (I := fun _ c₁ => c₁.printed = c.printed)
    (E := fun _ c₁ => c₁.printed = c.printed) hrun rfl ?_
  intro s c₁ c₂ outcome hc hrun
  have hkept := ((hstep s).printed hrun).trans hc
  cases outcome <;> exact hkept⟩

/-! ## Operators and what they bind -/

/-- A parser that succeeds takes something. -/
class Takes {α : Type} (p : Parser α) : Prop where
  takes : ∀ {c c' : Cursor} {a : α}, p.run c = some (a, c') → c'.rest.length < c.rest.length

instance [Takes p] : Takes (p >>= f) := ⟨fun {c c' b} hrun => by
  obtain ⟨a, c₁, hfirst, hsecond⟩ := bind_eq_some hrun
  exact ((f a).takes hsecond).length_le.trans_lt (Takes.takes hfirst)⟩

instance [∀ a, Takes (f a)] : Takes (p >>= f) := ⟨fun {c c' b} hrun => by
  obtain ⟨a, c₁, hfirst, hsecond⟩ := bind_eq_some hrun
  exact (Takes.takes hsecond).trans_le (p.takes hfirst).length_le⟩

instance {g : α → β} [Takes p] : Takes (g <$> p) :=
  inferInstanceAs (Takes (p >>= fun a => pure (g a)))

instance [Takes p] : Takes (discard p) :=
  inferInstanceAs (Takes (Function.const α PUnit.unit <$> p))

instance {condition : Prop} [Decidable condition] [hp : Takes p] [hq : Takes q] :
    Takes (if condition then p else q) := by
  split
  · exact hp
  · exact hq

instance : Takes word := ⟨fun hrun => by
  rw [word_eq_some hrun]
  exact Nat.lt_succ_self _⟩

instance : Takes name := by
  unfold name
  infer_instance

instance {spelling : String} : Takes (keyword spelling) := by
  unfold keyword
  infer_instance

instance : Takes lifetime := ⟨fun hrun => by
  unfold lifetime at hrun
  dsimp only at hrun
  split at hrun
  · cases hrun
    exact (Nat.lt_succ_self _).trans (Nat.lt_succ_self _)
  · contradiction⟩

instance : Takes literal := ⟨fun {c c' u} hrun => by
  unfold literal at hrun
  dsimp only at hrun
  split at hrun
  · split at hrun
    · rename_i hrest
      cases hrun
      rw [hrest]
      exact (Nat.lt_succ_self _).trans (Nat.lt_succ_self _)
    · rename_i hrest
      cases hrun
      rw [hrest]
      exact Nat.lt_succ_self _
    · contradiction
  · contradiction⟩

instance {delimiter : Delimiter} : Takes (group delimiter p) := ⟨fun hrun => by
  obtain ⟨found, hgroup, -⟩ := map_eq_some hrun
  obtain ⟨content, printed, hrest, -⟩ := groupWithEnd_eq_some hgroup
  rw [hrest]
  exact Nat.lt_succ_self _⟩

instance [Takes p] : Takes (captured p) := ⟨fun {c c' found} hrun => by
  unfold captured at hrun
  dsimp only at hrun
  split at hrun
  · rename_i hp
    have htakes := Takes.takes hp
    cases hrun
    exact htakes
  · contradiction⟩

instance [Takes p] : Takes (afresh p) := by
  unfold afresh
  infer_instance

instance {p : Parser (α × Bool)} [Takes p] : Takes (verbatimIf p) := ⟨fun {c c' a} hrun => by
  unfold verbatimIf at hrun
  dsimp only at hrun
  split at hrun
  · rename_i hp
    have htakes := Takes.takes hp
    cases hrun
    exact htakes
  · rename_i hp
    cases hrun
    exact Takes.takes hp
  · contradiction⟩

instance {spelling printed : String} [hop : Operator spelling] :
    Takes (symbolAs spelling printed) := by
  refine ⟨fun {c c' u} hrun => ?_⟩
  obtain ⟨hmarks, rfl⟩ := symbolAs_eq_some hrun
  obtain ⟨last, hlast, -⟩ := (Option.any_eq_true _ _).1 hop.ends
  obtain ⟨front, joint, hfront⟩ := Ahead.exists_of_marks hmarks hlast
  have hlength := congrArg List.length hfront
  rw [List.length_append, List.length_cons] at hlength
  dsimp only
  omega

instance {spelling : String} [Operator spelling] : Takes (symbol spelling) :=
  inferInstanceAs (Takes (symbolAs spelling spelling))

/-- There is at least one step. -/
instance {start : σ} {step : σ → Parser (σ ⊕ α)} [∀ s, Takes (step s)] :
    Takes (repeating start step) := ⟨fun {c c' a} hrun => by
  obtain ⟨ts, c₁, hrest, hsteps⟩ := bind_eq_some hrun
  cases hrest
  obtain ⟨outcome, c₂, hstep, hmore⟩ := bind_eq_some hsteps
  refine lt_of_le_of_lt ?_ (Takes.takes hstep)
  cases outcome with
  | inl next => exact ((iterate step _ next).takes hmore).length_le
  | inr result => exact ((pure result : Parser α).takes hmore).length_le⟩

/-- Any operator may be taken in front of what it binds. -/
theorem prints_operator {spelling : String} [PrintsWhole p] [Takes p]
    (hspelling : isSpelling spelling.toList = true) :
    PrintsWhole (do symbol spelling; p) := by
  refine ⟨fun {c c' a} hc hrun => ?_⟩
  obtain ⟨u, c₁, hsymbol, hp⟩ := bind_eq_some hrun
  obtain ⟨hmarks, rfl⟩ := symbolAs_eq_some hsymbol
  have hrest : Whole (c.rest.drop spelling.toList.length) :=
    hc.rest.of_suffix (List.drop_suffix _ _)
  have hprinted : Whole ((TokenTree.symbol spelling.toList).reverse ++ c.printed).reverse := by
    rw [List.reverse_append, List.reverse_reverse]
    exact hc.printed.append (whole_symbol hspelling)
  have hleads := PrintsWhole.leads ⟨hrest, hprinted⟩ hp
  obtain ⟨more, hmore, hwhole⟩ := hleads.taken
  refine ⟨hc.whole_of_marks hspelling hmarks hmore hwhole (.inr ?_), hleads.printed⟩
  rintro rfl
  exact absurd (congrArg List.length hmore) (Takes.takes hp).ne'

end

end Parser

end UnitLoader.Syntax
