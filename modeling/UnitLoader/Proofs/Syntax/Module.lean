import UnitLoader.Proofs.Syntax.Groups
import UnitLoader.Syntax.File

/-!
# Where parsed modules stand

An item that is parsed as an inline module stands in the trees as the word `mod`, a name and a group
in braces, and its items are what the content of the group is parsed as (`Parsed.inlineModule`).
Nothing but `moduleItem` gives such an item. `GivesModules` says of a parser that it gives modules
only where they stand; since every parser takes trees off the front, it holds of steps one after the
other if it holds of the last one.
-/

namespace UnitLoader.Syntax

open UnitLoader.Text (Position)

namespace Parser

/-! ## Runs of parsers -/

section

variable {α β σ : Type} {p : Parser α} {c c' : Cursor} {a : α}

theorem bind_eq_some {f : α → Parser β} {b : β} (h : (p >>= f).run c = some (b, c')) :
    ∃ a c₁, p.run c = some (a, c₁) ∧ (f a).run c₁ = some (b, c') := by
  change (Parser.bind p f).run c = some (b, c') at h
  unfold Parser.bind at h
  dsimp only at h
  split at h
  · contradiction
  · rename_i a c₁ hp
    exact ⟨a, c₁, hp, h⟩

theorem pure_eq_some {b : α} (h : (pure b : Parser α).run c = some (a, c')) : b = a ∧ c = c' := by
  cases h
  exact ⟨rfl, rfl⟩

theorem map_eq_some {f : α → β} {b : β} (h : (f <$> p).run c = some (b, c')) :
    ∃ a, p.run c = some (a, c') ∧ f a = b := by
  obtain ⟨a, c₁, hp, hpure⟩ := bind_eq_some (f := fun a => pure (f a)) h
  obtain ⟨rfl, rfl⟩ := pure_eq_some hpure
  exact ⟨a, hp, rfl⟩

theorem peek_eq_some {test : List TokenTree → Bool} {b : Bool}
    (h : (peek test).run c = some (b, c')) : test c.rest = b ∧ c = c' := by
  cases h
  exact ⟨rfl, rfl⟩

theorem require_eq_some {condition : Bool} {u : Unit}
    (h : (require condition).run c = some (u, c')) : condition = true ∧ c = c' := by
  unfold require at h
  split at h
  · rename_i hcondition
    exact ⟨hcondition, (pure_eq_some h).2⟩
  · contradiction

theorem word_eq_some {n : Name} (h : word.run c = some (n, c')) : c.rest = .word n :: c'.rest := by
  unfold word at h
  dsimp only at h
  split at h
  · cases h
    rfl
  · contradiction

theorem name_eq_some {n : Name} (h : name.run c = some (n, c')) : c.rest = .word n :: c'.rest := by
  obtain ⟨b, c₁, hpeek, h⟩ := bind_eq_some h
  obtain ⟨-, rfl⟩ := peek_eq_some hpeek
  obtain ⟨u, c₂, hrequire, h⟩ := bind_eq_some h
  obtain ⟨-, rfl⟩ := require_eq_some hrequire
  exact word_eq_some h

/-- A keyword is written in one way. -/
theorem eq_of_keyword {k n : Name} {rest : List TokenTree} (hk : k.raw = false)
    (h : Ahead.keyword k.text (.word n :: rest) = true) : n = k := by
  obtain ⟨hraw, htext⟩ := Bool.and_eq_true_iff.1 h
  obtain ⟨text, raw, isName⟩ := n
  obtain ⟨text', raw', isName'⟩ := k
  have htexts : text = text' := eq_of_beq htext
  have hraws : raw = false := (Bool.not_eq_true' raw).mp hraw
  have hraws' : raw' = false := hk
  subst htexts hraws hraws'
  rfl

/-- The word of a keyword stands where the keyword is taken. -/
theorem keyword_eq_some {k : Name} {u : Unit} (hk : k.raw = false)
    (h : (keyword k.text).run c = some (u, c')) : c.rest = .word k :: c'.rest := by
  obtain ⟨b, c₁, hpeek, h⟩ := bind_eq_some h
  obtain ⟨rfl, rfl⟩ := peek_eq_some hpeek
  obtain ⟨u, c₂, hrequire, h⟩ := bind_eq_some h
  obtain ⟨hahead, rfl⟩ := require_eq_some hrequire
  obtain ⟨n, c₃, hword, hpure⟩ := bind_eq_some h
  obtain ⟨-, rfl⟩ := pure_eq_some hpure
  have hrest := word_eq_some hword
  rw [hrest] at hahead
  rw [hrest, eq_of_keyword hk hahead]

/-- Where an operator is not there, nothing is taken. -/
theorem symbol?_eq_false {spelling : String} (h : (symbol? spelling).run c = some (false, c')) :
    c = c' := by
  obtain ⟨b, c₁, hpeek, h⟩ := bind_eq_some h
  obtain ⟨-, rfl⟩ := peek_eq_some hpeek
  split at h
  · obtain ⟨u, c₂, -, hpure⟩ := bind_eq_some h
    exact absurd (pure_eq_some hpure).1 (by simp)
  · exact (pure_eq_some h).2

/-- A group stands where one is taken, and the parser used up its content. What it printed is
printed as a group. -/
theorem groupWithEnd_eq_some {d : Delimiter} {close : Position}
    (h : (groupWithEnd d p).run c = some ((a, close), c')) :
    ∃ content printed, c.rest = .group d content close :: c'.rest ∧
      p.run ⟨content, []⟩ = some (a, ⟨[], printed⟩) ∧
      c'.printed = .group d printed.reverse close :: c.printed := by
  unfold groupWithEnd at h
  dsimp only at h
  split at h
  · split at h
    · rename_i hd
      split at h
      · rename_i inner hcontent
        cases h
        exact ⟨_, inner, congrArg (fun d => TokenTree.group d _ _ :: _) hd, hcontent,
          congrArg (fun d => TokenTree.group d _ _ :: _) hd⟩
      · contradiction
    · contradiction
  · contradiction

/-! ## Repetition -/

/-- What every step keeps holds at the end. -/
theorem iterate_eq_some {step : σ → Parser (σ ⊕ α)} {I : σ → Cursor → Prop}
    {Q : α → Cursor → Prop}
    (hnext : ∀ s c next c', I s c → (step s).run c = some (.inl next, c') → I next c')
    (hend : ∀ s c a c', I s c → (step s).run c = some (.inr a, c') → Q a c') {fuel : Nat} {s : σ}
    (hs : I s c) (h : (iterate step fuel s).run c = some (a, c')) : Q a c' := by
  induction fuel generalizing s c with
  | zero => contradiction
  | succ fuel ih =>
    obtain ⟨outcome, c₁, hstep, h⟩ := bind_eq_some h
    cases outcome with
    | inl next => exact ih (hnext s c next c₁ hs hstep) h
    | inr result =>
      obtain ⟨rfl, rfl⟩ := pure_eq_some h
      exact hend s c result c₁ hs hstep

/-- The parser gives this where some end of the trees is left. -/
def GivenIn (p : Parser α) (ts : List TokenTree) (a : α) : Prop :=
  ∃ c₁ c₂, p.run c₁ = some (a, c₂) ∧ c₁.rest <:+ ts

/-- Each of many items is given somewhere in the trees. -/
theorem many_eq_some {items : List α} (h : (many p).run c = some (items, c')) :
    ∀ a ∈ items, GivenIn p c.rest a := by
  obtain ⟨ts, c₀, hrest, h⟩ := bind_eq_some h
  cases hrest
  refine iterate_eq_some
    (I := fun taken c₁ => c₁.rest <:+ c.rest ∧ ∀ a ∈ taken, GivenIn p c.rest a)
    (Q := fun items _ => ∀ a ∈ items, GivenIn p c.rest a) ?_ ?_ ?_ h
  · rintro taken c₁ next c₂ ⟨hsuffix, htaken⟩ hstep
    obtain ⟨ended, c₃, hended, hstep⟩ := bind_eq_some hstep
    cases hended
    split at hstep
    · exact absurd (pure_eq_some hstep).1 (by simp)
    · -- One more item was taken, from where the ones before had left off.
      obtain ⟨taken', hmap, hnext⟩ := map_eq_some hstep
      obtain ⟨a, hp, rfl⟩ := map_eq_some hmap
      obtain rfl := Sum.inl.inj hnext
      refine ⟨(p.takes hp).trans hsuffix, fun b hb => ?_⟩
      rcases List.mem_cons.1 hb with rfl | hb
      · exact ⟨c₁, c₂, hp, hsuffix⟩
      · exact htaken b hb
  · -- At the end the items are given in the order in which they were taken.
    rintro taken c₁ result c₂ ⟨hsuffix, htaken⟩ hstep
    obtain ⟨ended, c₃, hended, hstep⟩ := bind_eq_some hstep
    cases hended
    split at hstep
    · obtain ⟨hresult, -⟩ := pure_eq_some hstep
      obtain rfl := Sum.inr.inj hresult
      exact fun a ha => htaken a (List.mem_reverse.1 ha)
    · obtain ⟨taken', -, hnext⟩ := map_eq_some hstep
      exact absurd hnext (by simp)
  · exact ⟨List.suffix_refl _, fun _ ha => absurd ha List.not_mem_nil⟩

end

end Parser

open UnitLoader.Syntax.Parser

/-! ## Modules -/

/-- If an item is an inline module, it stands behind the front of trees up to what is left of them,
and its items are what its content is parsed as. -/
def ModuleAt (g : Grammar) (ts : List TokenTree) (item : Item) (left : List TokenTree) : Prop :=
  ∀ name close items, item = .inlineModule name close items → ∃ front content printed,
    ts = front ++ moduleTrees name content close ++ left ∧
      (file g).run ⟨content, []⟩ = some (items, ⟨[], printed⟩)

/-- What stands in trees stands in all that they are the end of. -/
theorem ModuleAt.of_suffix {g : Grammar} {ts ts' left : List TokenTree} {item : Item}
    (h : ModuleAt g ts item left) (hsuffix : ts <:+ ts') : ModuleAt g ts' item left := by
  rintro name close items rfl
  obtain ⟨front, content, printed, rfl, hcontent⟩ := h name close items rfl
  obtain ⟨more, rfl⟩ := hsuffix
  exact ⟨more ++ front, content, printed, by simp, hcontent⟩

/-- Every inline module that a parser gives stands in the trees that it takes. -/
def GivesModules {α : Type} (g : Grammar) (itemOf : α → Item) (p : Parser α) : Prop :=
  ∀ c a c', p.run c = some (a, c') → ModuleAt g c.rest (itemOf a) c'.rest

section

variable {α β : Type} {g : Grammar} {itemOf : α → Item} {p : Parser α}

/-- Of steps one after the other the last one decides. -/
theorem GivesModules.bind {p : Parser β} {f : β → Parser α}
    (h : ∀ b, GivesModules g itemOf (f b)) : GivesModules g itemOf (p >>= f) := by
  intro c a c' hrun
  obtain ⟨b, c₁, hp, hf⟩ := bind_eq_some hrun
  exact (h b c₁ a c' hf).of_suffix (p.takes hp)

/-- Something else than an inline module may be given anywhere. -/
theorem givesModules_pure {a : α}
    (h : ∀ name close items, itemOf a ≠ .inlineModule name close items) :
    GivesModules g itemOf (pure a) := by
  rintro c a' c' hrun name close items hitem
  obtain ⟨rfl, rfl⟩ := pure_eq_some hrun
  exact absurd hitem (h name close items)

/-- Of two parsers either one may run. -/
theorem GivesModules.ite {q : Parser α} {condition : Prop} [Decidable condition]
    (hp : GivesModules g itemOf p) (hq : GivesModules g itemOf q) :
    GivesModules g itemOf (if condition then p else q) := by
  split
  · exact hp
  · exact hq

theorem GivesModules.map {f : α → β} {itemOf : β → Item}
    (h : GivesModules g (fun a => itemOf (f a)) p) : GivesModules g itemOf (f <$> p) := by
  intro c b c' hrun
  obtain ⟨a, hp, rfl⟩ := map_eq_some hrun
  exact h c a c' hp

/-- Printing the trees as they are written takes the same ones. -/
theorem GivesModules.verbatimIf {p : Parser (Item × Bool)} (h : GivesModules g Prod.fst p) :
    GivesModules g id (verbatimIf p) := by
  intro c item c' hrun
  unfold Parser.verbatimIf at hrun
  dsimp only at hrun
  split at hrun
  · rename_i hp
    cases hrun
    exact h c _ _ hp
  · rename_i hp
    cases hrun
    exact h c _ _ hp
  · contradiction

/-- The word that a module is named by stands where the name is taken. -/
theorem moduleName_eq_some {c c' : Cursor} {n : Name} (h : moduleName.run c = some (n, c')) :
    c.rest = .word n :: c'.rest := by
  obtain ⟨isTry, c₁, hpeek, h⟩ := bind_eq_some h
  obtain ⟨-, rfl⟩ := peek_eq_some hpeek
  split at h
  · exact word_eq_some h
  · exact name_eq_some h

/-- An inline module has its group behind its name. -/
theorem moduleEnd_eq_some {c c' : Cursor} {n name : Name} {close : Position} {items : List Item}
    (h : (moduleEnd g n).run c = some (.inlineModule name close items, c')) :
    n = name ∧ ∃ content printed, c.rest = .group .brace content close :: c'.rest ∧
      (file g).run ⟨content, []⟩ = some (items, ⟨[], printed⟩) := by
  obtain ⟨isEnded, c₁, hended, h⟩ := bind_eq_some h
  cases isEnded with
  | true => exact absurd (pure_eq_some h).1 (by simp)
  | false =>
    obtain rfl := symbol?_eq_false hended
    obtain ⟨⟨items', close'⟩, c₂, hgroup, h⟩ := bind_eq_some h
    obtain ⟨hitem, rfl⟩ := pure_eq_some h
    obtain ⟨rfl, rfl, rfl⟩ := Item.inlineModule.inj hitem
    obtain ⟨content, printed, hrest, hcontent, -⟩ := groupWithEnd_eq_some hgroup
    exact ⟨rfl, content, printed, hrest, hcontent⟩

/-- A module is given where it stands. -/
theorem givesModules_moduleItem (g : Grammar) : GivesModules g id (moduleItem g) := by
  refine .bind fun _ => ?_
  rintro c item c' hrun name close items rfl
  obtain ⟨u, c₁, hkeyword, hrun⟩ := bind_eq_some hrun
  obtain ⟨n, c₂, hname, hend⟩ := bind_eq_some hrun
  obtain ⟨rfl, content, printed, hrest, hcontent⟩ := moduleEnd_eq_some hend
  refine ⟨[], content, printed, ?_, hcontent⟩
  rw [keyword_eq_some (k := modWord) rfl hkeyword, moduleName_eq_some hname, hrest]
  rfl

/-! ## Items -/

/-- Nothing else than a module is given by the parsers of other items: they end with what they
give. -/
theorem givesModules_structItem (g : Grammar) : GivesModules g id (structItem g) := by
  unfold structItem
  dsimp only
  repeat' first | refine .bind fun _ => ?_ | refine .ite ?_ ?_ | exact givesModules_pure nofun

theorem givesModules_enumItem (g : Grammar) : GivesModules g id (enumItem g) := by
  unfold enumItem
  repeat' first | refine .bind fun _ => ?_ | exact givesModules_pure nofun

theorem givesModules_unionItem (g : Grammar) : GivesModules g id (unionItem g) := by
  unfold unionItem
  repeat' first | refine .bind fun _ => ?_ | exact givesModules_pure nofun

theorem givesModules_implItem (g : Grammar) (seen : Visibility) :
    GivesModules g Prod.fst (implItem g seen) := by
  unfold implItem
  dsimp only
  repeat' first | refine .bind fun _ => ?_ | refine .ite ?_ ?_ | exact givesModules_pure nofun

theorem givesModules_unsafeItem (g : Grammar) (seen : Visibility) (ts : List TokenTree) :
    GivesModules g id (unsafeItem g seen ts) := by
  refine .ite (.bind fun _ => givesModules_pure nofun) <| .ite ?_ (givesModules_moduleItem g)
  exact .bind fun _ => .bind fun _ => givesModules_pure nofun

theorem givesModules_other (p : Parser Bool) : GivesModules g Prod.fst (other p) :=
  .map fun _ _ _ _ => nofun

theorem GivesModules.usual {p : Parser Item} (h : GivesModules g id p) :
    GivesModules g Prod.fst (usual p) :=
  .map h

theorem givesModules_usualOther (p : Parser Unit) : GivesModules g Prod.fst (usualOther p) :=
  .usual (.bind fun _ => givesModules_pure nofun)

/-- An item behind its attributes is a module only where one stands. -/
theorem givesModules_itemBody (g : Grammar) : GivesModules g Prod.fst (itemBody g) := by
  have hmodule := (givesModules_moduleItem g).usual
  have himpl := givesModules_implItem g
  refine .bind fun seen => .bind fun ts => ?_
  refine .ite (givesModules_other _) <| .ite (givesModules_usualOther _) <|
    .ite (givesModules_other _) <| .ite (givesModules_other _) <| .ite (givesModules_other _) <|
    .ite (.ite (himpl seen) (givesModules_unsafeItem g seen ts).usual) <| .ite hmodule <|
    .ite (givesModules_other _) <| .ite (givesModules_structItem g).usual <|
    .ite (givesModules_enumItem g).usual <| .ite (givesModules_unionItem g).usual <|
    .ite (givesModules_usualOther _) <| .ite (givesModules_usualOther _) <|
    .ite (himpl seen) <| .ite (givesModules_other _) <| ?_
  exact .bind fun _ => givesModules_usualOther _

/-- So is an item. -/
theorem givesModules_item (g : Grammar) : GivesModules g id (item g) :=
  .verbatimIf (.bind fun _ => givesModules_itemBody g)

end

/-! ## Files -/

/-- Trees are parsed as these items, at some depth of nesting. -/
def Parsed (trees : List TokenTree) (items : List Item) : Prop :=
  ∃ depth printed, (file (grammar depth)).run ⟨trees, []⟩ = some (items, ⟨[], printed⟩)

/-- An inline module among the items stands in the trees, and its content is parsed as its items. -/
theorem Parsed.inlineModule {trees : List TokenTree} {items inside : List Item} {name : Name}
    {close : Position} (h : Parsed trees items) (hmem : .inlineModule name close inside ∈ items) :
    ∃ front content behind, trees = front ++ moduleTrees name content close ++ behind ∧
      Parsed content inside := by
  obtain ⟨depth, printed, hfile⟩ := h
  obtain ⟨u, c₀, hattributes, hmany⟩ := bind_eq_some hfile
  obtain ⟨c₁, c₂, hitem, hsuffix⟩ := many_eq_some hmany _ hmem
  cases depth with
  | zero => contradiction
  | succ depth =>
    have hat := (givesModules_item (grammar depth) c₁ _ c₂ hitem).of_suffix
      (hsuffix.trans ((innerAttributes _).takes hattributes))
    obtain ⟨front, content, inner, htrees, hcontent⟩ := hat name close inside rfl
    exact ⟨front, content, c₂.rest, htrees, depth, inner, hcontent⟩

/-- A file is parsed as the trees of its text are. -/
theorem parsed_of_parseFile? {text : List Char} {items : List Item}
    (h : parseFile? text = some items) :
    ∃ trees, fileTrees? text = some trees ∧ Parsed trees items := by
  unfold parseFile? at h
  split at h
  · contradiction
  · rename_i trees htrees
    split at h
    · rename_i items' printed hrun
      obtain rfl := Option.some.inj h
      exact ⟨trees, htrees, _, printed, hrun⟩
    · contradiction

end UnitLoader.Syntax
