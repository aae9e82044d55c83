import Mathlib.Data.List.Forall2
import UnitLoader.Proofs.Syntax.Lexeme
import UnitLoader.Proofs.Text.Places

/-!
# Where groups end in a text

A group in a token tree keeps the place of its closing delimiter. `accounted_addAll` says what it is
the place of: wherever in the trees a group in braces stands, one of the lexemes closes it, and the
lexemes in front of that one leave open exactly this group, with its content, inside of the groups
around it. So a chain of modules, each inside of the one before, ends at a closing brace in front of
which the text leaves open these modules and nothing else (`closes_of_encloses`).

The place of a lexeme is where the text has it (`split_of_lexemesFrom?`). In a file it is the place
in the text behind a byte order mark; a line that names an interpreter is left out, but its end
stays, and everything behind keeps its place (`brace_of_fileLexemes?`).
-/

namespace UnitLoader.Syntax

open UnitLoader.Text (OneLine Position oneLine_cons)

/-! ## Lexemes in the text -/

/-- A lexeme that is read starts at its place in the text. -/
theorem split_of_lexemesFrom? {skip : Nat} {here place : Position} {text : List Char}
    {front back : List (Lexeme × Position)} {found : Lexeme}
    (h : lexemesFrom? skip here text = some (front ++ (found, place) :: back)) :
    ∃ before behind length, text = before ++ behind ∧ place = here.afterAll before ∧
      lexeme? behind = some (found, length) := by
  induction text generalizing skip here front with
  | nil =>
    have hnil := Option.some.inj (h.symm.trans (lexemesFrom?.eq_1 skip here))
    exact absurd (List.append_eq_nil_iff.1 hnil).2 (List.cons_ne_nil _ _)
  | cons c rest ih =>
    cases skip with
    | succ skip =>
      -- The character is inside of an earlier lexeme.
      obtain ⟨before, behind, length, rfl, rfl, hfound⟩ := ih h
      exact ⟨c :: before, behind, length, rfl, rfl, hfound⟩
    | zero =>
      rw [lexemesFrom?] at h
      split at h
      · contradiction
      · rename_i first length hfirst
        obtain ⟨others, hothers, heq⟩ := Option.map_eq_some_iff.1 h
        cases front with
        | nil =>
          -- It is the lexeme that starts here.
          obtain ⟨hhead, -⟩ := List.cons.inj heq
          obtain ⟨rfl, rfl⟩ := Prod.mk.inj hhead
          exact ⟨[], c :: rest, length, rfl, rfl, hfirst⟩
        | cons earlier front =>
          -- It comes later, behind the one that starts here.
          obtain ⟨-, rfl⟩ := List.cons.inj heq
          obtain ⟨before, behind, length, rfl, rfl, hfound⟩ := ih hothers
          exact ⟨c :: before, behind, length, rfl, rfl, hfound⟩

/-! ## Lexemes of a file -/

/-- The lexemes of a text with their places. A byte order mark in front takes a column. -/
def lexemes? (text : List Char) : Option (List (Lexeme × Position)) :=
  match text with
  | '\uFEFF' :: rest => lexemesFrom? 0 (Position.start.after '\uFEFF') rest
  | _ => lexemesFrom? 0 .start text

/-- The lexemes of a file with their places, which count neither a byte order mark in front of the
file nor, on its line, the name of an interpreter. -/
def fileLexemes? (text : List Char) : Option (List (Lexeme × Position)) :=
  lexemes? (dropInterpreter (behindMark text))

/-- Trees are made of lexemes. -/
theorem treesAt?_eq_some {here : Position} {text : List Char} {trees : List TokenTree}
    (h : treesAt? here text = some trees) :
    ∃ found, lexemesFrom? 0 here text = some found ∧
      Forest.addAll ⟨[], []⟩ found = some ⟨trees.reverse, []⟩ := by
  unfold treesAt? at h
  split at h
  · contradiction
  · rename_i found hfound
    split at h
    · rename_i current hadd
      obtain rfl := Option.some.inj h
      exact ⟨found, hfound, by rw [hadd, List.reverse_reverse]⟩
    · contradiction

/-- The trees of a text are made of its lexemes. -/
theorem tokenTrees?_eq_some {text : List Char} {trees : List TokenTree}
    (h : tokenTrees? text = some trees) :
    ∃ found, lexemes? text = some found ∧
      Forest.addAll ⟨[], []⟩ found = some ⟨trees.reverse, []⟩ := by
  by_cases hmarked : ∃ rest, text = '\uFEFF' :: rest
  · obtain ⟨rest, rfl⟩ := hmarked
    exact treesAt?_eq_some h
  · -- Without a byte order mark both start at the start of the text.
    have htrees : tokenTrees? text = treesAt? .start text := by
      unfold tokenTrees?
      split
      · exact absurd ⟨_, rfl⟩ hmarked
      · rfl
    have hlexemes : lexemes? text = lexemesFrom? 0 .start text := by
      unfold lexemes?
      split
      · exact absurd ⟨_, rfl⟩ hmarked
      · rfl
    rw [htrees] at h
    rw [hlexemes]
    exact treesAt?_eq_some h

/-- Only a byte order mark is in front of what is behind it. -/
theorem eq_mark_append (text : List Char) :
    ∃ mark, (mark = [] ∨ mark = ['\uFEFF']) ∧ text = mark ++ behindMark text := by
  unfold behindMark
  split
  · exact ⟨['\uFEFF'], .inr rfl, rfl⟩
  · exact ⟨[], .inl rfl, rfl⟩

/-- What is left out in front of a file is on one line, and behind it comes the line's end. -/
theorem dropInterpreter_cases (text : List Char) :
    dropInterpreter text = text ∨
      ∃ line rest, OneLine line ∧ text = line ++ rest ∧ dropInterpreter text = rest ∧
        ∀ c ∈ rest.head?, c = '\n' := by
  unfold dropInterpreter
  split
  · rename_i rest
    split
    · exact .inl rfl
    · refine .inr ⟨_, _, ?_, (List.takeWhile_append_dropWhile (p := (· != '\n'))).symm, rfl, ?_⟩
      · intro hmem
        exact absurd (List.all_eq_true.1 List.all_takeWhile _ hmem) (by decide)
      · intro c hc
        have hstop := List.head?_dropWhile_not (· != '\n') ('#' :: '!' :: rest)
        rw [hc] at hstop
        simpa using hstop
  · exact .inl rfl

/-- A closing brace that is read in a text stands at its place. -/
theorem brace_of_lexemes? {text : List Char} {front back : List (Lexeme × Position)}
    {place : Position} (h : lexemes? text = some (front ++ (.closing .brace, place) :: back)) :
    ∃ before behind, text = before ++ '\x7d' :: behind ∧
      place = Position.start.afterAll before := by
  unfold lexemes? at h
  split at h
  · -- The mark is the first character in front of the brace.
    obtain ⟨before, behind, length, rfl, rfl, hfound⟩ := split_of_lexemesFrom? h
    obtain ⟨behind, rfl⟩ := eq_brace_of_lexeme? hfound
    exact ⟨'\uFEFF' :: before, behind, rfl, rfl⟩
  · obtain ⟨before, behind, length, rfl, rfl, hfound⟩ := split_of_lexemesFrom? h
    obtain ⟨behind, rfl⟩ := eq_brace_of_lexeme? hfound
    exact ⟨before, behind, rfl, rfl⟩

/-- A closing brace that is read in a file stands at its place behind the byte order mark. -/
theorem brace_of_fileLexemes? {text : List Char} {front back : List (Lexeme × Position)}
    {place : Position}
    (h : fileLexemes? text = some (front ++ (.closing .brace, place) :: back)) :
    ∃ before behind, behindMark text = before ++ '\x7d' :: behind ∧
      place = Position.start.afterAll before := by
  obtain ⟨before, behind, hsplit, rfl⟩ := brace_of_lexemes? h
  rcases dropInterpreter_cases (behindMark text) with
    hsame | ⟨line, rest, hline, htext, hrest, hend⟩
  · exact ⟨before, behind, hsame ▸ hsplit, rfl⟩
  · refine ⟨line ++ before, behind, ?_, ?_⟩
    · rw [htext, ← hrest, hsplit, List.append_assoc]
    · -- The brace is not what ends the line, so that line ends in front of it.
      have hnot : ¬ OneLine before := by
        rw [← hrest, hsplit] at hend
        cases before with
        | nil => exact absurd (hend _ rfl) (by decide)
        | cons c before =>
          obtain rfl := hend c rfl
          simp [oneLine_cons]
      rw [Position.afterAll_append]
      refine Position.afterAll_congr_of_not_oneLine hnot ?_
      rw [Position.afterAll_of_oneLine hline]

/-! ## Forests -/

/-- Lexemes are taken in as their first ones are and then the others. -/
theorem addAll_append (f : Forest) (first others : List (Lexeme × Position)) :
    f.addAll (first ++ others) = (f.addAll first).bind (·.addAll others) := by
  induction first generalizing f with
  | nil => rfl
  | cons found rest ih =>
    rw [List.cons_append, Forest.addAll, Forest.addAll]
    cases f.add found.1 found.2 with
    | none => rfl
    | some next => exact ih next

/-- The trees of an open group, or those outside of all groups, with the groups open around them. -/
inductive Forest.Level (f : Forest) :
    List TokenTree → List (Delimiter × List TokenTree) → Prop where
  /-- The trees of the innermost group. -/
  | innermost : f.Level f.current f.enclosing
  /-- The trees in front of a group that is open. -/
  | around {inner outer : List (Delimiter × List TokenTree)} {d : Delimiter}
      {trees : List TokenTree} (split : f.enclosing = inner ++ (d, trees) :: outer) :
      f.Level trees outer

/-- One of these lexemes, at the place `close`, ends a group in braces with this content. The trees
in front of the group are `before`, latest first, and the groups open around it are `outer`. -/
def ClosedBy (found : List (Lexeme × Position)) (content : List TokenTree) (close : Position)
    (before : List TokenTree) (outer : List (Delimiter × List TokenTree)) : Prop :=
  ∃ front back, found = front ++ (.closing .brace, close) :: back ∧
    Forest.addAll ⟨[], []⟩ front = some ⟨content.reverse, (.brace, before) :: outer⟩

theorem ClosedBy.append {found : List (Lexeme × Position)} {content before : List TokenTree}
    {close : Position} {outer : List (Delimiter × List TokenTree)}
    (h : ClosedBy found content close before outer) (more : List (Lexeme × Position)) :
    ClosedBy (found ++ more) content close before outer := by
  obtain ⟨front, back, rfl, hfront⟩ := h
  exact ⟨front, back ++ more, by rw [List.append_assoc, List.cons_append], hfront⟩

/-- Lexemes make a forest, and each group in braces anywhere in it was closed by one of them. -/
structure Accounted (found : List (Lexeme × Position)) (f : Forest) : Prop where
  /-- They make the forest. -/
  made : Forest.addAll ⟨[], []⟩ found = some f
  /-- Groups are accounted for. -/
  closed : ∀ behind content close before outer,
    f.Level (behind ++ .group .brace content close :: before) outer →
    ClosedBy found content close before outer

/-- What is found behind trees that it is none of is found in the others. -/
theorem split_of_not_mem {trees others behind before : List TokenTree} {t : TokenTree}
    (h : trees ++ others = behind ++ t :: before) (hnot : t ∉ trees) :
    ∃ behind', others = behind' ++ t :: before := by
  rcases List.append_eq_append_iff.1 h with ⟨behind', -, hothers⟩ | ⟨middle, htrees, hcons⟩
  · exact ⟨behind', hothers⟩
  · cases middle with
    | nil => exact ⟨[], hcons.symm⟩
    | cons first middle =>
      obtain ⟨rfl, -⟩ := List.cons.inj hcons
      exact absurd (by rw [htrees]; simp) hnot

section

variable {found : List (Lexeme × Position)} {f next : Forest} {l : Lexeme} {here : Position}

/-- What one more lexeme makes of lexemes that made a forest. -/
theorem addAll_concat (h : Forest.addAll ⟨[], []⟩ found = some f)
    (hadd : f.add l here = some next) :
    Forest.addAll ⟨[], []⟩ (found ++ [(l, here)]) = some next := by
  rw [addAll_append, h, Option.bind_some, Forest.addAll, hadd]
  rfl

/-- Where a lexeme adds no group in braces, the groups are those that there were. -/
theorem Accounted.of_current (h : Accounted found f) (hadd : f.add l here = some next)
    (trees : List TokenTree) (hcurrent : next.current = trees ++ f.current)
    (henclosing : next.enclosing = f.enclosing)
    (hno : ∀ content close, .group .brace content close ∉ trees) :
    Accounted (found ++ [(l, here)]) next := by
  refine ⟨addAll_concat h.made hadd, fun behind content close before outer hlevel => ?_⟩
  refine ClosedBy.append ?_ _
  generalize htrees : behind ++ .group .brace content close :: before = level at hlevel
  cases hlevel with
  | innermost =>
    -- The group is none of the new trees, so it is behind them.
    obtain ⟨behind', hsplit⟩ := split_of_not_mem (hcurrent ▸ htrees).symm (hno content close)
    exact h.closed behind' content close before _ (henclosing ▸ hsplit ▸ .innermost)
  | around split =>
    exact h.closed behind content close before _ (htrees ▸ .around (henclosing ▸ split))

/-- An opening delimiter puts the trees in front of it among those of the open groups. -/
theorem Accounted.opening {d : Delimiter} (h : Accounted found f)
    (hadd : f.add (.opening d) here = some next) :
    Accounted (found ++ [(.opening d, here)]) next := by
  obtain rfl := Option.some.inj hadd
  refine ⟨addAll_concat h.made hadd, fun behind content close before outer hlevel => ?_⟩
  refine ClosedBy.append (h.closed behind content close before outer ?_) _
  generalize htrees : behind ++ .group .brace content close :: before = level at hlevel ⊢
  cases hlevel with
  | innermost => simp at htrees
  | @around inner _ _ _ split =>
    cases inner with
    | nil =>
      -- These trees were the innermost ones.
      obtain ⟨hhead, rfl⟩ := List.cons.inj split
      obtain ⟨-, rfl⟩ := Prod.mk.inj hhead
      exact .innermost
    | cons first inner => exact .around (List.cons.inj split).2

/-- A closing delimiter ends the innermost group, which is of the same kind. -/
theorem Forest.add_closing_eq_some {d : Delimiter} (hadd : f.add (.closing d) here = some next) :
    ∃ front outer, f.enclosing = (d, front) :: outer ∧
      next = ⟨.group d f.current.reverse here :: front, outer⟩ := by
  unfold Forest.add at hadd
  dsimp only at hadd
  split at hadd
  · contradiction
  · rename_i opened front outer henclosing
    split at hadd
    · rename_i hsame
      obtain rfl := Option.some.inj hadd
      exact ⟨front, outer, hsame ▸ henclosing, rfl⟩
    · contradiction

/-- A closing delimiter puts a group behind the trees that were in front of it. -/
theorem Accounted.closing {d : Delimiter} (h : Accounted found f)
    (hadd : f.add (.closing d) here = some next) :
    Accounted (found ++ [(.closing d, here)]) next := by
  refine ⟨addAll_concat h.made hadd, fun behind content close before outer hlevel => ?_⟩
  obtain ⟨front, others, henclosing, rfl⟩ := Forest.add_closing_eq_some hadd
  generalize htrees : behind ++ .group .brace content close :: before = level at hlevel
  cases hlevel with
  | innermost =>
    cases behind with
    | nil =>
      -- It is the group that was closed just now.
      obtain ⟨hgroup, rfl⟩ := List.cons.inj htrees
      obtain ⟨rfl, rfl, rfl⟩ := TokenTree.group.inj hgroup
      refine ⟨found, [], rfl, ?_⟩
      rw [List.reverse_reverse, ← henclosing]
      exact h.made
    | cons first behind =>
      -- It stands beside the group that was closed just now.
      refine ClosedBy.append (h.closed behind content close before _ ?_) _
      have hfront : behind ++ .group .brace content close :: before = front :=
        (List.cons.inj htrees).2
      rw [hfront]
      exact .around (henclosing.trans (List.nil_append _).symm)
  | @around inner _ d' _ split =>
    -- The group stands further out, where nothing has changed.
    have hsplit : f.enclosing = ((d, front) :: inner) ++ (d', level) :: outer :=
      henclosing.trans (congrArg (List.cons (d, front)) split)
    refine ClosedBy.append (h.closed behind content close before outer ?_) _
    rw [htrees]
    exact .around hsplit

/-- Taking in one lexeme, the groups stay accounted for. -/
theorem accounted_add (h : Accounted found f) (hadd : f.add l here = some next) :
    Accounted (found ++ [(l, here)]) next := by
  cases l with
  | gap =>
    obtain rfl := Option.some.inj hadd
    exact h.of_current hadd [] rfl rfl fun _ _ => List.not_mem_nil
  | documentation inner text =>
    obtain rfl := Option.some.inj hadd
    refine h.of_current hadd _ rfl rfl fun content close => ?_
    -- The group of a documentation comment is in brackets.
    cases inner <;> simp [documentationTrees, TokenTree.alone, TokenTree.word]
  | token t =>
    obtain rfl := Option.some.inj hadd
    exact h.of_current hadd [.token t] rfl rfl fun _ _ => by simp
  | opening d => exact h.opening hadd
  | closing d => exact h.closing hadd

/-- So they do through all lexemes. -/
theorem accounted_addAll {more : List (Lexeme × Position)} (h : Accounted found f)
    (hadd : f.addAll more = some next) : Accounted (found ++ more) next := by
  induction more generalizing found f with
  | nil =>
    obtain rfl := Option.some.inj hadd
    rwa [List.append_nil]
  | cons first rest ih =>
    rw [Forest.addAll] at hadd
    split at hadd
    · contradiction
    · rename_i middle hfirst
      have hrest := ih (accounted_add h hfirst) hadd
      rwa [List.append_assoc] at hrest

/-- No group is there before the first lexeme. -/
theorem accounted_nil : Accounted [] ⟨[], []⟩ := by
  refine ⟨rfl, fun behind content close before outer hlevel => ?_⟩
  generalize htrees : behind ++ .group .brace content close :: before = level at hlevel
  cases hlevel with
  | innermost => simp at htrees
  | around split => simp at split

end

/-! ## Modules -/

/-- The word in front of the name of a module. -/
def modWord : Name := ⟨"mod", false, by decide⟩

/-- The trees of an inline module behind its visibility. -/
def moduleTrees (name : Name) (content : List TokenTree) (close : Position) : List TokenTree :=
  [.word modWord, .word name, .group .brace content close]

/-- Inline modules of these names, each inside of the one before, are somewhere in trees. The
innermost one has this content, and its brace is closed at `close`. -/
inductive Encloses : List TokenTree → List (List Char) → List TokenTree → Position → Prop where
  /-- One module is alone. -/
  | innermost (front behind : List TokenTree) (name : Name) (content : List TokenTree)
      (close : Position) :
      Encloses (front ++ moduleTrees name content close ++ behind) [name.text.toList] content close
  /-- The others are inside of the first one. -/
  | inside (front behind : List TokenTree) (name : Name) {content : List TokenTree}
      (end' : Position) {names : List (List Char)} {inner : List TokenTree} {close : Position}
      (others : Encloses content names inner close) :
      Encloses (front ++ moduleTrees name content end' ++ behind) (name.text.toList :: names) inner
        close

/-- An open group is an inline module of this name. -/
def OpensModule (name : List Char) (opened : Delimiter × List TokenTree) : Prop :=
  opened.1 = .brace ∧ ∃ n front, n.text.toList = name ∧
    opened.2.reverse = front ++ [.word modWord, .word n]

/-- At the end of these lexemes exactly the inline modules of these names are open, the outermost
first, and this is what the innermost one holds. -/
def LeavesOpen (found : List (Lexeme × Position)) (names : List (List Char))
    (content : List TokenTree) : Prop :=
  ∃ enclosing, Forest.addAll ⟨[], []⟩ found = some ⟨content.reverse, enclosing⟩ ∧
    List.Forall₂ OpensModule names enclosing.reverse

section

variable {found : List (Lexeme × Position)} {outer names : List (List Char)}
  {trees front behind content : List TokenTree} {name : Name} {close : Position}

/-- Where a module stands in what lexemes leave open, one of them closes it. -/
theorem LeavesOpen.split
    (h : LeavesOpen found outer (front ++ moduleTrees name content close ++ behind)) :
    ∃ first back, found = first ++ (.closing .brace, close) :: back ∧
      LeavesOpen first (outer ++ [name.text.toList]) content := by
  obtain ⟨enclosing, hmade, hopened⟩ := h
  have haccounted := accounted_addAll accounted_nil hmade
  -- The trees are kept latest first.
  have hlevel : Forest.Level
      ⟨(front ++ moduleTrees name content close ++ behind).reverse, enclosing⟩
      (behind.reverse ++ .group .brace content close ::
        (.word name :: .word modWord :: front.reverse)) enclosing := by
    have hreverse : (front ++ moduleTrees name content close ++ behind).reverse =
        behind.reverse ++ .group .brace content close ::
          (.word name :: .word modWord :: front.reverse) := by
      simp [moduleTrees]
    rw [hreverse]
    exact .innermost
  obtain ⟨first, back, hfound, hfirst⟩ := haccounted.closed _ _ _ _ _ hlevel
  refine ⟨first, back, hfound, _, hfirst, ?_⟩
  rw [List.reverse_cons]
  refine List.rel_append hopened (.cons ⟨rfl, name, front, rfl, ?_⟩ .nil)
  simp

/-- A chain of modules ends at a closing brace, in front of which the modules are open. -/
theorem closes_of_encloses (henclose : Encloses trees names content close)
    (h : LeavesOpen found outer trees) :
    ∃ first back, found = first ++ (.closing .brace, close) :: back ∧
      LeavesOpen first (outer ++ names) content := by
  induction henclose generalizing found outer with
  | innermost front behind name content close => exact h.split
  | inside front behind name end' others ih =>
    obtain ⟨first, back, rfl, hfirst⟩ := h.split
    obtain ⟨inner, back', rfl, hinner⟩ := ih hfirst
    refine ⟨inner, back' ++ (.closing .brace, end') :: back, ?_, ?_⟩
    · rw [List.append_assoc, List.cons_append]
    · rwa [List.append_assoc] at hinner

end

end UnitLoader.Syntax
