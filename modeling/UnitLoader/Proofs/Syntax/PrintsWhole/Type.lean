import UnitLoader.Proofs.Syntax.PrintsWhole

/-!
# Attributes, paths, bounds and types print whole trees
-/

namespace UnitLoader.Syntax

open UnitLoader.Syntax.Parser

-- The instance of a parser has one step for each part of it.
set_option synthInstance.maxSize 10000

/-! ## The types of methods -/

/-- The type is that of a parameter, or the one behind the arrow. -/
def Signature.HasType (s : Signature) (type : TypeTree) : Prop :=
  (∃ pattern, .typed pattern type ∈ s.params) ∨ s.output = some type

/-- The method stands in the item, or in one of the modules in it. -/
inductive Item.Holds (m : Method) : Item → Prop
  | implementation {ofTrait : Bool} {generics : List GenericParam} {self : TypeTree}
    {methods : List Method} : m ∈ methods → Holds m (.implementation ofTrait generics self methods)
  | inlineModule {n : Name} {close : Text.Position} {items : List Item} {item : Item} :
    item ∈ items → Holds m item → Holds m (.inlineModule n close items)

/-- The types of the head are whole. -/
def Signature.IsWhole (s : Signature) : Prop := ∀ type, s.HasType type → Whole type.trees

/-- The types of all methods in the item are whole. -/
def Item.IsWhole (item : Item) : Prop := ∀ m, item.Holds m → m.signature.IsWhole

/-! ## Parts of the grammar -/

/-- Every part of the grammar takes and prints whole trees. -/
class Grammar.PrintsWhole (g : Grammar) : Prop where
  /-- The trees of a type are whole. -/
  type : ∀ plus, Gives (g.type plus) fun t => Whole t.trees
  bound : ∀ capture constant, Parser.PrintsWhole (g.bound capture constant)
  expression : ∀ structs, Parser.PrintsWhole (g.expression structs)
  operand : ∀ structs, Parser.PrintsWhole (g.operand structs)
  /-- An operand is never missing. -/
  takes : ∀ structs, Takes (g.operand structs)
  operators : ∀ structs level left, Parser.PrintsWhole (g.operators structs level left)
  leading : ∀ inStatement, Parser.PrintsWhole (g.leading inStatement)
  pattern : Parser.PrintsWhole g.pattern
  statements : Parser.PrintsWhole g.statements
  /-- So are the types of all methods. -/
  item : Gives g.item Item.IsWhole
  useTree : ∀ root, Parser.PrintsWhole (g.useTree root)

section

variable {g : Grammar} [hg : g.PrintsWhole]

instance {plus : Bool} : PrintsWhole (g.type plus) := (hg.type plus).toPrintsWhole
instance {capture constant : Bool} : PrintsWhole (g.bound capture constant) := hg.bound _ _
instance {structs : Bool} : PrintsWhole (g.expression structs) := hg.expression _
instance {structs : Bool} : PrintsWhole (g.operand structs) := hg.operand _
instance {structs : Bool} : Takes (g.operand structs) := hg.takes _
instance {structs : Bool} {level : Nat} {left : Expression} :
    PrintsWhole (g.operators structs level left) := hg.operators _ _ _
instance {inStatement : Bool} : PrintsWhole (g.leading inStatement) := hg.leading _
instance : PrintsWhole g.pattern := hg.pattern
instance : PrintsWhole g.statements := hg.statements
instance : PrintsWhole g.item := hg.item.toPrintsWhole
instance {root : Bool} : PrintsWhole (g.useTree root) := hg.useTree _

/-! ## Attributes, visibility and macro calls -/

instance : PrintsWhole plainPath := by
  unfold plainPath
  infer_instance

instance : PrintsWhole (attributeBody g) := by
  unfold attributeBody
  dsimp only
  repeat' first | infer_instance | refine prints_bind fun _ => ?_ | split

instance : PrintsWhole (outerAttribute g) := by
  unfold outerAttribute
  infer_instance

instance : PrintsWhole (outerAttributes g) := by
  unfold outerAttributes
  infer_instance

instance : PrintsWhole (innerAttributes g) := by
  unfold innerAttributes
  infer_instance

instance : PrintsWhole visibility := by
  unfold visibility
  repeat' first | infer_instance | refine prints_bind fun _ => ?_ | split

instance : PrintsWhole macroArguments := by
  unfold macroArguments
  infer_instance

instance : PrintsWhole builtinCall := by
  unfold builtinCall
  infer_instance

instance : PrintsWhole (block g) := by
  unfold block
  infer_instance

instance : PrintsWhole (body g) := by
  unfold body
  infer_instance

instance : PrintsWhole (constArgument g) := by
  unfold constArgument
  infer_instance

/-! ## Arguments and parameters in angle brackets -/

instance {plus : Bool} : PrintsWhole (returnType g plus) := by
  unfold returnType
  infer_instance

theorem whole_commaIf (has : Bool) : Whole (commaIf has) := by
  cases has
  · exact .nil
  · exact whole_alone rfl (by decide) .nil

/-- Arguments that are whole are whole in any order. -/
theorem Argument.whole_arrange {arguments : List Argument} (h : ∀ a ∈ arguments, Whole a.trees) :
    Whole (Argument.arrange arguments) := by
  have hfront : Whole ((arguments.filter (·.isLifetime)).flatMap fun a =>
      a.trees ++ commaIf a.hasComma) :=
    whole_flatMap fun a ha => (h a (List.mem_of_mem_filter ha)).append (whole_commaIf _)
  refine List.foldlRecOn (motive := fun state : List TokenTree × Bool => Whole state.1) _ _ hfront
    fun state h' a ha => ?_
  have htrees := h a (List.mem_of_mem_filter ha)
  exact ((h'.append (whole_commaIf _)).append htrees).append (whole_commaIf _)

/-- What stands between angle brackets is whole, each argument by itself. -/
theorem gives_argumentsInBrackets {argument : Parser (Option Name)} [PrintsWhole argument] :
    Gives (argumentsInBrackets argument) fun arguments => ∀ a ∈ arguments, Whole a.trees := by
  have hreverse {taken : List Argument} (h : ∀ a ∈ taken, Whole a.trees) :
      ∀ a ∈ taken.reverse, Whole a.trees := fun a ha => h a (List.mem_reverse.1 ha)
  refine gives_bind fun _ => ?_
  refine Gives.bind (gives_repeating (I := fun taken => ∀ a ∈ taken, Whole a.trees)
    (fun a ha => absurd ha List.not_mem_nil) fun taken htaken => ?_)
    fun arguments h => gives_bind fun _ => gives_pure h
  refine gives_bind fun _ => .ite (gives_pure (hreverse htaken)) ?_
  refine gives_captured.bind fun (lifetime, trees) htrees => gives_bind fun _ => .ite ?_ ?_
  · exact gives_pure (hreverse (List.forall_mem_cons.2 ⟨htrees, htaken⟩))
  · exact gives_bind fun _ => gives_pure (List.forall_mem_cons.2 ⟨htrees, htaken⟩)

theorem prints_printInBrackets {arguments : List Argument} (h : ∀ a ∈ arguments, Whole a.trees) :
    PrintsWhole (printInBrackets arguments) :=
  prints_print <| whole_alone rfl (by decide) <|
    (Argument.whole_arrange h).append (whole_alone rfl (by decide) .nil)

/-- What stands between angle brackets may be printed at once. -/
instance {α : Type} {argument : Parser (Option Name)} {q : Parser α} [PrintsWhole argument]
    [PrintsWhole q] : PrintsWhole (do printInBrackets (← argumentsInBrackets argument); q) :=
  gives_argumentsInBrackets.prints_bind fun _ harguments =>
    have := prints_printInBrackets harguments
    inferInstance

/-- Bounds are printed behind a colon if there are any. -/
instance {α : Type} {ended : List TokenTree → Bool} {bound : Parser α} [PrintsWhole bound] :
    PrintsWhole (boundsBehindColon ended bound) := by
  refine prints_bind fun _ => .ite ?_ inferInstance
  refine gives_captured.prints_bind fun (held, trees) htrees => ?_
  have := prints_print (whole_alone (c := ':') rfl (by decide) htrees)
  dsimp only
  infer_instance

instance : PrintsWhole lifetimeParam := by
  unfold lifetimeParam
  infer_instance

instance : PrintsWhole (typeParam g) := by
  unfold typeParam
  infer_instance

instance : PrintsWhole (constParam g) := by
  unfold constParam
  infer_instance

instance {anonymous : Bool} : PrintsWhole (genericParam g anonymous) := by
  unfold genericParam
  infer_instance

instance : PrintsWhole (generics g) := by
  refine prints_bind fun _ => .ite ?_ inferInstance
  refine gives_argumentsInBrackets.prints_bind fun params hparams => ?_
  have := prints_printInBrackets hparams
  infer_instance

instance : PrintsWhole (boundLifetimes? g) := by
  unfold boundLifetimes?
  infer_instance

instance : PrintsWhole (associated g) := by
  unfold associated
  infer_instance

instance : PrintsWhole (genericArgument g) := by
  unfold genericArgument
  repeat' first | infer_instance | refine prints_bind fun _ => ?_ | split

instance : PrintsWhole (parenthesizedArguments g) := by
  unfold parenthesizedArguments
  infer_instance

/-! ## Paths -/

/-- Arguments are kept apart until all of them are known. -/
instance {argument : Parser (Option Name)} : Silent (argumentsInBrackets argument) := by
  unfold argumentsInBrackets
  infer_instance

instance : PrintsWhole (angledArguments g) :=
  prints_bind fun _ => gives_argumentsInBrackets.prints_bind fun _ harguments =>
    have := prints_printInBrackets harguments
    inferInstance

/-- If the arguments that were printed last are vacant, they may be dropped. -/
def PathArguments.MayGo : PathArguments → Cursor → Prop
  | .angled true separated, c => Whole (c.printed.drop (if separated then 4 else 2)).reverse
  | _, _ => True

omit hg in
theorem mayGo_angledArguments {c c' : Cursor} {arguments : PathArguments} (hc : Sound c)
    (h : (angledArguments g).run c = some (arguments, c')) : arguments.MayGo c' := by
  obtain ⟨separated, c₁, hseparator, h⟩ := bind_eq_some h
  obtain ⟨taken, c₂, htaken, h⟩ := bind_eq_some h
  obtain ⟨_, c₃, hprint, h⟩ := bind_eq_some h
  obtain ⟨rfl, rfl⟩ := pure_eq_some h
  cases hprint
  cases taken with
  -- Brackets with something in them are printed as they are.
  | cons => trivial
  | nil =>
    -- Empty ones are not, and neither is the separator in front of them; what was printed before is
    -- whole.
    have hprinted : (c₂.printed.drop (if separated then 2 else 0)).reverse = c.printed.reverse := by
      rw [Silent.printed htaken]
      obtain ⟨found, c₄, hpeek, hseparator⟩ := bind_eq_some hseparator
      cases hpeek
      split at hseparator
      · obtain ⟨_, c₅, hsymbol, hpure⟩ := bind_eq_some hseparator
        obtain ⟨rfl, rfl⟩ := pure_eq_some hpure
        rw [(symbolAs_eq_some hsymbol).2]
        rfl
      · obtain ⟨rfl, rfl⟩ := pure_eq_some hseparator
        rfl
    have hwhole := hprinted ▸ hc.printed
    cases separated <;> exact hwhole

/-- Parts of a path have a name. -/
theorem gives_pathSegment {inExpression : Bool} :
    Gives (pathSegment g inExpression) fun s => (Piece.word s.name).Good := by
  have harguments {condition : List TokenTree → Bool} (n : Name) (hn : (Piece.word n).Good) :
      Gives (do
          let ts ← rest
          if condition ts then return ⟨n, ← angledArguments g⟩
          return ⟨n, .none⟩ : Parser PathSegment) fun s => (Piece.word s.name).Good :=
    gives_bind fun _ => .ite (gives_bind fun _ => gives_pure hn) (gives_pure hn)
  refine gives_bind fun _ => .ite (gives_word.map fun _ hn => hn) ?_
  exact gives_bind fun _ => .ite (gives_word.bind harguments) (gives_name.bind harguments)

instance {inExpression : Bool} : PrintsWhole (pathSegment g inExpression) :=
  gives_pathSegment.toPrintsWhole

omit hg in
theorem mayGo_pathSegment {inExpression : Bool} {c c' : Cursor} {s : PathSegment} (hc : Sound c)
    (h : (pathSegment g inExpression).run c = some (s, c')) : s.arguments.MayGo c' := by
  have harguments {condition : List TokenTree → Bool} (n : Name) {c : Cursor} (hc : Sound c)
      (h : (do
          let ts ← rest
          if condition ts then return ⟨n, ← angledArguments g⟩
          return ⟨n, .none⟩ : Parser PathSegment).run c = some (s, c')) : s.arguments.MayGo c' := by
    obtain ⟨ts, c₁, hrest, h⟩ := bind_eq_some h
    cases hrest
    split at h
    · obtain ⟨arguments, c₁, harguments, h⟩ := bind_eq_some h
      obtain ⟨rfl, rfl⟩ := pure_eq_some h
      exact mayGo_angledArguments hc harguments
    · obtain ⟨rfl, rfl⟩ := pure_eq_some h
      trivial
  -- A word for a module has no arguments.
  obtain ⟨_, c₁, hpeek, h⟩ := bind_eq_some h
  cases hpeek
  split at h
  · obtain ⟨n, c₁, hword, h⟩ := bind_eq_some h
    obtain ⟨rfl, rfl⟩ := pure_eq_some h
    trivial
  obtain ⟨_, c₁, hpeek, h⟩ := bind_eq_some h
  cases hpeek
  dsimp only at h
  split at h
  -- Inside of an expression they need a separator, which is the only difference.
  all_goals
    obtain ⟨n, c₁, hname, h⟩ := bind_eq_some h
    exact harguments n ((PrintsWhole.leads hc hname).sound hc) h

/-- The names in a path may be read. -/
def Path.IsGood (p : Path) : Prop := ∀ s ∈ p.segments, (Piece.word s.name).Good

theorem gives_pathRest {inExpression : Bool} {start : Path} (hstart : start.IsGood) :
    Gives (pathRest g inExpression start) Path.IsGood := by
  refine gives_repeating (I := Path.IsGood) hstart fun p hp => gives_bind fun _ => .ite ?_ ?_
  · refine gives_bind fun _ => gives_pathSegment.bind fun s hs => gives_pure ?_
    exact List.forall_mem_append.2 ⟨hp, List.forall_mem_singleton.2 hs⟩
  · exact gives_pure hp

theorem gives_path {inExpression : Bool} : Gives (path g inExpression) Path.IsGood :=
  gives_bind fun _ => gives_pathSegment.bind fun _ hs =>
    gives_pathRest (List.forall_mem_singleton.2 hs)

instance {inExpression : Bool} : PrintsWhole (path g inExpression) := gives_path.toPrintsWhole

theorem mayGo_path {inExpression : Bool} {c c' : Cursor} {p : Path} (hc : Sound c)
    (h : (path g inExpression).run c = some (p, c')) : p.lastArguments.MayGo c' := by
  obtain ⟨isGlobal, c₁, hglobal, h⟩ := bind_eq_some h
  obtain ⟨first, c₂, hfirst, h⟩ := bind_eq_some h
  have hc₁ := (PrintsWhole.leads hc hglobal).sound hc
  have hstart := (PrintsWhole.leads hc₁ hfirst).sound hc₁
  refine repeating_eq_some (I := fun p c => Sound c ∧ p.lastArguments.MayGo c)
    (E := fun p c => p.lastArguments.MayGo c) h ⟨hstart, mayGo_pathSegment hc₁ hfirst⟩ ?_
  -- The last segment decides, and each turn adds one behind the others.
  rintro p c c' outcome ⟨hc, hp⟩ hrun
  obtain ⟨ts, c₁, hrest, hrun⟩ := bind_eq_some hrun
  cases hrest
  split at hrun
  · obtain ⟨_, c₁, hseparator, hrun⟩ := bind_eq_some hrun
    obtain ⟨s, c₂, hsegment, hrun⟩ := bind_eq_some hrun
    obtain ⟨rfl, rfl⟩ := pure_eq_some hrun
    have hc₁ := (PrintsWhole.leads hc hseparator).sound hc
    refine ⟨(PrintsWhole.leads hc₁ hsegment).sound hc₁, ?_⟩
    unfold Path.lastArguments
    rw [List.getLast?_concat]
    exact mayGo_pathSegment hc₁ hsegment
  · obtain ⟨rfl, rfl⟩ := pure_eq_some hrun
    exact hp

instance {inExpression : Bool} : PrintsWhole (relativeParts g inExpression) := by
  unfold relativeParts
  infer_instance

theorem gives_qualifiedPath {inExpression : Bool} :
    Gives (qualifiedPath g inExpression) fun found => found.1 = false → found.2.IsGood := by
  refine gives_bind fun _ => .ite ?_ (gives_path.bind fun p hp => gives_pure fun _ => hp)
  refine gives_bind fun _ => gives_bind fun _ => ?_
  have hbehind : Gives (do
      symbol ">"
      symbol "::"
      pure (true, ⟨true, ← relativeParts g inExpression⟩) : Parser (Bool × Path))
      fun found => found.1 = false → found.2.IsGood :=
    gives_bind fun _ => gives_bind fun _ => gives_bind fun _ =>
      gives_pure fun hrelative => Bool.noConfusion hrelative
  exact .ite (gives_bind fun _ => hbehind) hbehind

instance {inExpression : Bool} : PrintsWhole (qualifiedPath g inExpression) :=
  gives_qualifiedPath.toPrintsWhole

/-! ## Bounds -/

/-- The place of vacant arguments is taken by arguments in parentheses. -/
theorem leads_replaceArguments {vacant : PathArguments} {c c' : Cursor} {u : Unit}
    (hc : Sound c) (hvacant : vacant.MayGo c)
    (h : (replaceArguments g vacant).run c = some (u, c')) : Leads c c' := by
  have hrest : PrintsWhole (do discard (silently (symbol? "::")); parenthesizedArguments g) :=
    inferInstance
  unfold replaceArguments at h
  split at h
  · obtain ⟨_, c₁, hunprint, h⟩ := bind_eq_some h
    cases hunprint
    have hleads : Leads c ⟨c.rest, c.printed.drop _⟩ := ⟨⟨[], rfl, .nil⟩, hvacant⟩
    exact hleads.trans (hrest.leads (hleads.sound hc) h)
  · exact hrest.leads hc h

/-- They do so right behind the path. -/
instance {α : Type} {q : Parser α} [PrintsWhole q] :
    PrintsWhole (do
      let p ← path g false
      if p.lastArguments.isVacant && parenthesesAhead (← rest) then
        replaceArguments g p.lastArguments
      q) := by
  refine ⟨fun {c c' a} hc hrun => ?_⟩
  obtain ⟨p, c₁, hpath, hrun⟩ := bind_eq_some hrun
  obtain ⟨ts, c₂, hrest, hrun⟩ := bind_eq_some hrun
  cases hrest
  have hleads := PrintsWhole.leads hc hpath
  dsimp only at hrun
  split at hrun
  · obtain ⟨_, c₃, hreplace, hrun⟩ := bind_eq_some hrun
    have hreplaced := hleads.trans
      (leads_replaceArguments (hleads.sound hc) (mayGo_path hc hpath) hreplace)
    exact hreplaced.trans (PrintsWhole.leads (hreplaced.sound hc) hrun)
  · exact hleads.trans (PrintsWhole.leads (hleads.sound hc) hrun)

instance {constant : Bool} : PrintsWhole (traitBound g constant) := by
  unfold traitBound
  infer_instance

instance : PrintsWhole captures := by
  unfold captures
  have hparam : PrintsWhole (do
      let ts ← rest
      if Ahead.lifetime ts then some <$> lifetime
      else do
        require (Ahead.name ts || Ahead.keyword "Self" ts)
        discard word
        pure none) := inferInstance
  exact prints_bind fun _ => gives_argumentsInBrackets.prints_bind fun _ => prints_printInBrackets

instance {capture constant : Bool} : PrintsWhole (bound g capture constant) := by
  unfold bound
  infer_instance

instance {plus capture constant : Bool} : PrintsWhole (bounds g plus capture constant) := by
  unfold bounds
  infer_instance

instance : PrintsWhole (condition g) := by
  unfold condition
  infer_instance

instance : PrintsWhole (whereClause? g) := by
  refine prints_bind fun _ => .ite ?_ inferInstance
  refine prints_bind fun _ => prints_bind fun _ => ?_
  refine gives_captured.prints_bind fun (conditions, trees) htrees => ?_
  have : PrintsWhole (print (.word ⟨"where", false, by decide⟩ :: trees)) :=
    prints_print (whole_word good_word htrees)
  infer_instance

/-! ## Types -/

instance : PrintsWhole abi? := by
  unfold abi?
  infer_instance

instance {isFirst : Bool} : PrintsWhole (functionTypeParam g isFirst) := by
  unfold functionTypeParam
  infer_instance

instance : PrintsWhole (functionTypeParams g) := by
  unfold functionTypeParams
  infer_instance

instance : PrintsWhole (functionType g) := by
  unfold functionType
  infer_instance

instance {plus : Bool} : PrintsWhole (objectBounds g plus) := by
  unfold objectBounds
  infer_instance

instance : PrintsWhole (furtherBounds g) := by
  unfold furtherBounds
  infer_instance

instance : PrintsWhole (insideParentheses g) := by
  unfold insideParentheses
  infer_instance

instance : PrintsWhole (pathBounds g) := by
  unfold pathBounds
  infer_instance

/-- From whole trees the shape makes a type with whole trees. -/
def TypeShape.KeepsWhole (shape : TypeShape) : Prop :=
  ∀ trees, Whole trees → Whole (shape trees).trees

theorem keepsWhole_ofPath {p : Path} (hp : p.IsGood) : TypeShape.KeepsWhole (.ofPath p) := by
  intro trees htrees
  unfold TypeTree.ofPath
  split
  · rename_i isGlobal n
    have hname : Whole [.word n] := whole_word (hp _ List.mem_cons_self) .nil
    change Whole ((if isGlobal then TokenTree.symbol [':', ':'] else []) ++ [.word n])
    split
    · exact (whole_symbol rfl).append hname
    · exact hname
  · exact htrees

theorem gives_objectType : Gives (objectType g) TypeShape.KeepsWhole :=
  gives_bind fun _ => gives_bind fun _ => gives_pure fun _ h => h

instance : PrintsWhole (objectType g) := gives_objectType.toPrintsWhole

theorem gives_parenthesizedType {plus : Bool} {content : List TokenTree} :
    Gives (parenthesizedType g plus content) TypeShape.KeepsWhole := by
  have hobject : Gives (do return .object false (← furtherBounds g) : Parser TypeShape)
      TypeShape.KeepsWhole := gives_bind fun _ => gives_pure fun _ h => h
  refine .ite ?empty <| .ite ?marked <| .ite ?optional ?types
  case empty | marked => exact gives_bind fun _ => gives_pure fun _ h => h
  case optional => exact gives_bind fun _ => hobject
  case types =>
    refine gives_bind fun first? => ?_
    cases first? with
    | none => exact gives_pure fun _ h => h
    | some first => exact gives_bind fun _ => .ite hobject (gives_pure fun _ h => h)

theorem gives_namedType {plus introduced : Bool} :
    Gives (namedType g plus introduced) TypeShape.KeepsWhole := by
  have hobject {p : Parser Bool} [PrintsWhole p] :
      Gives (do return .object false (← p) : Parser TypeShape) TypeShape.KeepsWhole :=
    gives_bind fun _ => gives_pure fun _ h => h
  refine gives_qualifiedPath.bind fun (qualified, p) hp => ?_
  cases qualified with
  | true => exact gives_pure fun _ h => h
  | false =>
    refine gives_bind fun _ => .ite (gives_bind fun _ => gives_pure fun _ h => h) ?_
    refine gives_bind fun _ => .ite ?_ (gives_pure (keepsWhole_ofPath (hp rfl)))
    exact .ite hobject hobject

/-- A reference is written by its own parts. -/
theorem gives_referenceType : Gives (referenceType g) TypeShape.KeepsWhole := by
  refine gives_bind fun _ => gives_lifetime?.bind fun lifetime hlifetime => ?_
  refine gives_bind fun isMutable => (hg.type false).bind fun element helement => ?_
  have hfront : Whole ((lifetime.map lifetimeTrees).getD []) := by
    cases lifetime with
    | none => exact .nil
    | some n => exact whole_lifetime (hlifetime n rfl) .nil
  have hmutable : Whole (if isMutable then [.word ⟨"mut", false, by decide⟩] else []) := by
    split
    · exact whole_word good_word .nil
    · exact .nil
  exact gives_pure fun _ _ =>
    whole_alone rfl (by decide) ((hfront.append hmutable).append helement)

theorem gives_typeBehindLifetimes {plus introduced : Bool} :
    Gives (typeBehindLifetimes g plus introduced) TypeShape.KeepsWhole := by
  have hother {p : Parser Unit} [PrintsWhole p] :
      Gives (do p; return .other : Parser TypeShape) TypeShape.KeepsWhole :=
    gives_bind fun _ => gives_pure fun _ h => h
  refine gives_bind fun ts => ?_
  split
  case h_1 => exact gives_parenthesizedType
  case h_2 => exact hother
  case h_3 =>
    refine .ite hother <| .ite gives_namedType <| .ite ?marked <| .ite ?pointer <|
      .ite gives_referenceType <| .ite hother <| .ite ?bounded <| .ite hother <|
      .ite gives_objectType gives_failure
    case marked =>
      refine gives_bind fun _ => .ite ?_ ?_ <;> exact gives_bind fun _ => gives_pure fun _ h => h
    case pointer =>
      exact gives_bind fun _ => gives_bind fun _ => .ite hother (gives_bind fun _ => hother)
    case bounded => exact gives_bind fun _ => gives_bind fun _ => hother

theorem gives_typeShape {plus : Bool} : Gives (typeShape g plus) TypeShape.KeepsWhole := by
  refine Gives.verbatimIf (gives_bind fun introduced => gives_bind fun ts => ?_)
  have hbehind : Gives (do
      if builtinAhead ts then
        builtinCall
        return (.other, true)
      return (← typeBehindLifetimes g plus introduced, false) : Parser (TypeShape × Bool))
      fun found => found.1.KeepsWhole := by
    refine .ite (gives_bind fun _ => gives_pure fun _ h => h) ?_
    exact gives_typeBehindLifetimes.bind fun _ hshape => gives_pure hshape
  exact .ite (gives_bind fun _ => hbehind) hbehind

theorem gives_type {plus : Bool} : Gives (Syntax.type g plus) fun t => Whole t.trees := by
  refine gives_typeShape.captured.bind fun (shape, trees) ⟨hshape, htrees⟩ => ?_
  have := prints_print htrees
  exact gives_bind fun _ => gives_pure (hshape trees htrees)

end

end UnitLoader.Syntax
