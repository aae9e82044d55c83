import UnitLoader.Outline.Declaration
import UnitLoader.SourceUnit

/-!
# Open braces as a stack of frames

The reader of an outline keeps a number of open braces and the depths of the open modules. Here it
is compared with an interpreter that keeps a stack of all open braces, each marked as that of an
inline module or as another one (`interpret`). The two agree on every outline, balanced or not.

The relation between a state and a stack is `State.Follows`: the depth is the height of the stack,
the recorded modules are its module frames, each with its own height, and no module frame stands on
another kind. A pushed and a popped frame keep it (`follows_push`, `follows_pop`). What the reader
expects of the next token is, for the interpreter, a token that it has not gone past yet
(`unread`), and with this one token of the reader is one step (`interpret_unread`).
-/

namespace UnitLoader

namespace Outline

/-- An open brace. -/
inductive Frame where
  /-- That of an inline module. -/
  | module (name : List Char)
  /-- Any other. -/
  | other
  deriving DecidableEq, Repr

/-- The brace is that of an inline module. -/
def Frame.isModule : Frame → Bool
  | .module _ => true
  | .other => false

/-- The name of the module. -/
def Frame.name? : Frame → Option (List Char)
  | .module name => some name
  | .other => none

/-- The names of the open modules, outermost first, where the innermost frame comes first. -/
def moduleNames (frames : List Frame) : List (List Char) := (frames.filterMap Frame.name?).reverse

/-- What follows the bracket that closes a group, of which `depth` further brackets are open. -/
def behindGroup : (depth : Nat) → List Token → List Token
  | _, [] => []
  | depth, .mark '[' :: rest => behindGroup (depth + 1) rest
  | 0, .mark ']' :: rest => rest
  | depth + 1, .mark ']' :: rest => behindGroup depth rest
  | depth, _ :: rest => behindGroup depth rest

theorem length_behindGroup_le (depth : Nat) (outline : List Token) :
    (behindGroup depth outline).length ≤ outline.length := by
  fun_induction behindGroup depth outline <;>
    simp only [List.length_cons, List.length_nil] <;> omega

/-- Reads an outline with a stack of open braces, of which the innermost comes first: the path of
the first type that is declared while every open brace is that of a module, or the braces that are
open at the end. With `again`, a word behind `mod` is read again as a word of its own unless it is
the name of an inline module. -/
def interpret (again : Bool) (frames : List Frame) : List Token → List (List Char) ⊕ List Frame
  | [] => .inr frames
  | .mark '#' :: .mark '[' :: rest => interpret again frames (behindGroup 0 rest)
  | .mark '#' :: .mark '!' :: .mark '[' :: rest => interpret again frames (behindGroup 0 rest)
  | .openBrace :: rest => interpret again (.other :: frames) rest
  | .closeBrace :: rest => interpret again frames.tail rest
  | .word keyword :: .word name :: rest =>
    if frames.all Frame.isModule && declaresType keyword then .inl (moduleNames frames ++ [name])
    else if frames.all Frame.isModule && keyword == "mod".toList then
      match rest with
      | .openBrace :: inside => interpret again (.module name :: frames) inside
      | rest =>
        if again then interpret again frames (.word name :: rest)
        else interpret again frames rest
    else interpret again frames (.word name :: rest)
  | _ :: rest => interpret again frames rest
termination_by outline => outline.length
decreasing_by
  all_goals simp only [List.length_cons]
  all_goals first
    | omega
    | exact Nat.lt_of_le_of_lt (length_behindGroup_le _ _) (by omega)

/-! ## The recorded modules of a stack -/

/-- The modules of a stack, innermost last, each with the height of the stack at its frame. -/
def recorded : List Frame → List (List Char × Nat)
  | [] => []
  | .module name :: outer => recorded outer ++ [(name, outer.length + 1)]
  | .other :: outer => recorded outer

theorem map_fst_recorded (frames : List Frame) :
    (recorded frames).map Prod.fst = moduleNames frames := by
  induction frames with
  | nil => rfl
  | cons frame outer ih =>
    cases frame with
    | module name => simp [recorded, moduleNames, Frame.name?, ih]
    | other => rw [recorded, ih, moduleNames, moduleNames, List.filterMap_cons_none rfl]

theorem length_recorded_le (frames : List Frame) : (recorded frames).length ≤ frames.length := by
  induction frames with
  | nil => exact Nat.le_refl 0
  | cons frame outer ih =>
    cases frame with
    | module name =>
      rw [recorded, List.length_append, List.length_singleton, List.length_cons]
      exact Nat.succ_le_succ ih
    | other => exact Nat.le_succ_of_le ih

/-- All braces are those of modules exactly if as many are recorded as are open. -/
theorem length_recorded_eq_iff (frames : List Frame) :
    (recorded frames).length = frames.length ↔ frames.all Frame.isModule = true := by
  induction frames with
  | nil => simp [recorded]
  | cons frame outer ih =>
    cases frame with
    | module name => simp [recorded, Frame.isModule, ih]
    | other =>
      have hle := length_recorded_le outer
      simp only [recorded, List.length_cons, List.all_cons, Frame.isModule, Bool.false_and,
        Bool.false_eq_true, iff_false]
      omega

/-- No recorded height is above that of the stack. -/
theorem le_length_of_mem_recorded {frames : List Frame} {m : List Char × Nat}
    (h : m ∈ recorded frames) : m.2 ≤ frames.length := by
  induction frames with
  | nil => exact absurd h (by simp [recorded])
  | cons frame outer ih =>
    cases frame with
    | module name =>
      obtain hin | rfl := List.mem_append.1 h |>.imp_right List.mem_singleton.1
      · exact Nat.le_succ_of_le (ih hin)
      · exact Nat.le_refl _
    | other => exact Nat.le_succ_of_le (ih h)

/-- Inside of a brace that is not that of a module, no other one is. -/
def Nested (frames : List Frame) : Prop :=
  frames.Pairwise fun inner outer => inner.isModule = true → outer.isModule = true

/-- What is outside of a module is a module. -/
theorem Nested.all_isModule {name : List Char} {outer : List Frame}
    (h : Nested (.module name :: outer)) : outer.all Frame.isModule = true :=
  List.all_eq_true.2 fun frame hframe => (List.pairwise_cons.1 h).1 frame hframe rfl

/-- In a nested stack the first module is recorded with height one, the next one with two, and so
on. -/
theorem recorded_getElem? {frames : List Frame} (h : Nested frames) {i : Nat}
    {m : List Char × Nat} (hm : (recorded frames)[i]? = some m) : m.2 = i + 1 := by
  induction frames with
  | nil => exact absurd hm (by simp [recorded])
  | cons frame outer ih =>
    have houter := ih (List.pairwise_cons.1 h).2
    cases frame with
    | other => exact houter hm
    | module name =>
      have hlength := (length_recorded_eq_iff outer).2 h.all_isModule
      rw [recorded, List.getElem?_append] at hm
      split at hm
      · exact houter hm
      · rename_i hlt
        obtain ⟨hindex, rfl⟩ := List.getElem?_eq_some_iff.1 hm
        simp only [List.length_singleton] at hindex
        simp only [List.getElem_singleton]
        omega

/-! ## States that follow a stack -/

/-- What is expected belongs to a declaration at module level. -/
def Expectation.isDeclaration : Expectation → Bool
  | .moduleName | .moduleBody _ | .typeName => true
  | _ => false

/-- The state of the reader that a stack of open braces belongs to. -/
structure State.Follows (s : State) (frames : List Frame) : Prop where
  depth : s.depth = frames.length
  modules : s.modules = recorded frames
  nested : Nested frames
  level : s.expectation.isDeclaration = true → frames.all Frame.isModule = true

namespace State

variable {s : State} {frames : List Frame}

theorem Follows.atModuleLevel (h : s.Follows frames) :
    s.atModuleLevel = frames.all Frame.isModule := by
  rw [Bool.eq_iff_iff, ← length_recorded_eq_iff, State.atModuleLevel, h.depth, h.modules,
    beq_iff_eq]
  exact eq_comm

/-- Another expectation follows the same stack, if it is none of a declaration or no brace but those
of modules is open. -/
theorem Follows.expect (h : s.Follows frames) {e : Expectation}
    (hlevel : e.isDeclaration = true → frames.all Frame.isModule = true) :
    State.Follows { s with expectation := e } frames :=
  ⟨h.depth, h.modules, h.nested, hlevel⟩

/-- An opening brace pushes a frame that is none of a module. -/
theorem follows_push (h : s.Follows frames) : (s.read .openBrace).Follows (.other :: frames) where
  depth := congrArg (· + 1) h.depth
  modules := h.modules
  nested := List.pairwise_cons.2
    ⟨fun _ _ hother => absurd hother (by simp [Frame.isModule]), h.nested⟩
  level := fun hany => absurd hany (by simp [State.read, Expectation.isDeclaration])

/-- The opening brace of an inline module pushes its frame. -/
theorem follows_pushModule (h : s.Follows frames) (hlevel : frames.all Frame.isModule = true)
    (name : List Char) :
    State.Follows ⟨s.depth + 1, s.modules ++ [(name, s.depth + 1)], .any⟩
      (.module name :: frames) where
  depth := congrArg (· + 1) h.depth
  modules := by rw [recorded, h.modules, h.depth]
  nested := List.pairwise_cons.2
    ⟨fun frame hframe _ => List.all_eq_true.1 hlevel frame hframe, h.nested⟩
  level := fun hany => absurd hany (by simp [Expectation.isDeclaration])

/-- A closing brace pops the innermost frame, if there is one. The last recorded module is that of
the frame exactly if it is recorded with the height of the stack. -/
theorem follows_pop (h : s.Follows frames) : (s.read .closeBrace).Follows frames.tail := by
  have hlevel : (s.read .closeBrace).expectation.isDeclaration = true →
      frames.tail.all Frame.isModule = true := fun hany =>
    absurd hany (by simp [State.read, Expectation.isDeclaration])
  cases frames with
  | nil =>
    -- A brace too many closes nothing, at depth zero.
    have hmodules : s.modules = [] := h.modules
    refine ⟨?_, ?_, h.nested, hlevel⟩
    · show s.depth - 1 = 0
      rw [h.depth, List.length_nil]
    · simp [State.read, hmodules, recorded]
  | cons frame outer =>
    have hdepth : s.depth = outer.length + 1 := h.depth
    refine ⟨?_, ?_, (List.pairwise_cons.1 h.nested).2, hlevel⟩
    · show s.depth - 1 = outer.length
      omega
    · cases frame with
      | module name =>
        -- The module on top of the stack is the one that was recorded last.
        have hmodules : s.modules = recorded outer ++ [(name, outer.length + 1)] := h.modules
        simp [State.read, hmodules, hdepth]
      | other =>
        -- What is recorded last lies below the popped frame.
        have hmodules : s.modules = recorded outer := h.modules
        have hlast : (s.modules.getLast?.any fun m => m.2 == s.depth) = false := by
          cases hm : s.modules.getLast? with
          | none => rfl
          | some m =>
            have hle := le_length_of_mem_recorded (hmodules ▸ List.mem_of_getLast? hm)
            simp only [Option.any_some, beq_eq_false_iff_ne]
            omega
        exact (if_neg (by simp [hlast])).trans hmodules

end State

/-! ## What the interpreter has not gone past yet -/

/-- What is left to the interpreter where the reader has only this outline left: the tokens in front
that made it expect something. -/
def unread : Expectation → List Token → List Token
  | .any, outline => outline
  | .attribute, outline => .mark '#' :: outline
  | .attributeBracket, outline => .mark '#' :: .mark '!' :: outline
  | .insideAttribute depth, outline => behindGroup depth outline
  | .moduleName, outline => .word "mod".toList :: outline
  | .moduleBody name, outline => .word "mod".toList :: .word name :: outline
  | .typeName, outline => .word "struct".toList :: outline

section

variable {frames : List Frame} {rest : List Token}

/-- The interpreter goes past a mark that opens no attribute. -/
theorem interpret_mark {c : Char}
    (hattribute : ∀ inside, c = '#' → rest = .mark '[' :: inside → False)
    (hinner : ∀ inside, c = '#' → rest = .mark '!' :: .mark '[' :: inside → False) :
    interpret false frames (.mark c :: rest) = interpret false frames rest :=
  interpret.eq_8 false frames (.mark c) rest
    (fun inside hc => hattribute inside (Token.mark.inj hc))
    (fun inside hc => hinner inside (Token.mark.inj hc))
    nofun nofun (fun _ _ _ hc => nomatch hc)

/-- The interpreter goes past a word that no word follows. -/
theorem interpret_word {w : List Char} (h : ∀ name behind, rest = .word name :: behind → False) :
    interpret false frames (.word w :: rest) = interpret false frames rest :=
  interpret.eq_8 false frames (.word w) rest nofun nofun nofun nofun
    (fun _ name behind _ hrest => h name behind hrest)

/-- A word that another word without a brace follows declares a type, is the keyword of a module, or
is gone past. -/
theorem interpret_words {again : Bool} (keyword name : List Char)
    (h : ∀ inside, rest = .openBrace :: inside → False) :
    interpret again frames (.word keyword :: .word name :: rest) =
      if frames.all Frame.isModule && declaresType keyword then .inl (moduleNames frames ++ [name])
      else if frames.all Frame.isModule && keyword == "mod".toList then
        if again then interpret again frames (.word name :: rest)
        else interpret again frames rest
      else interpret again frames (.word name :: rest) :=
  interpret.eq_7 again frames keyword name rest h

/-- A keyword that declares a type at module level gives the path of the word behind it. -/
theorem interpret_type (hlevel : frames.all Frame.isModule = true) {w : List Char}
    (hw : declaresType w = true) (name : List Char) :
    interpret false frames (.word w :: .word name :: rest) =
      .inl (moduleNames frames ++ [name]) := by
  rw [interpret.eq_def]
  dsimp only
  rw [if_pos (by rw [hlevel, hw]; rfl)]

/-- The opening brace behind a module's name at module level pushes the module's frame. -/
theorem interpret_module (hlevel : frames.all Frame.isModule = true) (name : List Char) :
    interpret false frames (.word "mod".toList :: .word name :: .openBrace :: rest) =
      interpret false (.module name :: frames) rest := by
  rw [interpret, if_neg (by rw [hlevel]; decide), if_pos (by rw [hlevel]; decide)]

/-- A module's name at module level is gone past if no brace follows. -/
theorem interpret_moduleName (hlevel : frames.all Frame.isModule = true) (name : List Char)
    (h : ∀ inside, rest = .openBrace :: inside → False) :
    interpret false frames (.word "mod".toList :: .word name :: rest) =
      interpret false frames rest := by
  rw [interpret_words _ _ h, if_neg (by rw [hlevel]; decide), if_pos (by rw [hlevel]; decide),
    if_neg (by decide)]

/-- Any other word is gone past. -/
theorem interpret_word_of_not {w : List Char}
    (htype : ¬ (frames.all Frame.isModule && declaresType w) = true)
    (hmodule : ¬ (frames.all Frame.isModule && w == "mod".toList) = true) :
    interpret false frames (.word w :: rest) = interpret false frames rest := by
  by_cases h : ∃ name behind, rest = .word name :: behind
  · obtain ⟨name, behind, rfl⟩ := h
    rw [interpret.eq_def]
    dsimp only
    rw [if_neg htype, if_neg hmodule]
  · exact interpret_word fun name behind hrest => h ⟨name, behind, hrest⟩

/-- All keywords that declare a type are the same to the interpreter. -/
theorem interpret_type_congr (hlevel : frames.all Frame.isModule = true) {w w' : List Char}
    (hw : declaresType w = true) (hw' : declaresType w' = true) :
    interpret false frames (.word w :: rest) = interpret false frames (.word w' :: rest) := by
  by_cases h : ∃ name behind, rest = .word name :: behind
  · obtain ⟨name, behind, rfl⟩ := h
    rw [interpret_type hlevel hw, interpret_type hlevel hw']
  · have hnone := fun name behind hrest => h ⟨name, behind, hrest⟩
    rw [interpret_word hnone, interpret_word hnone]

end

/-! ## One token of the reader -/

section

variable {s : State} {frames : List Frame}

/-- A token that nothing in front of it lays claim to takes the reader to a state that follows the
interpreter's next stack. -/
theorem read_follows (h : s.Follows frames) (t : Token) (rest : List Token) :
    ∃ frames', (s.read t).Follows frames' ∧
      interpret false frames (t :: rest) =
        interpret false frames' (unread (s.read t).expectation rest) := by
  cases t with
  | openBrace => exact ⟨_, State.follows_push h, by rw [interpret]; rfl⟩
  | closeBrace => exact ⟨_, State.follows_pop h, by rw [interpret]; rfl⟩
  | mark c =>
    -- Only a hash sign makes the reader expect anything.
    by_cases hc : c = '#'
    · subst hc
      exact ⟨frames, h.expect nofun, rfl⟩
    · have hread : s.read (.mark c) = { s with expectation := .any } := by simp [State.read]
      rw [hread]
      exact ⟨frames, h.expect nofun, interpret_mark (fun _ hmark => absurd hmark hc)
        fun _ hmark => absurd hmark hc⟩
  | word w =>
    have hlevel := h.atModuleLevel
    rw [State.read]
    -- At module level a word may open a module or a type; elsewhere it does nothing.
    split
    · rename_i hmodule
      rw [Bool.and_eq_true, hlevel, beq_iff_eq] at hmodule
      obtain ⟨hmodules, rfl⟩ := hmodule
      exact ⟨frames, h.expect fun _ => hmodules, rfl⟩
    · rename_i hmodule
      split
      · rename_i htype
        rw [Bool.and_eq_true, hlevel] at htype
        exact ⟨frames, h.expect fun _ => htype.1,
          interpret_type_congr htype.1 htype.2 (by decide)⟩
      · rename_i htype
        rw [hlevel] at hmodule htype
        exact ⟨frames, h.expect nofun, interpret_word_of_not htype hmodule⟩

/-- Inside of a group a token that is no bracket is gone past. -/
theorem behindGroup_of_not_bracket {t : Token} (hopen : t ≠ .mark '[') (hclose : t ≠ .mark ']')
    (depth : Nat) (rest : List Token) : behindGroup depth (t :: rest) = behindGroup depth rest :=
  behindGroup.eq_5 depth t rest hopen (fun _ => hclose) fun _ _ => hclose

/-- The next token belongs to what is expected. -/
def Expectation.claims : Expectation → Token → Bool
  | .any, _ => false
  | .attribute, t => t == .mark '!' || t == .mark '['
  | .attributeBracket, t => t == .mark '['
  | .insideAttribute _, _ => true
  | .moduleName, .word _ | .moduleBody _, .openBrace | .typeName, .word _ => true
  | _, _ => false

/-- The interpreter goes past what made the reader expect something if the next token does not
belong to it. -/
theorem interpret_unread {e : Expectation} {outline : List Token}
    (hlevel : e.isDeclaration = true → frames.all Frame.isModule = true)
    (h : ∀ t ∈ outline.head?, e.claims t = false) :
    interpret false frames (unread e outline) = interpret false frames outline := by
  cases e with
  | any => rfl
  | «attribute» =>
    -- A hash sign that no bracket follows means nothing.
    refine interpret_mark (fun inside _ hnext => ?_) fun inside _ hnext => ?_
    all_goals exact absurd (h _ (by rw [hnext]; rfl)) (by decide)
  | attributeBracket =>
    have hnext : ∀ inside, outline = .mark '[' :: inside → False := fun inside hnext =>
      absurd (h _ (by rw [hnext]; rfl)) (by decide)
    -- Neither the hash sign nor the exclamation mark means anything without a bracket.
    calc interpret false frames (.mark '#' :: .mark '!' :: outline)
        = interpret false frames (.mark '!' :: outline) :=
          interpret_mark (fun _ _ hmark => absurd (List.cons.inj hmark).1 (by decide))
            fun inside _ hmark => hnext inside (List.cons.inj hmark).2
      _ = interpret false frames outline :=
          interpret_mark (fun _ hmark => absurd hmark (by decide))
            fun _ hmark => absurd hmark (by decide)
  | insideAttribute depth =>
    -- There every token is claimed, so none is left to be read again.
    cases outline with
    | nil => rfl
    | cons t rest => exact absurd (h t rfl) (by simp [Expectation.claims])
  | moduleName =>
    -- A word that announces a name means nothing without one.
    exact interpret_word fun name behind hnext => absurd (h _ (by rw [hnext]; rfl)) (by
      simp [Expectation.claims])
  | moduleBody name =>
    exact interpret_moduleName (hlevel rfl) name fun inside hnext =>
      absurd (h _ (by rw [hnext]; rfl)) (by simp [Expectation.claims])
  | typeName =>
    exact interpret_word fun name behind hnext => absurd (h _ (by rw [hnext]; rfl)) (by
      simp [Expectation.claims])

/-- One token takes the reader to the declared path, or to a state that follows the interpreter's
next stack. -/
theorem step_follows (h : s.Follows frames) (t : Token) (rest : List Token) :
    match s.step t with
    | .inl path => interpret false frames (unread s.expectation (t :: rest)) = .inl path
    | .inr next => ∃ frames', next.Follows frames' ∧
        interpret false frames (unread s.expectation (t :: rest)) =
          interpret false frames' (unread next.expectation rest) := by
  have hlevel := h.level
  fun_cases State.step s t with
  | case1 he =>
    rw [he]
    exact ⟨frames, h.expect nofun, rfl⟩
  | case2 he =>
    rw [he]
    exact ⟨frames, h.expect nofun, by rw [unread, interpret]; rfl⟩
  | case3 he =>
    rw [he]
    exact ⟨frames, h.expect nofun, by rw [unread, interpret]; rfl⟩
  | case4 depth he =>
    -- Inside of an attribute only brackets are counted, on both sides.
    rw [he]
    exact ⟨frames, h.expect nofun, rfl⟩
  | case5 he =>
    rw [he]
    exact ⟨frames, h.expect nofun, rfl⟩
  | case6 depth he =>
    rw [he]
    exact ⟨frames, h.expect nofun, rfl⟩
  | case7 t depth he hopen hclose hclose' =>
    have hbracket : t ≠ .mark ']' := by
      rintro rfl
      cases depth with
      | zero => exact hclose rfl rfl
      | succ depth => exact hclose' depth rfl rfl
    refine ⟨frames, h, ?_⟩
    rw [he]
    exact congrArg _ (behindGroup_of_not_bracket hopen hbracket depth rest)
  | case8 name he =>
    -- The name of a module is read, and its brace is expected.
    rw [he] at hlevel ⊢
    exact ⟨frames, h.expect hlevel, rfl⟩
  | case9 name he =>
    rw [he] at hlevel ⊢
    exact ⟨_, State.follows_pushModule h (hlevel rfl) name, interpret_module (hlevel rfl) name⟩
  | case10 name he =>
    -- This is the declaration, and the names of the open modules are those of the frames.
    rw [he] at hlevel ⊢
    dsimp only
    rw [h.modules, map_fst_recorded]
    exact interpret_type (hlevel rfl) (by decide) name
  | case11 t hinside hinner hopen hopen' _ _ _ hname hbody htype =>
    -- Nothing in front of the token lays claim to it, so the interpreter goes past all that.
    obtain ⟨frames', hnext, hread⟩ := read_follows h t rest
    refine ⟨frames', hnext, (interpret_unread hlevel fun t ht => ?_).trans hread⟩
    obtain rfl := Option.some.inj ht
    -- It is one of those that none of the other cases is about.
    unfold Expectation.claims
    split <;> simp_all

/-! ## All tokens -/

/-- Reads an outline from a state up to the first declaration: its path, or the state at the end. -/
def State.run (s : State) : List Token → List (List Char) ⊕ State
  | [] => .inr s
  | t :: rest =>
    match s.step t with
    | .inl path => .inl path
    | .inr next => next.run rest

theorem declaredPathFrom_eq_run (s : State) (outline : List Token) :
    declaredPathFrom s outline = (s.run outline).getLeft? := by
  induction outline generalizing s with
  | nil => rfl
  | cons t rest ih =>
    rw [declaredPathFrom, State.run]
    cases s.step t with
    | inl path => rfl
    | inr next => exact ih next

/-- What the stack of an interpreter is to the state of the reader: its height is the number of open
braces, and its modules are the open ones. Each is recorded with its place among them, there are no
more than open braces, and there are as many exactly if no other brace is open. -/
structure State.Tracks (s : State) (frames : List Frame) : Prop where
  depth : s.depth = frames.length
  names : s.modules.map Prod.fst = moduleNames frames
  recorded : ∀ i m, s.modules[i]? = some m → m.2 = i + 1
  length_le : s.modules.length ≤ s.depth
  level : s.depth = s.modules.length ↔ ∀ frame ∈ frames, frame.isModule = true

theorem State.Follows.tracks (h : s.Follows frames) : s.Tracks frames where
  depth := h.depth
  names := by rw [h.modules, map_fst_recorded]
  recorded i m hm := recorded_getElem? h.nested (h.modules ▸ hm)
  length_le := by
    rw [h.modules, h.depth]
    exact length_recorded_le frames
  level := by
    rw [h.modules, h.depth, eq_comm, length_recorded_eq_iff, List.all_eq_true]

/-- The reader and the interpreter come to the same end. -/
def Agree : List (List Char) ⊕ State → List (List Char) ⊕ List Frame → Prop
  | .inl path, .inl path' => path = path'
  | .inr s, .inr frames => s.Tracks frames
  | _, _ => False

/-- From a state that follows the interpreter's stack both come to the same end. -/
theorem agree_run (h : s.Follows frames) (outline : List Token) :
    Agree (s.run outline) (interpret false frames (unread s.expectation outline)) := by
  induction outline generalizing s frames with
  | nil =>
    rw [interpret_unread h.level (by simp), interpret]
    exact h.tracks
  | cons t rest ih =>
    -- One token takes both to states that follow each other, or to the same name.
    have hstep := step_follows h t rest
    rw [State.run]
    cases hnext : s.step t with
    | inl path =>
      rw [hnext] at hstep
      dsimp only at hstep ⊢
      rw [hstep]
      rfl
    | inr next =>
      rw [hnext] at hstep
      obtain ⟨frames', hfollows, heq⟩ := hstep
      dsimp only
      rw [heq]
      exact ih hfollows

/-- Where both come to the same end, they come to the same path or to none. -/
theorem Agree.getLeft?_eq {read : List (List Char) ⊕ State} {stack : List (List Char) ⊕ List Frame}
    (h : Agree read stack) : read.getLeft? = stack.getLeft? := by
  cases read with
  | inl path =>
    cases stack with
    | inl path' => exact congrArg some h
    | inr frames => exact h.elim
  | inr s =>
    cases stack with
    | inl path' => exact h.elim
    | inr frames => rfl

/-- The declared path is the one that the interpreter comes to. -/
theorem declaredPath_eq_interpret (outline : List Token) :
    declaredPath outline = (interpret false [] outline).getLeft? :=
  (declaredPathFrom_eq_run _ _).trans
    (agree_run ⟨rfl, rfl, List.Pairwise.nil, fun h => absurd h (by decide)⟩ outline).getLeft?_eq

end

/-! ## Attributes -/

/-- Goes past a group of which `depth` brackets are open, with every closing bracket subtracted from
that number; `none` if it would fall below zero. -/
def skipGroup? : (depth : Nat) → List Token → Option (List Token)
  | _, [] => some []
  | depth, .mark '[' :: rest => skipGroup? (depth + 1) rest
  | 0, .mark ']' :: _ => none
  | depth + 1, .mark ']' :: rest => if depth = 0 then some rest else skipGroup? depth rest
  | depth, _ :: rest => skipGroup? depth rest

/-- Goes past what belongs to a hash sign: an exclamation mark, and a group in brackets. No bracket
is counted before the first one is read. -/
def skipAttribute? : List Token → Option (List Token)
  | .mark '!' :: .mark '[' :: rest => skipGroup? 0 (.mark '[' :: rest)
  | .mark '!' :: rest => some rest
  | .mark '[' :: rest => skipGroup? 0 (.mark '[' :: rest)
  | rest => some rest

/-- Behind an opened bracket the number of open ones does not fall below zero. -/
theorem skipGroup?_eq (depth : Nat) (outline : List Token) :
    skipGroup? (depth + 1) outline = some (behindGroup depth outline) := by
  fun_induction behindGroup depth outline with
  | case1 => rfl
  | case2 depth rest ih => exact ih
  | case3 => rfl
  | case4 depth rest ih => exact ih
  | case5 depth t rest hopen hzero hsucc ih =>
    have hclose : t ≠ .mark ']' := by
      cases depth with
      | zero => exact hzero rfl
      | succ depth => exact hsucc depth rfl
    rw [skipGroup?.eq_5 (depth + 1) t rest hopen (fun h => absurd h (by simp)) fun _ _ => hclose,
      ih]

/-- Reading a token for itself does not depend on what was expected. -/
theorem read_expect (s : State) (e : Expectation) (t : Token) :
    State.read { s with expectation := e } t = s.read t := by
  unfold State.read
  split <;> rfl

/-- A token that does not belong to what is expected is read for itself. -/
theorem step_of_not_claims {e : Expectation} {t : Token} (h : e.claims t = false) (s : State) :
    State.step { s with expectation := e } t = .inr (s.read t) := by
  unfold State.step
  split
  case h_11 => rw [read_expect]
  -- In every other case the token belongs to what is expected.
  all_goals simp_all [Expectation.claims]

/-- If the first token does not belong to what is expected, nothing might as well be expected. -/
theorem declaredPathFrom_expect {e : Expectation} {outline : List Token}
    (h : ∀ t ∈ outline.head?, e.claims t = false) (s : State) :
    declaredPathFrom { s with expectation := e } outline =
      declaredPathFrom { s with expectation := .any } outline := by
  cases outline with
  | nil => rfl
  | cons t rest =>
    rw [declaredPathFrom, declaredPathFrom, step_of_not_claims (h t rfl),
      step_of_not_claims (e := .any) rfl]

/-- Inside of an attribute the reader goes to the bracket that closes it. -/
theorem declaredPathFrom_insideAttribute (s : State) (depth : Nat) (outline : List Token) :
    declaredPathFrom { s with expectation := .insideAttribute depth } outline =
      declaredPathFrom { s with expectation := .any } (behindGroup depth outline) := by
  fun_induction behindGroup depth outline with
  | case1 => rfl
  | case2 depth rest ih => exact ih
  | case3 => rfl
  | case4 depth rest ih => exact ih
  | case5 depth t rest hopen hzero hsucc ih =>
    have hstep : State.step { s with expectation := .insideAttribute depth } t =
        .inr { s with expectation := .insideAttribute depth } :=
      State.step.eq_7 { s with expectation := .insideAttribute depth } t depth rfl hopen
        (fun ht hdepth => hzero hdepth ht) fun depth' ht hdepth => hsucc depth' hdepth ht
    rw [declaredPathFrom, hstep]
    exact ih

/-- The reader goes past an attribute as the count of brackets does. -/
theorem declaredPathFrom_attribute (s : State) (outline : List Token) :
    ∃ behind, skipAttribute? outline = some behind ∧
      declaredPathFrom { s with expectation := .attribute } outline =
        declaredPathFrom { s with expectation := .any } behind := by
  fun_cases skipAttribute? outline with
  | case1 rest =>
    exact ⟨_, skipGroup?_eq 0 rest, declaredPathFrom_insideAttribute s 0 rest⟩
  | case2 rest hopen =>
    -- Behind an exclamation mark only a bracket belongs to the attribute.
    have hclaims : ∀ t ∈ rest.head?, Expectation.attributeBracket.claims t = false := by
      intro t ht
      obtain ⟨behind, rfl⟩ := List.head?_eq_some_iff.1 ht
      refine beq_eq_false_iff_ne.2 ?_
      rintro rfl
      exact hopen behind rfl
    exact ⟨rest, rfl, declaredPathFrom_expect hclaims s⟩
  | case3 rest =>
    exact ⟨_, skipGroup?_eq 0 rest, declaredPathFrom_insideAttribute s 0 rest⟩
  | case4 outline hinner hmark hopen =>
    -- Behind the hash sign a bracket or an exclamation mark does.
    have hclaims : ∀ t ∈ outline.head?, Expectation.attribute.claims t = false := by
      intro t ht
      obtain ⟨behind, rfl⟩ := List.head?_eq_some_iff.1 ht
      refine Bool.or_eq_false_iff.2 ⟨beq_eq_false_iff_ne.2 ?_, beq_eq_false_iff_ne.2 ?_⟩
      · rintro rfl
        exact hmark behind rfl
      · rintro rfl
        exact hopen behind rfl
    exact ⟨outline, rfl, declaredPathFrom_expect hclaims s⟩

end Outline

/-- The name that an interpreter of the outline with a stack of open braces gives. -/
def interpretedName (again : Bool) (source : String) : Except Error String :=
  match Outline.interpret again [] (Outline.tokens source.toList) with
  | .inl path => .ok (String.ofList (Text.join pathSeparator path))
  | .inr _ =>
    .error (.nameResolution "no top-level struct, enum or union declaration found")

open Outline in
/-- **The count of open braces is exact.** Every source has the name that the interpreter with a
stack of frames gives; at the end of every outline, and so after every prefix of one, the reader's
state is what the stack says; and no bracket is closed too many behind a hash sign. -/
theorem braces_exact :
    (∀ source, resolveName source = interpretedName false source) ∧
      (∀ outline, Agree (State.initial.run outline) (interpret false [] outline)) ∧
      ∀ (s : State) (outline : List Token), ∃ behind, skipAttribute? outline = some behind ∧
        declaredPathFrom { s with expectation := .attribute } outline =
          declaredPathFrom { s with expectation := .any } behind := by
  have hagree : ∀ outline, Agree (State.initial.run outline) (interpret false [] outline) :=
    fun outline => agree_run ⟨rfl, rfl, List.Pairwise.nil, fun h => absurd h (by decide)⟩ outline
  refine ⟨fun source => ?_, hagree, declaredPathFrom_attribute⟩
  -- Agreement leaves no case in which only one of them comes to a name.
  have hsource := hagree (tokens source.toList)
  unfold resolveName interpretedName declaredPath
  rw [declaredPathFrom_eq_run]
  cases hrun : State.initial.run (tokens source.toList) with
  | inl path =>
    rw [hrun] at hsource
    cases hstack : interpret false [] (tokens source.toList) with
    | inl path' =>
      rw [hstack] at hsource
      obtain rfl : path = path' := hsource
      rfl
    | inr frames =>
      rw [hstack] at hsource
      exact hsource.elim
  | inr s =>
    rw [hrun] at hsource
    cases hstack : interpret false [] (tokens source.toList) with
    | inl path =>
      rw [hstack] at hsource
      exact hsource.elim
    | inr frames => rfl

/-- A keyword behind `mod` is the name of a module and declares nothing, which an interpreter that
reads it again does not know. -/
theorem interpretedName_again_ne :
    resolveName "mod struct A;" =
        .error (.nameResolution "no top-level struct, enum or union declaration found") ∧
      interpretedName true "mod struct A;" = .ok "A" := by
  have htokens : Outline.tokens "mod struct A;".toList =
      [.word "mod".toList, .word "struct".toList, .word ['A'], .mark ';'] := by decide +kernel
  unfold resolveName interpretedName
  rw [htokens]
  refine ⟨rfl, ?_⟩
  have hagain : Outline.interpret true [] [.word "mod".toList, .word "struct".toList, .word ['A'],
      .mark ';'] = .inl [['A']] := by
    rw [Outline.interpret_words _ _ (by simp), if_neg (by decide), if_pos (by decide), if_pos rfl,
      Outline.interpret_words _ _ (by simp), if_pos (by decide)]
    rfl
  rw [hagain]
  rfl

end UnitLoader
