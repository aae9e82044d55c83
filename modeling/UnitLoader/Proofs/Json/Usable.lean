import UnitLoader.Proofs.Json.Reader

/-!
# Readers take usable lexemes only

A lexeme that starts none, or that can be neither read nor passed over, is of no use to any reader.
`Passes r` says that a reader which succeeds has taken usable lexemes off the front and nothing
else. Every reader starts by looking at the lexeme in front, so there is one rule for what may
follow such a look (`passes_peek`), and the readers of arrays and records pass if those of their
elements and fields do. Hence bytes that hold a value are cut into usable lexemes (`usable_of_run`).
-/

namespace UnitLoader.Json

/-- Something can be made of the lexeme: it can be read or passed over. -/
def Lexeme.IsUsable : Lexeme → Prop
  | .invalid _ => False
  | .text read skip => (∃ value, read = .ok value) ∨ skip = .ok ()
  | .number read skip => (∃ value, read = .ok value) ∨ skip = .ok ()
  | _ => True

/-- Something can be made of every lexeme. -/
def Usable (found : List Lexeme) : Prop := ∀ l ∈ found, l.IsUsable

namespace Reader

variable {α β σ : Type} {r : Reader α} {f : α → Reader β} {found rest : List Lexeme}
  {l : Lexeme} {o : Option Lexeme}

/-- Usable lexemes were taken off the front, and the rest is left. -/
def Passed (found rest : List Lexeme) : Prop := ∃ taken, found = taken ++ rest ∧ Usable taken

theorem passed_refl (found : List Lexeme) : Passed found found :=
  ⟨[], rfl, fun _ h => absurd h List.not_mem_nil⟩

theorem Passed.cons (hl : l.IsUsable) (h : Passed found rest) : Passed (l :: found) rest := by
  obtain ⟨taken, rfl, htaken⟩ := h
  exact ⟨l :: taken, rfl, List.forall_mem_cons.2 ⟨hl, htaken⟩⟩

theorem Passed.trans {between : List Lexeme} (h : Passed found between)
    (h' : Passed between rest) : Passed found rest := by
  obtain ⟨taken, rfl, htaken⟩ := h
  obtain ⟨taken', rfl, htaken'⟩ := h'
  refine ⟨taken ++ taken', (List.append_assoc ..).symm, fun l hl => ?_⟩
  exact (List.mem_append.1 hl).elim (htaken l) (htaken' l)

/-- The reader takes usable lexemes only. -/
def Passes (r : Reader α) : Prop :=
  ∀ found a rest, r found = .ok (a, rest) → Passed found rest

/-- It does so if this is the lexeme in front. -/
def PassesFrom (o : Option Lexeme) (r : Reader α) : Prop :=
  ∀ found a rest, found.head? = o → r found = .ok (a, rest) → Passed found rest

/-! ## The rules -/

theorem Passes.passed (h : Passes r) {a : α} (hread : r found = .ok (a, rest)) :
    Passed found rest :=
  h found a rest hread

theorem Passes.passesFrom (h : Passes r) (o : Option Lexeme) : PassesFrom o r :=
  fun found a rest _ => h found a rest

theorem passes_pure (a : α) : Passes (pure a : Reader α) := by
  intro found a' rest h
  obtain ⟨-, rfl⟩ := Prod.mk.inj (Except.ok.inj h)
  exact passed_refl found

theorem passes_fail (fault : Fault) : Passes (fail fault : Reader α) := fun _ _ _ h => by
  contradiction

theorem Passes.bind (h : Passes r) (hf : ∀ a, Passes (f a)) : Passes (r >>= f) := by
  intro found b rest hread
  obtain ⟨a, between, hfirst, hthen⟩ := bind_eq_ok hread
  exact (h found a between hfirst).trans (hf a between b rest hthen)

theorem Passes.map (h : Passes r) (g : α → β) : Passes (g <$> r) := by
  rw [← bind_pure_comp]
  exact h.bind fun a => passes_pure (g a)

theorem passesFrom_pure {a : α} : PassesFrom o (pure a) := (passes_pure a).passesFrom o

theorem passesFrom_fail {fault : Fault} : PassesFrom o (fail fault : Reader α) :=
  (passes_fail fault).passesFrom o

/-- A reader may look at the lexeme in front before it goes on. -/
theorem passes_peek {k : Option Lexeme → Reader β} (h : ∀ o, PassesFrom o (k o)) :
    Passes (peek >>= k) := fun found b rest hread => h found.head? found b rest rfl hread

/-- Behind a usable lexeme it goes on with those behind. -/
theorem passesFrom_advance (hl : l.IsUsable) {k : Unit → Reader β} (h : Passes (k ())) :
    PassesFrom (some l) (advance >>= k) := by
  intro found b rest hfront hread
  cases found with
  | nil => contradiction
  | cons first behind =>
    obtain rfl := Option.some.inj hfront
    exact (h behind b rest hread).cons hl

theorem passesFrom_advance_last (hl : l.IsUsable) : PassesFrom (some l) advance :=
  passesFrom_advance hl (k := fun _ => pure ()) (passes_pure ())

/-! ## Single lexemes -/

theorem passes_text : Passes text := by
  refine passes_peek fun o => ?_
  split
  · exact passesFrom_fail
  · exact passesFrom_advance (by exact .inl ⟨_, rfl⟩) (passes_pure _)
  · exact passesFrom_fail

theorem passes_natural (bound : Nat) : Passes (natural bound) := by
  refine passes_peek fun o => ?_
  split
  · exact passesFrom_fail
  · split
    · exact passesFrom_advance (by exact .inl ⟨_, rfl⟩) (passes_pure _)
    · exact passesFrom_fail
  · exact passesFrom_fail

theorem passes_boolean : Passes boolean := by
  refine passes_peek fun o => ?_
  split
  · exact passesFrom_fail
  · exact passesFrom_advance (by trivial) (passes_pure _)
  · exact passesFrom_fail

theorem passes_optional (h : Passes r) : Passes (optional r) := by
  refine passes_peek fun o => ?_
  split
  · exact passesFrom_fail
  · exact passesFrom_advance (by trivial) (passes_pure _)
  · exact passesFrom_fail
  · exact (h.map some).passesFrom _

theorem passes_colon : Passes colon := by
  refine passes_peek fun o => ?_
  split
  · exact passesFrom_fail
  · exact passesFrom_advance_last trivial
  · exact passesFrom_fail

theorem passes_closeArray : Passes closeArray := by
  refine passes_peek fun o => ?_
  split
  · exact passesFrom_fail
  · exact passesFrom_advance_last trivial
  · exact passesFrom_fail

theorem passes_required (o : Option α) : Passes (required o) := by
  cases o with
  | none => exact passes_fail _
  | some a => exact passes_pure a

theorem passes_remaining : Passes remaining := by
  intro found count rest h
  obtain ⟨-, rfl⟩ := Prod.mk.inj (Except.ok.inj h)
  exact passed_refl found

/-! ## Passing over a value -/

/-- What is passed over is usable. -/
theorem passed_of_skipFrom {expected : Skipping} {containers : List Bool}
    (h : skipFrom expected containers found = .ok rest) : Passed found rest := by
  -- Behind the last lexeme of a part, the value is complete or a separator follows.
  have hfinished {finished : List Bool → Except Fault (List Lexeme)} {behind : List Lexeme}
      {containers : List Bool} (hcomplete : finished [] = .ok behind)
      (hgoesOn : ∀ isObject outer, finished (isObject :: outer) =
        skipFrom .separator (isObject :: outer) behind)
      (ih : ∀ containers, skipFrom .separator containers behind = .ok rest → Passed behind rest)
      (h : finished containers = .ok rest) : Passed behind rest := by
    cases containers with
    | nil =>
      obtain rfl := Except.ok.inj (hcomplete.symm.trans h)
      exact passed_refl behind
    | cons isObject outer => exact ih _ ((hgoesOn isObject outer).symm.trans h)
  fun_induction skipFrom expected containers found
  all_goals try contradiction
  case case2 ih | case9 ih | case10 ih | case17 ih | case18 ih => exact (ih h).cons trivial
  case case4 ih | case7 ih => exact (ih h).cons (.inr rfl)
  case case11 ih | case12 ih | case14 ih | case15 ih | case19 ih | case20 ih =>
    exact (hfinished rfl (fun _ _ => rfl) ih h).cons trivial
  case case21 ih | case23 ih =>
    exact (hfinished rfl (fun _ _ => rfl) ih h).cons (.inr rfl)

theorem passes_skip : Passes skip := by
  intro found a rest h
  unfold skip at h
  cases hskip : skipFrom .value [] found with
  | error fault =>
    rw [hskip] at h
    contradiction
  | ok behind =>
    rw [hskip] at h
    obtain ⟨-, rfl⟩ := Prod.mk.inj (Except.ok.inj h)
    exact passed_of_skipFrom hskip

/-! ## Arrays -/

theorem passes_hasElement (first : Bool) : Passes (hasElement first) := by
  refine passes_peek fun o => ?_
  split
  · exact passesFrom_fail
  · exact passesFrom_pure
  split
  · exact passesFrom_pure
  split
  · -- Behind a comma there is another look.
    refine passesFrom_advance (by trivial) (passes_peek fun o => ?_)
    split
    · exact passesFrom_fail
    · exact passesFrom_fail
    · exact passesFrom_pure
  · exact passesFrom_fail

theorem passes_elements (h : Passes r) (fuel : Nat) (first : Bool) :
    Passes (elements r fuel first) := by
  induction fuel generalizing first with
  | zero => exact passes_fail _
  | succ fuel ih =>
    rw [elements]
    refine (passes_hasElement first).bind fun further => ?_
    split
    · exact h.bind fun value => (ih false).map _
    · exact passes_pure _

theorem passes_array (h : Passes r) : Passes (array r) := by
  refine passes_peek fun o => ?_
  split
  · exact passesFrom_fail
  · refine passesFrom_advance (by trivial) (passes_remaining.bind fun count => ?_)
    refine (passes_elements h (count + 1) true).bind fun values => ?_
    exact passes_closeArray.bind fun _ => passes_pure _
  · exact passesFrom_fail

/-! ## Records -/

/-- A name is a string that can be read. -/
theorem passes_nextName : Passes nextName := by
  refine passes_peek fun o => ?_
  split
  · exact passesFrom_fail
  · exact passesFrom_advance (by exact .inl ⟨_, rfl⟩) (passes_pure _)
  · exact passesFrom_fail
  · exact passesFrom_fail

/-- Who goes on to a name gives one. -/
theorem isSome_of_nextName {name : Option (List Char)} (h : nextName found = .ok (name, rest)) :
    name.isSome = true := by
  unfold nextName at h
  obtain ⟨o, between, -, hread⟩ := bind_eq_ok h
  split at hread
  case h_2 =>
    obtain ⟨-, behind, -, hread⟩ := bind_eq_ok hread
    obtain ⟨rfl, -⟩ := Prod.mk.inj (Except.ok.inj hread)
    rfl
  all_goals contradiction

theorem passes_memberName (first : Bool) : Passes (memberName first) := by
  refine passes_peek fun o => ?_
  split
  · exact passesFrom_fail
  · exact passesFrom_pure
  · split
    · exact passesFrom_fail
    · exact passesFrom_advance (by trivial) passes_nextName
  · split
    · exact passes_nextName.passesFrom _
    · exact passesFrom_fail

/-- Where there is no further name, the end of the object is in front. -/
theorem head?_of_memberName {first : Bool} (h : memberName first found = .ok (none, rest)) :
    rest.head? = some .closeObject := by
  unfold memberName at h
  obtain ⟨o, between, hpeek, hread⟩ := bind_eq_ok h
  obtain ⟨hhead, rfl⟩ := Prod.mk.inj (Except.ok.inj hpeek)
  split at hread
  · contradiction
  · obtain ⟨-, rfl⟩ := Prod.mk.inj (Except.ok.inj hread)
    exact hhead
  · split at hread
    · contradiction
    · obtain ⟨-, behind, -, hread⟩ := bind_eq_ok hread
      exact absurd (isSome_of_nextName hread) Bool.false_ne_true
  · split at hread
    · exact absurd (isSome_of_nextName hread) Bool.false_ne_true
    · contradiction

theorem passes_members {form : Record σ}
    (h : ∀ field ∈ form.fields, ∀ held, Passes (field.2.2 held)) (fuel : Nat) (first : Bool)
    (held : σ) : Passes (members form fuel first held) := by
  induction fuel generalizing first held with
  | zero => exact passes_fail _
  | succ fuel ih =>
    intro found last rest hread
    rw [members] at hread
    obtain ⟨name, between, hname, hread⟩ := bind_eq_ok hread
    -- A comma and a name are passed first, and then what the member is.
    refine (passes_memberName first _ _ _ hname).trans ?_
    cases name with
    | none =>
      -- The object is closed.
      have hclose : PassesFrom (some .closeObject) (do advance; pure held) :=
        passesFrom_advance (by trivial) (passes_pure held)
      exact hclose between last rest (head?_of_memberName hname) hread
    | some name =>
      dsimp only at hread
      refine Passes.passed ?_ hread
      split
      · -- An unknown member is skipped.
        exact passes_colon.bind fun _ => passes_skip.bind fun _ => ih false held
      · -- A known one is read, unless it was read before.
        rename_i key isSet read hfield
        have hrest : Passes (do colon; let held ← read held; members form fuel false held) :=
          passes_colon.bind fun _ =>
            (h _ (List.mem_of_find?_eq_some hfield) held).bind fun next => ih false next
        split
        · exact (passes_fail _).bind fun _ => hrest
        · exact hrest

theorem passes_positional {fields : List (String × (σ → Bool) × (σ → Reader σ))}
    (h : ∀ field ∈ fields, ∀ held, Passes (field.2.2 held)) (first : Bool) (held : σ) :
    Passes (positional fields first held) := by
  induction fields generalizing first held with
  | nil => exact passes_pure held
  | cons field others ih =>
    rw [positional]
    refine (passes_hasElement first).bind fun further => ?_
    split
    · refine (h field List.mem_cons_self held).bind fun next => ?_
      exact ih (fun other hother => h other (List.mem_cons_of_mem field hother)) false next
    · exact passes_fail _

theorem passes_record {form : Record σ}
    (h : ∀ field ∈ form.fields, ∀ held, Passes (field.2.2 held)) : Passes (record form) := by
  refine passes_peek fun o => ?_
  split
  · exact passesFrom_fail
  · refine passesFrom_advance (by trivial) ?_
    exact (passes_positional h true form.start).bind fun held =>
      passes_closeArray.bind fun _ => passes_pure held
  · refine passesFrom_advance (by trivial) (passes_remaining.bind fun count => ?_)
    exact passes_members h (count + 1) true form.start
  · exact passesFrom_fail

/-! ## Whole texts -/

/-- Bytes that hold a value are cut into usable lexemes. -/
theorem usable_of_run (h : Passes r) {bytes : List UInt8} {a : α} (hrun : run r bytes = .ok a) :
    Usable (lexemes bytes) := by
  unfold run at hrun
  split at hrun
  · contradiction
  · rename_i value hread
    obtain ⟨taken, htaken, husable⟩ := h _ _ _ hread
    rwa [htaken, List.append_nil]
  · contradiction

end Reader

end UnitLoader.Json
