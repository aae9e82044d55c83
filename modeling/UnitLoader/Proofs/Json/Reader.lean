import UnitLoader.Json.Reader
import UnitLoader.Proofs.Json.Lexeme

/-!
# Readers read what was written

`Reads r found a` says that a reader takes lexemes off the front, whatever follows them, and gives a
value. The readers of single lexemes do so, and so do arrays and records of readers that do: an
array is read element by element (`reads_array`), and a record member by member, each one filling a
field that was not set (`Fills`, `reads_record`).

What holds of every value that a reader can give, and not only of one that was written, is `Gives`.
-/

namespace UnitLoader.Json.Reader

variable {α β σ : Type} {r : Reader α} {f : α → Reader β} {a : α} {b : β} {found more : List Lexeme}

/-! ## Readers one after the other -/

theorem bind_of_ok {found rest : List Lexeme} (h : r found = .ok (a, rest)) :
    (r >>= f) found = f a rest := by
  change (r found >>= fun p => f p.1 p.2) = _
  rw [h]
  rfl

/-- What a reader that goes on does is what it does at first, and then. -/
theorem bind_eq_ok {found rest : List Lexeme} (h : (r >>= f) found = .ok (b, rest)) :
    ∃ a between, r found = .ok (a, between) ∧ f a between = .ok (b, rest) := by
  change (r found >>= fun p => f p.1 p.2) = _ at h
  cases hfirst : r found with
  | error fault =>
    rw [hfirst] at h
    contradiction
  | ok p =>
    rw [hfirst] at h
    exact ⟨p.1, p.2, rfl, h⟩

/-- A reader takes lexemes off the front and gives a value. -/
def Reads (r : Reader α) (found : List Lexeme) (a : α) : Prop :=
  ∀ rest, r (found ++ rest) = .ok (a, rest)

theorem Reads.map (h : Reads r found a) (g : α → β) : Reads (g <$> r) found (g a) := by
  intro rest
  change (r (found ++ rest) >>= fun p => pure (g p.1, p.2)) = _
  rw [h rest]
  rfl

/-- What is read may be put into something else. -/
theorem Reads.return (h : Reads r found a) (g : α → β) :
    Reads (do return g (← r)) found (g a) := fun rest => bind_of_ok (h rest)

/-- The lexeme in front stays. -/
theorem peek_cons (l : Lexeme) (rest : List Lexeme) :
    peek (l :: rest) = .ok (some l, l :: rest) := rfl

/-! ## Single lexemes -/

theorem reads_text (value : List Char) : Reads text [textLexeme value] value := fun _ => rfl

theorem reads_natural {bound n : Nat} (hbound : bound < UInt64.size) (hn : n ≤ bound) :
    Reads (natural bound) (Value.natural n).lexemes n := by
  intro rest
  have hread : readNatural n = .ok (.natural n) := if_pos (Nat.lt_of_le_of_lt hn hbound)
  rw [Value.lexemes, hread]
  exact congrFun (if_pos hn) _

theorem reads_null_optional (r : Reader α) : Reads (optional r) [.null] none := fun _ => rfl

/-- What starts with a string is not nothing. -/
theorem Reads.optional {value : List Char} (h : Reads r (textLexeme value :: more) a) :
    Reads (optional r) (textLexeme value :: more) (some a) := h.map some

theorem reads_choice {names : List (String × α)} {name key : String}
    (h : names.find? (fun entry => entry.1.toList == name.toList) = some (key, a)) :
    Reads (choice names) [textLexeme name.toList] a := by
  intro rest
  rw [List.singleton_append]
  unfold choice
  rw [bind_of_ok (peek_cons (textLexeme name.toList) rest)]
  dsimp only [textLexeme]
  have hname : text (.text (.ok name.toList) (.ok ()) :: rest) = .ok (name.toList, rest) :=
    reads_text name.toList rest
  rw [bind_of_ok hname, h]
  rfl

/-! ## Arrays -/

/-- A value starts with a lexeme that is neither a comma nor the end of a container. -/
theorem lexemes_start (v : Value) :
    ∃ l more, v.lexemes = l :: more ∧ ∀ rest, hasElement true (l :: rest) = .ok (true, l :: rest) ∧
      hasElement false (.comma :: l :: rest) = .ok (true, l :: rest) := by
  cases v with
  | null => exact ⟨_, _, rfl, fun rest => ⟨rfl, rfl⟩⟩
  | natural n => exact ⟨_, _, rfl, fun rest => ⟨rfl, rfl⟩⟩
  | text value => exact ⟨_, _, rfl, fun rest => ⟨rfl, rfl⟩⟩
  | array elements => exact ⟨_, _, rfl, fun rest => ⟨rfl, rfl⟩⟩
  | object members => exact ⟨_, _, rfl, fun rest => ⟨rfl, rfl⟩⟩

/-- An array that goes on with a value has a further element. -/
theorem hasElement_lexemes (first : Bool) (v : Value) (rest : List Lexeme) :
    hasElement first (separator first ++ (v.lexemes ++ rest)) = .ok (true, v.lexemes ++ rest) := by
  obtain ⟨l, more, hlexemes, hstart⟩ := lexemes_start v
  rw [hlexemes, List.cons_append]
  cases first with
  | true => exact (hstart (more ++ rest)).1
  | false => exact (hstart (more ++ rest)).2

/-- The elements that follow in an array are read one by one, if each of them is. -/
theorem elements_of_reads {form : α → Value} {values : List α}
    (h : ∀ a ∈ values, Reads r (form a).lexemes a) {fuel : Nat} (hfuel : values.length < fuel)
    (first : Bool) (rest : List Lexeme) :
    elements r fuel first
        (Value.elementLexemes first (values.map form) ++ .closeArray :: rest) =
      .ok (values, .closeArray :: rest) := by
  induction values generalizing fuel first with
  | nil =>
    -- Behind the last element the array is closed.
    cases fuel with
    | zero => contradiction
    | succ fuel =>
      have hend : hasElement first (.closeArray :: rest) = .ok (false, .closeArray :: rest) := rfl
      rw [elements]
      exact bind_of_ok hend
  | cons a others ih =>
    cases fuel with
    | zero => contradiction
    | succ fuel =>
      -- Each element takes one turn, so there are turns enough for the others.
      have hrest := ih (fun b hb => h b (List.mem_cons_of_mem a hb)) (Nat.lt_of_succ_lt_succ hfuel)
        false
      have hhere := h a List.mem_cons_self
      have hlexemes : Value.elementLexemes first ((a :: others).map form) ++ .closeArray :: rest =
          separator first ++ ((form a).lexemes ++
            (Value.elementLexemes false (others.map form) ++ .closeArray :: rest)) := by
        rw [List.map_cons, Value.elementLexemes, List.append_assoc, List.append_assoc]
      rw [hlexemes, elements, bind_of_ok (hasElement_lexemes first (form a) _), if_pos rfl,
        bind_of_ok (hhere _)]
      change (elements r fuel false _ >>= fun p => pure (a :: p.1, p.2)) = _
      rw [hrest]
      rfl

/-- There are at least as many lexemes as values. -/
theorem length_le_elementLexemes (first : Bool) (values : List Value) :
    values.length ≤ (Value.elementLexemes first values).length := by
  induction values generalizing first with
  | nil => exact Nat.zero_le _
  | cons value others ih =>
    obtain ⟨l, more, hlexemes, -⟩ := lexemes_start value
    have hothers := ih false
    rw [Value.elementLexemes, hlexemes, List.length_append, List.length_append, List.length_cons,
      List.length_cons]
    omega

/-- An array is read if each of its elements is. -/
theorem reads_array {form : α → Value} {values : List α}
    (h : ∀ a ∈ values, Reads r (form a).lexemes a) :
    Reads (array r) (Value.array (values.map form)).lexemes values := by
  intro rest
  have hlexemes : (Value.array (values.map form)).lexemes ++ rest =
      .openArray :: (Value.elementLexemes true (values.map form) ++ .closeArray :: rest) := by
    rw [Value.lexemes, List.cons_append, List.append_assoc]
    rfl
  rw [hlexemes]
  generalize hinner : Value.elementLexemes true (values.map form) ++ .closeArray :: rest = inner
  -- The bound on the number of elements is no bound for these.
  have hfuel : values.length < inner.length + 1 := by
    have hlength := length_le_elementLexemes true (values.map form)
    rw [List.length_map] at hlength
    rw [← hinner, List.length_append]
    omega
  have helements := elements_of_reads h hfuel true rest
  rw [hinner] at helements
  have hadvance : advance (.openArray :: inner) = .ok ((), inner) := rfl
  have hremaining : remaining inner = .ok (inner.length, inner) := rfl
  have hclose : closeArray (.closeArray :: rest) = .ok ((), rest) := rfl
  unfold array
  rw [bind_of_ok (peek_cons _ _)]
  dsimp only
  rw [bind_of_ok hadvance, bind_of_ok hremaining, bind_of_ok helements, bind_of_ok hclose]
  rfl

/-! ## Records -/

/-- The fields of a record, as they are held, are filled by members one after the other. -/
inductive Fills (fields : List (String × (σ → Bool) × (σ → Reader σ))) :
    List (String × Value) → σ → σ → Prop where
  /-- Nothing follows. -/
  | nil (held : σ) : Fills fields [] held held
  /-- A member fills a field that is not set. -/
  | cons {name key : String} {isSet : σ → Bool} {read : σ → Reader σ} {value : Value}
      {others : List (String × Value)} {held next last : σ}
      (hfield : fields.find? (fun field => field.1.toList == name.toList) =
        some (key, isSet, read))
      (hopen : isSet held = false) (hread : Reads (read held) value.lexemes next)
      (hothers : Fills fields others next last) : Fills fields ((name, value) :: others) held last

/-- The members that follow in an object are read one by one, if they fill fields. -/
theorem members_of_fills {form : Record σ} {parts : List (String × Value)} {held last : σ}
    (h : Fills form.fields parts held last) {fuel : Nat} (hfuel : parts.length < fuel)
    (first : Bool) (rest : List Lexeme) :
    members form fuel first held
        (Value.memberLexemes first parts ++ .closeObject :: rest) = .ok (last, rest) := by
  induction h generalizing fuel first with
  | nil held =>
    -- Behind the last member the object is closed.
    cases fuel with
    | zero => contradiction
    | succ fuel =>
      have hend : memberName first (.closeObject :: rest) = .ok (none, .closeObject :: rest) := by
        cases first <;> rfl
      have hadvance : advance (.closeObject :: rest) = .ok ((), rest) := rfl
      rw [members]
      refine (bind_of_ok hend).trans ?_
      dsimp only
      rw [bind_of_ok hadvance]
      rfl
  | @cons name key isSet read value others held next last hfield hopen hread hothers ih =>
    cases fuel with
    | zero => contradiction
    | succ fuel =>
      -- Here too each member takes one turn.
      have hrest := ih (Nat.lt_of_succ_lt_succ hfuel) false
      have hlexemes : Value.memberLexemes first ((name, value) :: others) ++ .closeObject :: rest =
          separator first ++ (textLexeme name.toList :: .colon :: (value.lexemes ++
            (Value.memberLexemes false others ++ .closeObject :: rest))) := by
        rw [Value.memberLexemes, List.append_assoc]
        congr 1
        simp only [List.cons_append, List.append_assoc]
      generalize Value.memberLexemes false others ++ .closeObject :: rest = behind at *
      have hname : memberName first
          (separator first ++ (textLexeme name.toList :: .colon :: (value.lexemes ++ behind))) =
            .ok (some name.toList, .colon :: (value.lexemes ++ behind)) := by
        cases first <;> rfl
      have hcolon : colon (.colon :: (value.lexemes ++ behind)) =
          .ok ((), value.lexemes ++ behind) := rfl
      rw [hlexemes, members, bind_of_ok hname]
      dsimp only
      rw [hfield]
      dsimp only
      rw [hopen, if_neg Bool.false_ne_true, bind_of_ok hcolon, bind_of_ok (hread behind), hrest]

/-- There are at least as many lexemes as members. -/
theorem length_le_memberLexemes (first : Bool) (parts : List (String × Value)) :
    parts.length ≤ (Value.memberLexemes first parts).length := by
  induction parts generalizing first with
  | nil => exact Nat.zero_le _
  | cons part others ih =>
    have hothers := ih false
    obtain ⟨name, value⟩ := part
    rw [Value.memberLexemes, List.length_append, List.length_append, List.length_cons,
      List.length_cons]
    omega

/-- A record is read from an object if the members fill its fields. -/
theorem reads_record {form : Record σ} {parts : List (String × Value)} {held : σ}
    (h : Fills form.fields parts form.start held) :
    Reads (record form) (Value.object parts).lexemes held := by
  intro rest
  have hlexemes : (Value.object parts).lexemes ++ rest =
      .openObject :: (Value.memberLexemes true parts ++ .closeObject :: rest) := by
    rw [Value.lexemes, List.cons_append, List.append_assoc]
    rfl
  rw [hlexemes]
  generalize hinner : Value.memberLexemes true parts ++ .closeObject :: rest = inner
  -- The reader has as many turns as there are lexemes, and a member has some.
  have hfuel : parts.length < inner.length + 1 := by
    have hlength := length_le_memberLexemes true parts
    rw [← hinner, List.length_append]
    omega
  have hmembers := members_of_fills h hfuel true rest
  rw [hinner] at hmembers
  have hadvance : advance (.openObject :: inner) = .ok ((), inner) := rfl
  have hremaining : remaining inner = .ok (inner.length, inner) := rfl
  unfold record
  rw [bind_of_ok (peek_cons _ _)]
  dsimp only
  rw [bind_of_ok hadvance, bind_of_ok hremaining, hmembers]

/-! ## What readers give -/

/-- Every value that a reader gives satisfies a condition. -/
def Gives (r : Reader α) (P : α → Prop) : Prop :=
  ∀ found a rest, r found = .ok (a, rest) → P a

variable {P : α → Prop} {Q : β → Prop}

theorem gives_pure (h : P a) : Gives (pure a) P := by
  rintro found a' rest hread
  obtain ⟨rfl, -⟩ := Prod.mk.inj (Except.ok.inj hread)
  exact h

theorem gives_fail (fault : Fault) : Gives (fail fault) P := fun _ _ _ hread => by
  contradiction

theorem Gives.bind (h : Gives r P) (hf : ∀ a, P a → Gives (f a) Q) : Gives (r >>= f) Q := by
  intro found b rest hread
  obtain ⟨a, between, hfirst, hthen⟩ := bind_eq_ok hread
  exact hf a (h found a between hfirst) between b rest hthen

/-- A reader gives something. -/
theorem gives_true (r : Reader α) : Gives r fun _ => True := fun _ _ _ _ => trivial

/-- A natural number that is read is within the bound. -/
theorem gives_natural (bound : Nat) : Gives (natural bound) (· ≤ bound) := by
  refine (gives_true peek).bind fun found _ => ?_
  split
  · exact gives_fail _
  · split
    · rename_i n _ hn
      exact (gives_true advance).bind fun _ _ => gives_pure hn
    · exact gives_fail _
  · exact gives_fail _

/-- What has to be there is what is there. -/
theorem gives_required (o : Option α) : Gives (required o) (o = some ·) := by
  cases o with
  | none => exact gives_fail _
  | some a => exact gives_pure rfl

/-- Bytes that hold a value hold one that the reader gives. -/
theorem Gives.of_run (h : Gives r P) {bytes : List UInt8} (hrun : run r bytes = .ok a) : P a := by
  unfold run at hrun
  split at hrun
  · contradiction
  · rename_i value hread
    obtain rfl := Except.ok.inj hrun
    exact h _ _ _ hread
  · contradiction

/-- What every field of a record keeps holds of what the record gives. -/
theorem gives_members {form : Record σ} {P : σ → Prop}
    (h : ∀ field ∈ form.fields, ∀ held, P held → Gives (field.2.2 held) P) (fuel : Nat)
    (first : Bool) {held : σ} (hheld : P held) : Gives (members form fuel first held) P := by
  induction fuel generalizing first held with
  | zero => exact gives_fail _
  | succ fuel ih =>
    rw [members]
    refine (gives_true _).bind fun name _ => ?_
    split
    · exact (gives_true _).bind fun _ _ => gives_pure hheld
    split
    · exact (gives_true _).bind fun _ _ => (gives_true _).bind fun _ _ => ih false hheld
    · rename_i key isSet read hfield
      have hread : Gives (read held) P := h _ (List.mem_of_find?_eq_some hfield) held hheld
      have hrest : Gives (do colon; let held ← read held; members form fuel false held) P :=
        (gives_true _).bind fun _ _ => hread.bind fun next hnext => ih false hnext
      split
      · exact (gives_true _).bind fun _ _ => hrest
      · exact hrest

/-- The same holds of fields that are read in their order. -/
theorem gives_positional {P : σ → Prop} {fields : List (String × (σ → Bool) × (σ → Reader σ))}
    (h : ∀ field ∈ fields, ∀ held, P held → Gives (field.2.2 held) P) (first : Bool) {held : σ}
    (hheld : P held) : Gives (positional fields first held) P := by
  induction fields generalizing first held with
  | nil => exact gives_pure hheld
  | cons field others ih =>
    have hothers {next : σ} (hnext : P next) : Gives (positional others false next) P :=
      ih (fun other hother => h other (List.mem_cons_of_mem field hother)) false hnext
    rw [positional]
    refine (gives_true _).bind fun further _ => ?_
    split
    · exact (h field List.mem_cons_self held hheld).bind fun next hnext => hothers hnext
    · exact gives_fail _

/-- So it holds of what the record gives, in either of its forms. -/
theorem gives_record {form : Record σ} {P : σ → Prop}
    (h : ∀ field ∈ form.fields, ∀ held, P held → Gives (field.2.2 held) P) (hstart : P form.start) :
    Gives (record form) P := by
  refine (gives_true _).bind fun found _ => ?_
  split
  · exact gives_fail _
  · refine (gives_true _).bind fun _ _ => (gives_positional h true hstart).bind fun held hheld => ?_
    exact (gives_true _).bind fun _ _ => gives_pure hheld
  · exact (gives_true _).bind fun _ _ => (gives_true _).bind fun count _ =>
      gives_members h (count + 1) true hstart
  · exact gives_fail _

end UnitLoader.Json.Reader
