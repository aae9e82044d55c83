import UnitLoader.Proofs.Files.Walk

/-!
# Names in a path

A path is cut at its slashes (`Text.splitOn_slash`). A name that a directory can hold is one of the
pieces, and none of the special names (`Files.IsEntryName`).
-/

namespace UnitLoader

/-! ## Cutting at slashes -/

namespace Text

/-- A text is cut one character after the other. -/
theorem splitOn_cons (c : Char) (rest : List Char) : splitOn ['/'] (c :: rest) =
    if c = '/' then [] :: splitOn ['/'] rest
    else match splitOn ['/'] rest with
      | [] => [[c]]
      | first :: others => (c :: first) :: others := by
  have hsep : ['/'].isPrefixOf (c :: rest) = true ↔ c = '/' := by
    rw [List.isPrefixOf_cons_cons, List.isPrefixOf_nil_left, Bool.and_true, beq_iff_eq, eq_comm]
  conv =>
    lhs
    unfold splitOn splitOnFrom
  split
  · rename_i hstarts
    rw [if_pos (hsep.1 hstarts)]
    rfl
  · rename_i hstarts
    rw [if_neg (mt hsep.2 hstarts)]
    rfl

/-- There is always a piece. -/
theorem splitOn_ne_nil (text : List Char) : splitOn ['/'] text ≠ [] := by
  cases text with
  | nil => exact List.cons_ne_nil [] []
  | cons c rest =>
    rw [splitOn_cons]
    split
    · exact List.cons_ne_nil _ _
    · split <;> exact List.cons_ne_nil _ _

/-- A slash is a place to cut. -/
theorem splitOn_slash (before behind : List Char) :
    splitOn ['/'] (before ++ '/' :: behind) = splitOn ['/'] before ++ splitOn ['/'] behind := by
  induction before with
  | nil => rw [List.nil_append, splitOn_cons, if_pos rfl]; rfl
  | cons c rest ih =>
    rw [List.cons_append, splitOn_cons, splitOn_cons, ih]
    split
    · rfl
    · cases hrest : splitOn ['/'] rest with
      | nil => exact absurd hrest (splitOn_ne_nil rest)
      | cons first others => rfl

/-- Where no slash is, nothing is cut. -/
theorem splitOn_of_not_mem {text : List Char} (h : '/' ∉ text) : splitOn ['/'] text = [text] := by
  induction text with
  | nil => rfl
  | cons c rest ih =>
    rw [List.mem_cons, not_or] at h
    rw [splitOn_cons, ih h.2, if_neg (Ne.symm h.1)]

end Text

namespace Files

variable {name : String}

/-! ## The names of a path -/

/-- A name that a directory can hold: it is neither empty nor a special name, and it holds neither a
slash nor a null character. -/
structure IsEntryName (name : String) : Prop where
  /-- It starts, and not with a dot. -/
  starts : ∃ c rest, c ≠ '.' ∧ name.toList = c :: rest
  /-- It is one name. -/
  noSlash : '/' ∉ name.toList
  /-- It can stand in a path. -/
  noNul : '\x00' ∉ name.toList

/-- A name may go on. -/
theorem IsEntryName.append {rest : String} (h : IsEntryName name) (hslash : '/' ∉ rest.toList)
    (hnul : '\x00' ∉ rest.toList) : IsEntryName (name ++ rest) := by
  obtain ⟨c, others, hc, hname⟩ := h.starts
  refine ⟨⟨c, others ++ rest.toList, hc, ?_⟩, ?_, ?_⟩
  · rw [String.toList_append, hname, List.cons_append]
  · rw [String.toList_append, List.mem_append, not_or]
    exact ⟨h.noSlash, hslash⟩
  · rw [String.toList_append, List.mem_append, not_or]
    exact ⟨h.noNul, hnul⟩

theorem IsEntryName.ne_nil (h : IsEntryName name) : name.toList ≠ [] := by
  obtain ⟨c, rest, -, hname⟩ := h.starts
  rw [hname]
  exact List.cons_ne_nil c rest

/-- It is not the name of a directory for itself. -/
theorem IsEntryName.ne_self (h : IsEntryName name) : name ≠ "." := by
  obtain ⟨c, rest, hc, hname⟩ := h.starts
  rintro rfl
  exact hc (List.cons.inj hname).1.symm

/-- It is not the name of the directory above. -/
theorem IsEntryName.ne_above (h : IsEntryName name) : name ≠ ".." := by
  obtain ⟨c, rest, hc, hname⟩ := h.starts
  rintro rfl
  exact hc (List.cons.inj hname).1.symm

/-- It does not end with a slash. -/
theorem IsEntryName.getLast? (h : IsEntryName name) : name.toList.getLast? ≠ some '/' :=
  fun hlast => h.noSlash (List.mem_of_getLast? hlast)

/-- A text that goes on with the name does not end with a slash. -/
theorem IsEntryName.getLast?_append (h : IsEntryName name) (text : List Char) :
    (text ++ name.toList).getLast? ≠ some '/' := by
  rw [List.getLast?_append]
  cases hlist : name.toList.getLast? with
  | none => exact absurd (List.getLast?_eq_none_iff.1 hlist) h.ne_nil
  | some c => exact fun same => h.getLast? (hlist.trans same)

end Files

end UnitLoader
