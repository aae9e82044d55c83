import UnitLoader.Proofs.Files.MakeWay

/-!
# Entries of a directory

The path of a name in a directory has the names of the directory and that name (`pathNames_join`),
however the path of the directory is written: it may be empty, be the root or end with slashes. So
it leads to where the entry of that name stands in the directory, and to no other place
(`resolve_join`). What is found under it stands there (`find_join`), and writing under it puts a
file there and changes nothing else (`write_join`).
-/

namespace UnitLoader.Files

variable {f : Files} {p : Place} {path name : String}

/-! ## The names of a path in a directory -/

/-- A slash is between two names. -/
theorem pieces_slash (before behind : List Char) :
    pieces (before ++ '/' :: behind) = pieces before ++ pieces behind := by
  rw [pieces, Text.splitOn_slash, List.filter_append, List.map_append]
  rfl

theorem IsEntryName.pieces_eq (h : IsEntryName name) : pieces name.toList = [name] := by
  rw [pieces, Text.splitOn_of_not_mem h.noSlash, List.filter_cons_of_pos (by simpa using h.ne_nil)]
  exact congrArg (· :: []) String.ofList_toList

/-- A path in a directory does not end with a slash. -/
theorem getLast?_join (directory : String) (hname : IsEntryName name) :
    (join directory name).toList.getLast? ≠ some '/' := by
  unfold join
  split
  · exact hname.getLast?
  · rw [String.toList_append]
    exact hname.getLast?_append _
  · rw [String.toList_append]
    exact hname.getLast?_append _

/-- The path of a name in a directory has the names of the directory and one more. -/
theorem pathNames_join (directory : String) (hname : IsEntryName name) :
    pathNames (join directory name).toList = pieces directory.toList ++ [name] := by
  have hends : pathNames (join directory name).toList = pieces (join directory name).toList :=
    if_neg (getLast?_join directory hname)
  rw [hends]
  unfold join
  split
  · rename_i hnone
    rw [List.getLast?_eq_none_iff.1 hnone, hname.pieces_eq]
    rfl
  · rename_i hslash
    obtain ⟨text, htext⟩ := List.getLast?_eq_some_iff.1 hslash
    rw [String.toList_append, htext, ← List.append_cons, pieces_slash, pieces_concat_slash,
      hname.pieces_eq]
  · have hslash : "/".toList = ['/'] := rfl
    rw [String.toList_append, String.toList_append, hslash, ← List.append_cons, pieces_slash,
      hname.pieces_eq]

/-- The path of a name in a directory goes from the top that the path of the directory goes from. -/
theorem top_join (directory : String) (hname : IsEntryName name) :
    top (join directory name) = top directory := by
  have hhead : (join directory name).toList.head? = some '/' ↔
      directory.toList.head? = some '/' := by
    unfold join
    split
    · rename_i hnone
      rw [List.getLast?_eq_none_iff.1 hnone]
      refine iff_of_false (fun hhead => ?_) (by simp)
      exact hname.noSlash (List.mem_of_head? hhead)
    all_goals
      rename_i hsome
      obtain ⟨text, htext⟩ := List.getLast?_eq_some_iff.1 hsome
      cases text <;> simp [htext]
  simp only [top, hhead]

/-! ## Where such a path leads -/

/-- A path that leads somewhere is not empty. -/
theorem toList_ne_nil_of_resolve (h : f.resolve path = .ok p) : path.toList ≠ [] := by
  intro hnil
  unfold resolve at h
  rw [hnil] at h
  contradiction

/-- A path that leads somewhere can be asked for. -/
theorem noNul_of_resolve (h : f.resolve path = .ok p) : '\x00' ∉ path.toList := by
  intro hnul
  unfold resolve at h
  split at h
  · contradiction
  · rename_i c cs hpath
    rw [if_pos (hpath ▸ hnul)] at h
    contradiction

/-- Such a path is followed name by name. -/
theorem resolve_eq_walk (hpath : path.toList ≠ []) (hnul : '\x00' ∉ path.toList) :
    f.resolve path = f.walk (top path) (pathNames path.toList) := by
  unfold resolve
  split
  · rename_i hnil
    exact absurd hnil hpath
  · rename_i c cs hcons
    rw [hcons] at hnul ⊢
    rw [if_neg hnul, top_of_cons hcons]

/-- The slashes at the end of a path do not change where it leads. -/
theorem walk_pieces (h : f.resolve path = .ok p) :
    f.walk (top path) (pieces path.toList) = .ok p := by
  rw [resolve_eq_walk (toList_ne_nil_of_resolve h) (noNul_of_resolve h), pathNames] at h
  rw [← pieces] at h
  split at h
  · -- A name of the directory for itself follows the others.
    rw [walk_append] at h
    cases hwalk : f.walk (top path) (pieces path.toList) with
    | error fault =>
      rw [hwalk] at h
      contradiction
    | ok q =>
      rw [hwalk] at h
      rw [walk_self h]
  · exact h

/-- The path of a name in a directory holds their characters and slashes. -/
theorem mem_join {c : Char} {directory : String} (h : c ∈ (join directory name).toList) :
    c ∈ directory.toList ∨ c = '/' ∨ c ∈ name.toList := by
  have hslash : "/".toList = ['/'] := rfl
  unfold join at h
  split at h
  · exact .inr (.inr h)
  · rw [String.toList_append, List.mem_append] at h
    exact h.imp_right .inr
  · rw [String.toList_append, String.toList_append, hslash, List.mem_append, List.mem_append,
      List.mem_singleton, or_assoc] at h
    exact h

/-- The path of a name in a directory holds all that the path of the directory holds. -/
theorem mem_join_of_mem {c : Char} {directory : String} (h : c ∈ directory.toList) :
    c ∈ (join directory name).toList := by
  unfold join
  split
  · rename_i hnone
    rw [List.getLast?_eq_none_iff.1 hnone] at h
    contradiction
  · rw [String.toList_append]
    exact List.mem_append_left _ h
  · rw [String.toList_append, String.toList_append]
    exact List.mem_append_left _ (List.mem_append_left _ h)

/-- A name leads from a directory to where its entry stands, unless the name is too long. -/
theorem follow_entryName (hdir : f.node? p = some .directory) (hname : IsEntryName name) :
    f.follow p name =
      if Text.byteLength name.toList ≤ longestName then .ok (p ++ [name])
      else .error .nameTooLong := by
  by_cases hlong : Text.byteLength name.toList ≤ longestName
  · rw [follow_name hdir hname.ne_self hname.ne_above hlong, if_pos hlong]
  · rw [follow, hdir]
    dsimp only
    rw [if_neg hname.ne_self, if_neg hname.ne_above, if_pos (Nat.lt_of_not_le hlong), if_neg hlong]

/-- Such a path is followed through the names of the directory, and then by this name. -/
theorem resolve_join_eq (hnul : '\x00' ∉ path.toList) (hname : IsEntryName name) :
    f.resolve (join path name) =
      (f.walk (top path) (pieces path.toList)).bind fun p => f.follow p name := by
  -- The name is part of the path, so there is one; and neither part has a NUL in it.
  have hnonempty : (join path name).toList ≠ [] := by
    intro hnil
    have hnames := pathNames_join path hname
    rw [hnil] at hnames
    exact List.append_ne_nil_of_right_ne_nil _ (List.cons_ne_nil name []) hnames.symm
  have hclean : '\x00' ∉ (join path name).toList := by
    intro hmem
    obtain hmem | hslash | hmem := mem_join hmem
    · exact hnul hmem
    · contradiction
    · exact hname.noNul hmem
  rw [resolve_eq_walk hnonempty hclean, top_join path hname, pathNames_join path hname,
    walk_append]
  cases f.walk (top path) (pieces path.toList) with
  | error fault => rfl
  | ok p =>
    change f.walk p [name] = f.follow p name
    rw [walk]
    cases f.follow p name <;> rfl

/-- The path of a name in a directory leads to the entry of this name. -/
theorem resolve_join (h : f.resolve path = .ok p) (hdir : f.node? p = some .directory)
    (hname : IsEntryName name) :
    f.resolve (join path name) =
      if Text.byteLength name.toList ≤ longestName then .ok (p ++ [name])
      else .error .nameTooLong := by
  rw [resolve_join_eq (noNul_of_resolve h) hname, walk_pieces h, ← follow_entryName hdir hname]
  rfl

/-- The directory in which an entry has a path. An empty path is that of the working directory. -/
theorem directory_of_join {q : Place} (h : f.resolve (join path name) = .ok q)
    (hname : IsEntryName name) :
    ∃ p, q = p ++ [name] ∧ f.node? p = some .directory ∧
      f.listing (if path = "" then "." else path) = some (f.children p) ∧
      ∀ other, IsEntryName other → Text.byteLength other.toList ≤ longestName →
        f.resolve (join path other) = .ok (p ++ [other]) := by
  have hnul : '\x00' ∉ path.toList := fun hmem => noNul_of_resolve h (mem_join_of_mem hmem)
  rw [resolve_join_eq hnul hname] at h
  cases hwalk : f.walk (top path) (pieces path.toList) with
  | error fault =>
    rw [hwalk] at h
    contradiction
  | ok p =>
    rw [hwalk] at h
    obtain ⟨hdir, ⟨hself, -⟩ | ⟨-, habove, -⟩ | ⟨-, -, -, rfl⟩⟩ := follow_eq_ok h
    · exact absurd hself hname.ne_self
    · exact absurd habove hname.ne_above
    -- Where the walk to the directory ends, it may go on along a dot.
    have hself : f.walk p ["."] = .ok p := by
      rw [walk, follow, hdir]
      rfl
    refine ⟨p, rfl, hdir, listing_eq_some.2 ⟨p, ?_, hdir, rfl⟩, fun other hother hlong => ?_⟩
    · split
      · -- The working directory is where the walk along no names ends.
        rename_i hempty
        subst hempty
        obtain rfl : [] = p := Except.ok.inj hwalk
        exact hself
      · rename_i hpath
        have hnonempty : path.toList ≠ [] := fun hnil => hpath (String.toList_eq_nil_iff.1 hnil)
        rw [resolve_eq_walk hnonempty hnul, pathNames, ← pieces]
        split
        · rw [walk_append, hwalk]
          exact hself
        · exact hwalk
    · -- Any other entry of it is found from there.
      rw [resolve_join_eq hnul hother, hwalk]
      exact (follow_entryName hdir hother).trans (if_pos hlong)

/-- Under the path of a name in a directory is found what stands in it with the name, unless the
name is too long. -/
theorem find_join (h : f.resolve path = .ok p) (hdir : f.node? p = some .directory)
    (hname : IsEntryName name) (hlong : Text.byteLength name.toList ≤ longestName) :
    f.find (join path name) =
      match f.node? (p ++ [name]) with
      | none => .error .notFound
      | some node => .ok node := by
  have hresolve := resolve_join h hdir hname
  rw [if_pos hlong] at hresolve
  cases hnode : f.node? (p ++ [name]) <;> simp only [find, hresolve, hnode]

/-- A file is written under the path of a name in a directory unless the name is too long or a
directory stands there. -/
theorem write_join (h : f.resolve path = .ok p) (hdir : f.node? p = some .directory)
    (hname : IsEntryName name) (bytes : List UInt8) :
    f.write (join path name) bytes =
      if Text.byteLength name.toList ≤ longestName then
        match f.node? (p ++ [name]) with
        | some .directory => .error .isDirectory
        | _ => .ok (f.put (p ++ [name]) (.file bytes))
      else .error .nameTooLong := by
  have hresolve := resolve_join h hdir hname
  by_cases hlong : Text.byteLength name.toList ≤ longestName
  · rw [if_pos hlong] at hresolve
    rw [write, if_neg (getLast?_join path hname), hresolve]
    exact (if_pos hlong).symm
  · rw [if_neg hlong] at hresolve
    rw [write, if_neg (getLast?_join path hname), hresolve]
    exact (if_neg hlong).symm

/-- A path is that of an entry of a directory. -/
structure IsEntryPath (directory name path : String) : Prop where
  /-- A directory can hold the name. -/
  isEntryName : IsEntryName name
  /-- The path has the names of the directory, and this one behind them. -/
  names : pathNames path.toList = pieces directory.toList ++ [name]
  /-- It goes from the same top. -/
  top : top path = top directory
  /-- In all files it leads from where the directory stands to its entry of this name, unless the
  name is too long. -/
  resolve : ∀ (f : Files) (place : Place), f.resolve directory = .ok place →
    f.node? place = some .directory → f.resolve path =
      if Text.byteLength name.toList ≤ longestName then .ok (place ++ [name])
      else .error .nameTooLong
  /-- A file that is written there is put into the directory, and nothing else is changed. -/
  write : ∀ (f f' : Files) (place : Place) (bytes : List UInt8), f.resolve directory = .ok place →
    f.node? place = some .directory → f.write path bytes = .ok f' →
      f' = f.put (place ++ [name]) (.file bytes)

/-- The path of a name in a directory is that of its entry. -/
theorem isEntryPath_join (directory : String) (hname : IsEntryName name) :
    IsEntryPath directory name (join directory name) := by
  refine ⟨hname, pathNames_join directory hname, top_join directory hname,
    fun f place h hdir => resolve_join h hdir hname, fun f f' place bytes h hdir hwrite => ?_⟩
  rw [write_join h hdir hname] at hwrite
  split at hwrite
  · split at hwrite
    · contradiction
    · exact (Except.ok.inj hwrite).symm
  · contradiction

/-- Different names in a directory have different paths. -/
theorem join_injective (directory : String) {other : String}
    (h : join directory name = join directory other) : name = other := by
  unfold join at h
  split at h
  · exact h
  all_goals exact (String.append_right_inj _).1 h

end UnitLoader.Files
