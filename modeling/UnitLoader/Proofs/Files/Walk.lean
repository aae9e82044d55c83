import UnitLoader.Files

/-!
# Following paths in changing files

What stands at a place after a change, and where a walk leads after it. A walk only goes on from
directories, so it never gets below a place where nothing stands. Files that agree outside such a
place therefore lead the same names to the same places (`walk_of_ok`), and if nothing stands there
in either of them, no path tells them apart (`LookAlike`). For the same reason a path leads to a
file that was written under it, and what was written is read (`read_of_write`).
-/

namespace UnitLoader.Files

variable {f f' : Files} {place other here p : Place} {node : Node} {names more : List String}

/-! ## What stands at a place -/

/-- The entry of a key is found among those of which a test keeps the keys. -/
theorem lookup_filter_fst (keep : Place → Bool) (nodes : List (Place × Node)) (other : Place) :
    (nodes.filter fun entry => keep entry.1).lookup other =
      if keep other then nodes.lookup other else none := by
  induction nodes with
  | nil => rw [List.filter_nil, List.lookup_nil, ite_self]
  | cons entry rest ih =>
    rw [List.filter_cons, List.lookup_cons]
    split
    · rename_i hkeep
      rw [List.lookup_cons, ih]
      split
      · rename_i same
        rw [eq_of_beq same, if_pos hkeep]
      · rfl
    · -- An entry that is dropped is not the one of a key that is kept.
      rename_i hdrop
      rw [ih]
      split
      · rename_i hother
        split
        · rename_i same
          exact absurd (eq_of_beq same ▸ hother) hdrop
        · rfl
      · rfl

/-- A place is a top. -/
def IsTop (place : Place) : Prop := place = [] ∨ place = root

/-- A directory stands at a top. -/
theorem node?_of_isTop (f : Files) (h : IsTop place) : f.node? place = some .directory := if_pos h

theorem node?_of_not_isTop (f : Files) (h : ¬IsTop place) :
    f.node? place = f.nodes.lookup place := if_neg h

/-- Where no directory stands is no top. -/
theorem not_isTop_of_node? (h : f.node? place ≠ some .directory) : ¬IsTop place :=
  fun htop => h (f.node?_of_isTop htop)

/-- A top is below no other place. -/
theorem IsTop.of_prefix (h : IsTop other) (hbelow : place <+: other) : IsTop place := by
  rcases h with rfl | rfl
  · exact .inl (List.prefix_nil.1 hbelow)
  · obtain ⟨tail, htail⟩ := hbelow
    cases place with
    | nil => exact .inl rfl
    | cons name rest =>
      obtain ⟨rfl, hrest⟩ := List.cons.inj htail
      obtain ⟨rfl, -⟩ := List.append_eq_nil_iff.1 hrest
      exact .inr rfl

/-- What was put at a place stands there, and nothing else is changed. -/
theorem node?_put (f : Files) (h : ¬IsTop place) (node : Node) (other : Place) :
    (f.put place node).node? other = if other = place then some node else f.node? other := by
  by_cases htop : IsTop other
  · have hne : other ≠ place := fun same => h (same ▸ htop)
    rw [node?_of_isTop _ htop, if_neg hne, node?_of_isTop _ htop]
  · rw [node?_of_not_isTop _ htop, node?_of_not_isTop _ htop, put, List.lookup_cons,
      lookup_filter_fst fun entry => entry != place]
    split
    · rename_i same
      rw [if_pos (eq_of_beq same)]
    · rename_i hne
      have hne : other ≠ place := ne_of_beq_false hne
      rw [if_neg hne, if_pos (bne_iff_ne.2 hne)]

/-- Nothing is left at a place and below it, and nothing else is changed. -/
theorem node?_remove (f : Files) (h : ¬IsTop place) (other : Place) :
    (f.remove place).node? other = if place <+: other then none else f.node? other := by
  by_cases htop : IsTop other
  · rw [node?_of_isTop _ htop, if_neg (fun hbelow => h (htop.of_prefix hbelow)),
      node?_of_isTop _ htop]
  · rw [node?_of_not_isTop _ htop, node?_of_not_isTop _ htop, remove,
      lookup_filter_fst fun entry => !place.isPrefixOf entry]
    by_cases hbelow : place <+: other
    · rw [if_pos hbelow, if_neg (by simp [List.isPrefixOf_iff_prefix.2 hbelow])]
    · rw [if_neg hbelow, if_pos (by simp [mt List.isPrefixOf_iff_prefix.1 hbelow])]

/-- A new directory stands at its place, nothing below it, and nothing else is changed. -/
theorem node?_putDirectory (f : Files) (h : ¬IsTop place) (other : Place) :
    (f.putDirectory place).node? other =
      if other = place then some .directory
      else if place <+: other then none else f.node? other := by
  rw [putDirectory, node?_put _ h, node?_remove _ h]

/-! ## Where a walk leads -/

/-- Following names and then others is following them all. -/
theorem walk_append (f : Files) (here : Place) (names more : List String) :
    f.walk here (names ++ more) = (f.walk here names).bind fun p => f.walk p more := by
  induction names generalizing here with
  | nil => rfl
  | cons name rest ih =>
    rw [List.cons_append, walk, walk]
    cases f.follow here name with
    | error fault => rfl
    | ok next => exact ih next

/-- A walk comes to an end if its first name leads somewhere and the others lead on from there. -/
theorem walk_cons_eq_ok {name : String} {rest : List String} :
    f.walk here (name :: rest) = .ok p ↔
      ∃ next, f.follow here name = .ok next ∧ f.walk next rest = .ok p := by
  rw [walk]
  cases hfollow : f.follow here name with
  | error fault => simp
  | ok next => simp

/-- A name leads on only from a directory: to the directory itself, to the one above, or below it.
-/
theorem follow_eq_ok {name : String} (h : f.follow here name = .ok p) :
    f.node? here = some .directory ∧
      ((name = "." ∧ p = here) ∨ (name ≠ "." ∧ name = ".." ∧ p = above here) ∨
        (name ≠ "." ∧ name ≠ ".." ∧ ¬longestName < Text.byteLength name.toList ∧
          p = here ++ [name])) := by
  unfold follow at h
  -- Only a directory leads on.
  split at h
  · contradiction
  · rename_i hnode
    refine ⟨hnode, ?_⟩
    split at h
    · rename_i hdot
      exact .inl ⟨hdot, (Except.ok.inj h).symm⟩
    rename_i hdot
    split at h
    · rename_i hup
      exact .inr (.inl ⟨hdot, hup, (Except.ok.inj h).symm⟩)
    rename_i hup
    split at h
    · contradiction
    · rename_i hlong
      exact .inr (.inr ⟨hdot, hup, hlong, (Except.ok.inj h).symm⟩)
  · contradiction

/-- Where a name leads depends only on what stands at the place. -/
theorem follow_congr {name : String} (h : f'.node? here = f.node? here) :
    f'.follow here name = f.follow here name := by
  unfold follow
  rw [h]

/-- A name that is not one of the special ones leads below the place. -/
theorem follow_name {name : String} (h : f.node? here = some .directory) (hdot : name ≠ ".")
    (hup : name ≠ "..") (hlong : Text.byteLength name.toList ≤ longestName) :
    f.follow here name = .ok (here ++ [name]) := by
  unfold follow
  rw [h]
  dsimp only
  rw [if_neg hdot, if_neg hup, if_neg (Nat.not_lt.2 hlong)]

/-- The same stands at every place that is not below a place. -/
def AgreeOutside (place : Place) (f f' : Files) : Prop :=
  ∀ other, ¬place <+: other → f'.node? other = f.node? other

/-- Going up does not lead below a place. -/
theorem not_prefix_above (h : ¬place <+: here) (hplace : ¬IsTop place) :
    ¬place <+: above here := by
  unfold above
  split
  · exact fun hbelow => hplace (IsTop.of_prefix (.inr rfl) hbelow)
  · exact fun hbelow => h (hbelow.trans here.dropLast_prefix)

/-- A walk that comes to an end where nothing stands at a place ends at the place itself or not
below it, and leads to the same place in files that agree outside the place. -/
theorem walk_of_ok (hnone : f.node? place = none) (hagree : AgreeOutside place f f')
    (hhere : ¬place <+: here) (hwalk : f.walk here names = .ok p) :
    f'.walk here names = .ok p ∧ (p = place ∨ ¬place <+: p) := by
  have hplace : ¬IsTop place := not_isTop_of_node? (f := f) (by simp [hnone])
  -- The walk has not come to the place so far, and the files agree where it stands.
  induction names generalizing here with
  | nil =>
    obtain rfl := Except.ok.inj hwalk
    exact ⟨rfl, .inr hhere⟩
  | cons name rest ih =>
    obtain ⟨next, hfollow, hrest⟩ := walk_cons_eq_ok.1 hwalk
    rw [walk_cons_eq_ok, follow_congr (hagree here hhere)]
    by_cases hbelow : place <+: next
    · -- The walk comes to the place, from where it cannot go on.
      obtain ⟨-, ⟨-, rfl⟩ | ⟨-, -, rfl⟩ | ⟨-, -, -, rfl⟩⟩ := follow_eq_ok hfollow
      · exact absurd hbelow hhere
      · exact absurd hbelow (not_prefix_above hhere hplace)
      obtain rfl : place = here ++ [name] :=
        (List.prefix_concat_iff.1 hbelow).resolve_right hhere
      cases rest with
      | nil =>
        obtain rfl := Except.ok.inj hrest
        exact ⟨⟨_, hfollow, rfl⟩, .inl rfl⟩
      | cons other others =>
        obtain ⟨beyond, hother, -⟩ := walk_cons_eq_ok.1 hrest
        rw [(follow_eq_ok hother).1] at hnone
        contradiction
    · obtain ⟨hsame, hend⟩ := ih hbelow hrest
      exact ⟨⟨next, hfollow, hsame⟩, hend⟩

/-- The same of paths. -/
theorem resolve_of_ok {path : String} (hnone : f.node? place = none)
    (hagree : AgreeOutside place f f') (h : f.resolve path = .ok p) :
    f'.resolve path = .ok p ∧ (p = place ∨ ¬place <+: p) := by
  have hplace : ¬IsTop place := not_isTop_of_node? (f := f) (by simp [hnone])
  unfold resolve at h ⊢
  split at h
  · contradiction
  split at h
  · contradiction
  · rename_i hnul
    rw [if_neg hnul]
    refine walk_of_ok hnone hagree (fun hbelow => hplace (IsTop.of_prefix ?_ hbelow)) h
    split
    · exact .inr rfl
    · exact .inl rfl

/-- A walk that does not have the name of a place does not come below it, so it goes the same way in
files that agree outside the place. -/
theorem walk_of_not_mem {parent : Place} {name : String} (hplace : ¬IsTop (parent ++ [name]))
    (hagree : AgreeOutside (parent ++ [name]) f f') (hname : name ∉ names)
    (hhere : ¬parent ++ [name] <+: here) :
    f'.walk here names = f.walk here names ∧
      ∀ p, f.walk here names = .ok p → ¬parent ++ [name] <+: p := by
  induction names generalizing here with
  | nil =>
    refine ⟨rfl, fun p hp => ?_⟩
    obtain rfl := Except.ok.inj hp
    exact hhere
  | cons first rest ih =>
    rw [List.mem_cons, not_or] at hname
    rw [walk, walk, follow_congr (hagree here hhere)]
    cases hfollow : f.follow here first with
    | error fault => exact ⟨rfl, fun p hp => absurd hp (by simp)⟩
    | ok next =>
      have hnext : ¬parent ++ [name] <+: next := by
        obtain ⟨-, ⟨-, rfl⟩ | ⟨-, -, rfl⟩ | ⟨-, -, -, rfl⟩⟩ := follow_eq_ok hfollow
        · exact hhere
        · exact not_prefix_above hhere hplace
        · rw [List.prefix_concat_iff, not_or]
          refine ⟨fun same => hname.1 ?_, hhere⟩
          exact List.singleton_inj.1 (List.append_inj' same rfl).2
      exact ih hname.2 hnext

/-- The same of paths. -/
theorem resolve_of_not_mem {parent : Place} {name path : String}
    (hplace : ¬IsTop (parent ++ [name])) (hagree : AgreeOutside (parent ++ [name]) f f')
    (hname : name ∉ pathNames path.toList) :
    f'.resolve path = f.resolve path ∧
      ∀ p, f.resolve path = .ok p → ¬parent ++ [name] <+: p := by
  unfold resolve
  cases hpath : path.toList with
  | nil => exact ⟨rfl, fun p hp => absurd hp (by simp)⟩
  | cons c cs =>
    rw [hpath] at hname
    dsimp only
    by_cases hnul : '\x00' ∈ c :: cs
    · rw [if_pos hnul, if_pos hnul]
      exact ⟨rfl, fun p hp => absurd hp (by simp)⟩
    · rw [if_neg hnul, if_neg hnul]
      refine walk_of_not_mem hplace hagree hname fun hbelow => hplace (IsTop.of_prefix ?_ hbelow)
      split
      · exact .inr rfl
      · exact .inl rfl

/-! ## Writing and reading -/

/-- A walk does not come through a place without a directory, so it leads to the same place when
something is put there. -/
theorem walk_put (hplace : f.node? place ≠ some .directory) (hwalk : f.walk here names = .ok p) :
    (f.put place node).walk here names = .ok p := by
  induction names generalizing here with
  | nil => exact hwalk
  | cons name rest ih =>
    obtain ⟨next, hfollow, hrest⟩ := walk_cons_eq_ok.1 hwalk
    have hne : here ≠ place := by
      rintro rfl
      exact hplace (follow_eq_ok hfollow).1
    have hsame : (f.put place node).node? here = f.node? here := by
      rw [node?_put f (not_isTop_of_node? hplace), if_neg hne]
    rw [walk_cons_eq_ok, follow_congr hsame]
    exact ⟨next, hfollow, ih hrest⟩

/-- The same of paths. -/
theorem resolve_put {path : String} (hplace : f.node? place ≠ some .directory)
    (h : f.resolve path = .ok p) : (f.put place node).resolve path = .ok p := by
  unfold resolve at h ⊢
  split at h
  · contradiction
  split at h
  · contradiction
  · rename_i hnul
    rw [if_neg hnul]
    exact walk_put hplace h

/-- What was written to a file is read from it. -/
theorem read_of_write {path : String} {bytes : List UInt8} (h : f.write path bytes = .ok f') :
    f'.read path = .ok bytes := by
  unfold write at h
  split at h
  · -- A path that ends with a slash is not written to.
    split at h
    · contradiction
    · split at h <;> cases h
  split at h
  · contradiction
  rename_i place hresolve
  split at h
  · contradiction
  rename_i hplace
  obtain rfl := Except.ok.inj h
  have hresolve' : (f.put place (.file bytes)).resolve path = .ok place :=
    resolve_put hplace hresolve
  have hnode : (f.put place (.file bytes)).node? place = some (.file bytes) := by
    rw [node?_put f (not_isTop_of_node? hplace), if_pos rfl]
  rw [read, find, hresolve']
  dsimp only
  rw [hnode]

/-! ## What paths tell of files -/

/-- A path leads to what stands at the place that it leads to. -/
theorem find_eq_ok {path : String} :
    f.find path = .ok node ↔ ∃ p, f.resolve path = .ok p ∧ f.node? p = some node := by
  unfold find
  constructor
  · intro h
    split at h
    · contradiction
    rename_i p hresolve
    split at h
    · contradiction
    rename_i hnode
    obtain rfl := Except.ok.inj h
    exact ⟨p, hresolve, hnode⟩
  · rintro ⟨p, hresolve, hnode⟩
    rw [hresolve]
    dsimp only
    rw [hnode]

/-- What a path lists is what is in the directory where it leads. -/
theorem listing_eq_some {path : String} : f.listing path = some names ↔
    ∃ p, f.resolve path = .ok p ∧ f.node? p = some .directory ∧ f.children p = names := by
  unfold listing
  constructor
  · intro h
    split at h
    · contradiction
    rename_i p hresolve
    split at h
    · rename_i hnode
      exact ⟨p, hresolve, hnode, Option.some.inj h⟩
    · contradiction
  · rintro ⟨p, hresolve, hnode, rfl⟩
    rw [hresolve]
    dsimp only
    rw [hnode]

/-- A path without the name of a place leads to the same in files that agree outside the place. -/
theorem find_of_not_mem {parent : Place} {name path : String}
    (hplace : ¬IsTop (parent ++ [name])) (hagree : AgreeOutside (parent ++ [name]) f f')
    (hname : name ∉ pathNames path.toList) : f'.find path = f.find path := by
  obtain ⟨hsame, hends⟩ := resolve_of_not_mem hplace hagree hname
  unfold find
  rw [hsame]
  cases hresolve : f.resolve path with
  | error fault => rfl
  | ok p =>
    dsimp only
    rw [hagree p (hends p hresolve)]

/-! ## Programs -/

/-- The first program is the same if there is the same under each path. -/
theorem firstProgram?_congr {paths : List String}
    (h : ∀ path ∈ paths, f'.program path = f.program path) :
    f'.firstProgram? paths = f.firstProgram? paths := by
  unfold firstProgram?
  induction paths with
  | nil => rfl
  | cons path rest ih =>
    rw [List.findSome?_cons, List.findSome?_cons, h path List.mem_cons_self,
      ih fun other hother => h other (List.mem_cons_of_mem _ hother)]

/-- A program is the same in files that agree outside a place, if the place has a name that is not
one of those under which the program is searched for. -/
theorem command_of_not_mem {parent : Place} {name path : String} {searchPath : Option String}
    (hplace : ¬IsTop (parent ++ [name])) (hagree : AgreeOutside (parent ++ [name]) f f')
    (hname : ∀ candidate ∈ path :: candidates searchPath path,
      name ∉ pathNames candidate.toList) :
    f'.command searchPath path = f.command searchPath path := by
  have hprogram (candidate : String) (hcandidate : candidate ∈ path :: candidates searchPath path) :
      f'.program candidate = f.program candidate := by
    unfold program
    rw [find_of_not_mem hplace hagree (hname candidate hcandidate)]
  unfold command
  rw [hprogram path List.mem_cons_self, firstProgram?_congr fun candidate hcandidate =>
    hprogram candidate (List.mem_cons_of_mem _ hcandidate)]

/-! ## Files that look alike -/

/-- Every path leads to the same in both, and lists the same. -/
structure LookAlike (f f' : Files) : Prop where
  /-- What a path leads to. -/
  find : ∀ path node, f'.find path = .ok node ↔ f.find path = .ok node
  /-- What a path lists. -/
  listing : ∀ path, f'.listing path = f.listing path

theorem lookAlike_refl (f : Files) : LookAlike f f := ⟨fun _ _ => .rfl, fun _ => rfl⟩

/-- What stands where no directory is missing is seen in files that agree there. -/
theorem find_of_agreeOutside {path : String} (hnone : f.node? place = none)
    (hagree : AgreeOutside place f f') (h : f.find path = .ok node) :
    f'.find path = .ok node := by
  obtain ⟨p, hresolve, hnode⟩ := find_eq_ok.1 h
  obtain ⟨hresolve', rfl | hbelow⟩ := resolve_of_ok hnone hagree hresolve
  · rw [hnone] at hnode
    contradiction
  · exact find_eq_ok.2 ⟨p, hresolve', (hagree p hbelow).trans hnode⟩

/-- What is listed where no directory is missing is listed in files that agree there, if their
directories hold the same. -/
theorem listing_of_agreeOutside {path : String} (hnone : f.node? place = none)
    (hagree : AgreeOutside place f f')
    (hchildren : ∀ q, ¬place <+: q → f'.children q = f.children q)
    (h : f.listing path = some names) : f'.listing path = some names := by
  obtain ⟨p, hresolve, hnode, hnames⟩ := listing_eq_some.1 h
  obtain ⟨hresolve', rfl | hbelow⟩ := resolve_of_ok hnone hagree hresolve
  · rw [hnone] at hnode
    contradiction
  · exact listing_eq_some.2
      ⟨p, hresolve', (hagree p hbelow).trans hnode, (hchildren p hbelow).trans hnames⟩

/-- The directory of a place loses nothing with entries that are not in it. -/
theorem children_filter (keep : Place × Node → Bool) (nodes : List (Place × Node)) (q : Place)
    (h : ∀ entry ∈ nodes, entry.1 ≠ [] → entry.1.dropLast = q → keep entry = true) :
    (Files.mk (nodes.filter keep)).children q = (Files.mk nodes).children q := by
  induction nodes with
  | nil => rfl
  | cons entry rest ih =>
    have hrest := ih fun other hother => h other (List.mem_cons_of_mem entry hother)
    unfold children at hrest ⊢
    dsimp only at hrest ⊢
    rw [List.filter_cons]
    split
    · rw [List.foldr_cons, List.foldr_cons, hrest]
    · -- What is dropped is no entry of the directory, so nothing is missing.
      rename_i hdrop
      rw [List.foldr_cons, hrest]
      split
      · rename_i hdir
        cases hkey : entry.1 with
        | nil => rfl
        | cons name others =>
          exact absurd (h entry (List.mem_cons_self ..) (by simp [hkey]) hdir) hdrop
      · rfl

/-- Where nothing stands there is no entry. -/
theorem fst_ne_of_node? (hnone : f.node? place = none) {entry : Place × Node}
    (h : entry ∈ f.nodes) : entry.1 ≠ place := by
  have hplace : ¬IsTop place := not_isTop_of_node? (f := f) (by simp [hnone])
  rw [node?_of_not_isTop _ hplace, List.lookup_eq_none_iff] at hnone
  exact fun same => by simpa [same] using hnone entry h

/-- Where nothing stands no path leads below, so that it makes no difference what was kept there. -/
theorem lookAlike_remove (hnone : f.node? place = none) : LookAlike f (f.remove place) := by
  have hplace : ¬IsTop place := not_isTop_of_node? (f := f) (by simp [hnone])
  have hagree : AgreeOutside place f (f.remove place) := fun other hbelow => by
    rw [node?_remove f hplace, if_neg hbelow]
  have hagree' : AgreeOutside place (f.remove place) f :=
    fun other hbelow => (hagree other hbelow).symm
  have hnone' : (f.remove place).node? place = none := by
    rw [node?_remove f hplace, if_pos (List.prefix_refl place)]
  -- An entry that goes is below the place, and the place itself has none.
  have hchildren (q : Place) (hq : ¬place <+: q) :
      (f.remove place).children q = f.children q := by
    refine children_filter _ f.nodes q fun entry hentry hne hdir => ?_
    have hbelow : ¬place <+: entry.1 := fun hbelow => by
      rw [← List.dropLast_concat_getLast hne, hdir, List.prefix_concat_iff] at hbelow
      rcases hbelow with same | hbelow
      · rw [← hdir, List.dropLast_concat_getLast hne] at same
        exact fst_ne_of_node? hnone hentry same.symm
      · exact hq hbelow
    simp [mt List.isPrefixOf_iff_prefix.1 hbelow]
  refine ⟨fun path node => ⟨find_of_agreeOutside hnone' hagree', find_of_agreeOutside hnone hagree⟩,
    fun path => Option.ext fun names => ⟨?_, ?_⟩⟩
  · exact listing_of_agreeOutside hnone' hagree' fun q hq => (hchildren q hq).symm
  · exact listing_of_agreeOutside hnone hagree hchildren

end UnitLoader.Files
