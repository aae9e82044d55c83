import UnitLoader.Proofs.Files.Path

/-!
# Making directories on a way

Making the directories on the way of a path changes nothing if the path leads to a directory already
(`makeDirectories_of_find`). Otherwise whatever was there stays, and all that is new are directories
with names of the path (`node?_makeDirectories`). If the path never goes up, they stand on the way
to where it leads and not in it (`children_makeDirectories`).
-/

namespace UnitLoader.Files

variable {f f' : Files} {place here p q : Place} {node : Node} {names : List String}
  {path : String} {begun : Bool}

/-! ## A way that is there -/

/-- On a way that leads to a directory nothing is made. -/
theorem makeWay_of_walk (h : f.walk here names = .ok p) (hdir : f.node? p = some .directory) :
    f.makeWay begun here names = (.ok (), f) := by
  induction names generalizing here with
  | nil => rfl
  | cons name rest ih =>
    obtain ⟨next, hfollow, hrest⟩ := walk_cons_eq_ok.1 h
    unfold makeWay
    obtain ⟨-, ⟨hdot, rfl⟩ | ⟨hdot, hup, rfl⟩ | ⟨hdot, hup, hlong, rfl⟩⟩ := follow_eq_ok hfollow
    · rw [if_pos hdot]
      exact ih hrest
    · rw [if_neg hdot, if_pos hup]
      exact ih hrest
    · -- The walk goes on from the place or ends there, so a directory stands there.
      have hnext : f.node? (here ++ [name]) = some .directory := by
        cases rest with
        | nil => exact Except.ok.inj hrest ▸ hdir
        | cons other others =>
          obtain ⟨beyond, hother, -⟩ := walk_cons_eq_ok.1 hrest
          exact (follow_eq_ok hother).1
      rw [if_neg hdot, if_neg hup, if_neg hlong, hnext]
      exact ih hrest

/-! ## Slashes at the end -/

/-- The names between the slashes of a text. -/
def pieces (text : List Char) : List String :=
  ((Text.splitOn ['/'] text).filter (· ≠ [])).map String.ofList

/-- A slash at the end adds no name. -/
theorem pieces_concat_slash (text : List Char) : pieces (text ++ ['/']) = pieces text := by
  have hempty : Text.splitOn ['/'] [] = [[]] := rfl
  rw [pieces, Text.splitOn_slash, hempty, List.filter_append, List.map_append]
  exact List.append_nil _

/-- Neither do several. -/
theorem pieces_dropWhile_slash (reversed : List Char) :
    pieces (reversed.dropWhile (· == '/')).reverse = pieces reversed.reverse := by
  induction reversed with
  | nil => rfl
  | cons c rest ih =>
    rw [List.dropWhile_cons]
    split
    · rename_i hslash
      rw [ih, List.reverse_cons, eq_of_beq hslash, pieces_concat_slash]
    · rfl

/-- The names of a path are those of the path without the slashes at its end, and one for the
directory itself if there are any. -/
theorem pathNames_withoutSlashes (path : String) :
    pathNames path.toList = pathNames (withoutSlashes path).toList ++
      if path.toList.getLast? = some '/' then ["."] else [] := by
  have htext : (withoutSlashes path).toList = (path.toList.reverse.dropWhile (· == '/')).reverse :=
    String.toList_ofList
  have hnames : pathNames (withoutSlashes path).toList = pieces path.toList := by
    rw [htext, pathNames, if_neg]
    · have hpieces := pieces_dropWhile_slash path.toList.reverse
      rwa [List.reverse_reverse] at hpieces
    · rw [List.getLast?_reverse]
      intro hhead
      have hnot := List.head?_dropWhile_not (· == '/') path.toList.reverse
      rw [hhead] at hnot
      contradiction
  rw [hnames, pathNames]
  split
  · rfl
  · exact (List.append_nil _).symm

/-- The name of a directory for itself leads nowhere else. -/
theorem walk_self (h : f.walk here ["."] = .ok p) : p = here := by
  obtain ⟨next, hself, hend⟩ := walk_cons_eq_ok.1 h
  obtain rfl := Except.ok.inj hend
  obtain ⟨-, ⟨-, hsame⟩ | ⟨hdot, -⟩ | ⟨hdot, -⟩⟩ := follow_eq_ok hself
  · exact hsame
  · exact absurd rfl hdot
  · exact absurd rfl hdot

/-! ## A path that is there -/

/-- No directory is made if there is one where the path leads. -/
theorem makeDirectories_of_find (h : f.find path = .ok .directory) :
    f.makeDirectories path = (.ok (), f) := by
  obtain ⟨p, hresolve, hdir⟩ := find_eq_ok.1 h
  have hnames := pathNames_withoutSlashes path
  unfold resolve at hresolve
  unfold makeDirectories
  cases htext : path.toList with
  | nil => rfl
  | cons c cs =>
    rw [htext] at hresolve hnames
    dsimp only at hresolve ⊢
    split at hresolve
    · contradiction
    rename_i hnul
    rw [if_neg hnul]
    -- The path is gone along without the slashes at its end, and then to the directory itself.
    rw [hnames, walk_append] at hresolve
    cases hwalk : f.walk (if c = '/' then root else [])
        (pathNames (withoutSlashes path).toList) with
    | error fault =>
      rw [hwalk] at hresolve
      contradiction
    | ok there =>
      rw [hwalk] at hresolve
      change f.walk there _ = .ok p at hresolve
      obtain rfl : there = p := by
        split at hresolve
        · exact (walk_self hresolve).symm
        · exact Except.ok.inj hresolve
      exact makeWay_of_walk hwalk hdir

/-! ## What is made -/

/-- A place that is made on a way along names: it has one of the names, and if the names never go up
it stands on the way to where they lead. -/
structure OnWay (here : Place) (names : List String) (place : Place) : Prop where
  /-- It has one of the names. -/
  named : ∃ r, ∃ name ∈ names, place = r ++ [name]
  /-- It stands on the way. -/
  towards : ".." ∉ names → place <+: here ++ names.filter (· ≠ ".")

/-- A place on the rest of a way is on the way. -/
theorem OnWay.cons {name : String} {next : Place} (h : OnWay next names place)
    (htowards : ".." ∉ name :: names → next ++ names.filter (· ≠ ".") =
      here ++ (name :: names).filter (· ≠ ".")) : OnWay here (name :: names) place := by
  obtain ⟨r, last, hmem, hplace⟩ := h.named
  refine ⟨⟨r, last, List.mem_cons_of_mem name hmem, hplace⟩, fun hup => ?_⟩
  rw [← htowards hup]
  exact h.towards fun hmem => hup (List.mem_cons_of_mem name hmem)

/-- What holds of files, and still holds when a missing directory on the way is made, holds when the
whole way is made. -/
theorem makeWay_invariant {I : Files → Prop} (h : I f)
    (hstep : ∀ f place, I f → f.node? place = none → OnWay here names place →
      I (f.putDirectory place)) : I (f.makeWay begun here names).2 := by
  -- The rest of the way goes on from the place that the name leads to, in files that `I` holds of.
  induction names generalizing f here begun with
  | nil => exact h
  | cons name rest ih =>
    unfold makeWay
    split
    · -- A dot stays where it is.
      rename_i hdot
      refine ih h fun g place hg hnone hway => hstep g place hg hnone (hway.cons fun _ => ?_)
      rw [List.filter_cons_of_neg (by simp [hdot])]
    rename_i hdot
    split
    · -- Two dots lead up, and nothing is made there.
      rename_i hup
      refine ih h fun g place hg hnone hway => hstep g place hg hnone (hway.cons fun hnot => ?_)
      exact absurd (hup ▸ List.mem_cons_self ..) hnot
    rename_i hup
    split
    · exact h
    -- From here on the name is one of a directory below.
    have hnext : here ++ [name] ++ rest.filter (· ≠ ".") =
        here ++ (name :: rest).filter (· ≠ ".") := by
      rw [List.filter_cons_of_pos (by simp [hdot]), List.append_assoc, List.singleton_append]
    have hrest : ∀ g place, I g → g.node? place = none → OnWay (here ++ [name]) rest place →
        I (g.putDirectory place) := fun g place hg hnone hway =>
      hstep g place hg hnone (hway.cons fun _ => hnext)
    split
    · -- The directory is missing, and it is made unless there are only dots behind it.
      rename_i hmissing
      split
      · exact h
      · refine ih (hstep f _ h hmissing ⟨⟨here, name, List.mem_cons_self .., rfl⟩, fun _ => ?_⟩)
          hrest
        rw [← hnext]
        exact List.prefix_append _ _
    · exact ih h hrest
    · exact h

/-- The top that a path goes from. -/
def top (path : String) : Place := if path.toList.head? = some '/' then root else []

theorem top_of_cons {c : Char} {cs : List Char} (h : path.toList = c :: cs) :
    top path = if c = '/' then root else [] := by
  simp only [top, h, List.head?_cons, Option.some.injEq]

/-- A walk that never goes up goes down along its names. -/
theorem walk_of_not_up (hup : ".." ∉ names) (h : f.walk here names = .ok p) :
    p = here ++ names.filter (· ≠ ".") := by
  induction names generalizing here with
  | nil => exact (Except.ok.inj h).symm.trans (List.append_nil here).symm
  | cons name rest ih =>
    obtain ⟨next, hfollow, hrest⟩ := walk_cons_eq_ok.1 h
    have hend := ih (fun hmem => hup (List.mem_cons_of_mem name hmem)) hrest
    obtain ⟨-, ⟨hdot, rfl⟩ | ⟨-, hname, -⟩ | ⟨hdot, -, -, rfl⟩⟩ := follow_eq_ok hfollow
    · rw [List.filter_cons_of_neg (by simp [hdot]), hend]
    · exact absurd (hname ▸ List.mem_cons_self ..) hup
    · rw [List.filter_cons_of_pos (by simp [hdot]), hend, List.append_assoc, List.singleton_append]

/-- A path that never goes up leads down from its top along its names. -/
theorem resolve_of_not_up (hup : ".." ∉ pathNames path.toList) (h : f.resolve path = .ok p) :
    p = top path ++ (pathNames path.toList).filter (· ≠ ".") := by
  unfold resolve at h
  split at h
  · contradiction
  rename_i c cs htext
  rw [top_of_cons htext]
  rw [htext] at hup ⊢
  split at h
  · contradiction
  · exact walk_of_not_up hup h

/-- What holds of files, and still holds when a missing directory on the way of a path is made,
holds when the directories of the path are made. -/
theorem makeDirectories_invariant {I : Files → Prop} (h : I f)
    (hstep : ∀ f place, I f → f.node? place = none →
      OnWay (top path) (pathNames path.toList) place → I (f.putDirectory place)) :
    I (f.makeDirectories path).2 := by
  have hnames := pathNames_withoutSlashes path
  unfold makeDirectories
  split
  · exact h
  rename_i c cs htext
  rw [top_of_cons htext] at hstep
  rw [htext] at hnames hstep
  split
  · exact h
  refine makeWay_invariant h fun g place hg hnone hway => hstep g place hg hnone ?_
  rw [hnames]
  obtain ⟨r, name, hmem, hplace⟩ := hway.named
  refine ⟨⟨r, name, List.mem_append_left _ hmem, hplace⟩, fun hup => ?_⟩
  rw [List.filter_append, ← List.append_assoc]
  exact (hway.towards fun hmem => hup (List.mem_append_left _ hmem)).trans (List.prefix_append _ _)

/-! ## What is seen of it -/

/-- What is found where directories are missing is found when they are made. -/
theorem find_makeDirectories {found : String} (h : f.find found = .ok node) :
    (f.makeDirectories path).2.find found = .ok node := by
  refine makeDirectories_invariant (I := fun g => g.find found = .ok node) h
    fun g place hg hnone _ => find_of_agreeOutside hnone (fun other hbelow => ?_) hg
  rw [node?_putDirectory g (not_isTop_of_node? (f := g) (by simp [hnone])), if_neg, if_neg hbelow]
  rintro rfl
  exact hbelow (List.prefix_refl _)

/-- What stands anywhere after directories were made stood there, or it is a directory on the way.
-/
theorem node?_makeDirectories (f : Files) (path : String) (q : Place) :
    (f.makeDirectories path).2.node? q = none ∨
      (f.makeDirectories path).2.node? q = f.node? q ∨
      ((f.makeDirectories path).2.node? q = some .directory ∧
        OnWay (top path) (pathNames path.toList) q) := by
  refine makeDirectories_invariant (I := fun g => g.node? q = none ∨ g.node? q = f.node? q ∨
    (g.node? q = some .directory ∧ OnWay (top path) (pathNames path.toList) q))
    (.inr (.inl rfl)) fun g place hg hnone hway => ?_
  rw [node?_putDirectory g (not_isTop_of_node? (f := g) (by simp [hnone]))]
  split
  · rename_i hplace
    exact .inr (.inr ⟨rfl, hplace ▸ hway⟩)
  · split
    · exact .inl rfl
    · exact hg

/-- There are no entries at the tops but those that were there. -/
theorem mem_nodes_makeDirectories {entry : Place × Node} (htop : IsTop entry.1)
    (h : entry ∈ (f.makeDirectories path).2.nodes) : entry ∈ f.nodes := by
  revert h
  refine makeDirectories_invariant (I := fun g => entry ∈ g.nodes → entry ∈ f.nodes) id
    fun g place hg hnone _ hentry => hg ?_
  rcases List.mem_cons.1 hentry with rfl | hentry
  · exact absurd htop (not_isTop_of_node? (f := g) (by simp [hnone]))
  · exact (List.mem_filter.1 (List.mem_filter.1 hentry).1).1

/-! ## What is listed -/

theorem mem_insertName {name other : String} {list : List String} :
    other ∈ insertName name list ↔ other = name ∨ other ∈ list := by
  induction list with
  | nil => simp [insertName]
  | cons first rest ih =>
    unfold insertName
    split
    · exact List.mem_cons
    · rw [List.mem_cons, ih, List.mem_cons, or_left_comm]

/-- A name is in a directory if there is an entry for it. -/
theorem mem_children {name : String} :
    name ∈ f.children place ↔ ∃ entry ∈ f.nodes, entry.1 = place ++ [name] := by
  unfold children
  induction f.nodes with
  | nil => simp
  | cons entry rest ih =>
    simp only [List.mem_cons, or_and_right, exists_or, exists_eq_left]
    rw [List.foldr_cons, ← ih]
    -- The key of an entry is its directory and its name.
    have hkey : entry.1 = place ++ [name] ↔
        entry.1.dropLast = place ∧ entry.1.getLast? = some name := by
      constructor
      · intro h
        rw [h, List.dropLast_concat, List.getLast?_concat]
        exact ⟨rfl, rfl⟩
      · rintro ⟨rfl, hlast⟩
        obtain ⟨before, hbefore⟩ := List.getLast?_eq_some_iff.1 hlast
        rw [hbefore, List.dropLast_concat]
    rw [hkey]
    split
    · -- An entry of the directory has a name in it, unless it is the directory at the top.
      rename_i hdir
      split
      · rename_i last hlast
        rw [mem_insertName, hlast, Option.some_inj, eq_comm]
        simp [hdir]
      · rename_i hlast
        simp [hlast]
    · rename_i hdir
      simp [hdir]

/-- Below the tops a name is in a directory if something stands at its place. -/
theorem mem_children_of_node? {name : String} (htop : ¬IsTop (place ++ [name])) :
    name ∈ f.children place ↔ f.node? (place ++ [name]) ≠ none := by
  rw [mem_children]
  constructor
  · rintro ⟨entry, hentry, hkey⟩ hnone
    exact fst_ne_of_node? hnone hentry hkey
  · refine fun hsome => Decidable.byContradiction fun hnot => hsome ?_
    rw [node?_of_not_isTop f htop, List.lookup_eq_none_iff]
    exact fun entry hentry => bne_iff_ne.2 fun same => hnot ⟨entry, hentry, same.symm⟩

/-- What is new in a directory when the directories of a path are made is a directory with a name of
the path. If the path never goes up, the directory where it leads holds nothing new. -/
theorem children_makeDirectories {name : String}
    (h : name ∈ (f.makeDirectories path).2.children place) :
    name ∈ f.children place ∨
      ((f.makeDirectories path).2.node? (place ++ [name]) = some .directory ∧
        name ∈ pathNames path.toList ∧
        (".." ∉ pathNames path.toList →
          place ≠ top path ++ (pathNames path.toList).filter (· ≠ "."))) := by
  by_cases htop : IsTop (place ++ [name])
  · -- Nothing is made at a top.
    obtain ⟨entry, hmem, hkey⟩ := mem_children.1 h
    exact .inl (mem_children.2 ⟨entry, mem_nodes_makeDirectories (hkey ▸ htop) hmem, hkey⟩)
  rw [mem_children_of_node? htop] at h ⊢
  rcases node?_makeDirectories f path (place ++ [name]) with hnone | hold | ⟨hnew, hway⟩
  · exact absurd hnone h
  · exact .inl (hold ▸ h)
  · refine .inr ⟨hnew, ?_, fun hup hplace => ?_⟩
    · obtain ⟨r, last, hlast, hkey⟩ := hway.named
      obtain ⟨-, hsame⟩ := List.append_inj' hkey rfl
      exact (List.cons.inj hsame).1 ▸ hlast
    · -- What is made on the way is not longer than the way, so it is not in the last directory.
      have hlength := (hway.towards hup).length_le
      rw [← hplace, List.length_append, List.length_singleton] at hlength
      omega

end UnitLoader.Files
