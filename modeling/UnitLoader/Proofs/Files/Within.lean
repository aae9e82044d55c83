import UnitLoader.Proofs.Files.MakeWay

/-!
# Files that differ below a place

While work goes on in a directory, files differ from what they were only below its place (`Within`),
and when it is taken away all that differed is gone. `Leaves` is what this comes to for a directory
that was made in a scratch root: no path tells the difference if the root was there
(`Leaves.lookAlike`). Otherwise everything that was there stays (`Leaves.find`), all that is new in
any directory has a name of the path of the root (`Leaves.children`), and unless that path goes up,
the root itself holds nothing new (`Leaves.children_root`).
-/

namespace UnitLoader.Files

variable {f g f' : Files} {place q : Place} {node : Node} {name : String}

/-- Files that differ at most below a place, where a directory stands now. -/
structure Within (place : Place) (f g : Files) : Prop where
  /-- A directory stands there. -/
  directory : g.node? place = some .directory
  /-- All else is the same. -/
  outside : g.remove place = f.remove place

/-- What is put at a place or below it goes when the place is removed. -/
theorem remove_put (h : place <+: q) (f : Files) (node : Node) :
    (f.put q node).remove place = f.remove place := by
  have hq : (!place.isPrefixOf q) = false := by simp [List.isPrefixOf_iff_prefix.2 h]
  unfold remove put
  rw [Files.mk.injEq, List.filter_cons_of_neg (by simp [hq]), List.filter_filter]
  refine List.filter_congr fun entry _ => ?_
  by_cases same : entry.1 = q
  · rw [same, hq, Bool.false_and]
  · rw [bne_iff_ne.2 same, Bool.and_true]

theorem remove_remove (f : Files) (place : Place) :
    (f.remove place).remove place = f.remove place := by
  unfold remove
  rw [Files.mk.injEq, List.filter_filter]
  simp only [Bool.and_self]

/-- A new directory changes nothing else. -/
theorem within_putDirectory (h : ¬IsTop place) (f : Files) :
    Within place f (f.putDirectory place) := by
  refine ⟨?_, ?_⟩
  · rw [node?_putDirectory f h, if_pos rfl]
  · rw [putDirectory, remove_put (List.prefix_refl place), remove_remove]

/-- Putting something into the directory changes nothing else. -/
theorem Within.put (h : Within place f g) (hplace : ¬IsTop place) (name : String) (node : Node) :
    Within place f (g.put (place ++ [name]) node) := by
  have hbelow : place <+: place ++ [name] := List.prefix_append place [name]
  have hentry : ¬IsTop (place ++ [name]) := fun htop => hplace (htop.of_prefix hbelow)
  refine ⟨?_, ?_⟩
  · rw [node?_put g hentry, if_neg, h.directory]
    exact fun same => List.cons_ne_nil _ _ (List.append_right_eq_self.1 same.symm)
  · rw [remove_put hbelow, h.outside]

/-- The same stands outside. -/
theorem Within.agreeOutside (h : Within place f g) (hplace : ¬IsTop place) :
    AgreeOutside place f g := by
  intro other hother
  have hg := node?_remove g hplace other
  rwa [if_neg hother, h.outside, node?_remove f hplace, if_neg hother, eq_comm] at hg

/-! ## What is left of a scratch directory -/

/-- The files with the directories of the scratch root, if one is configured. -/
def rooted (root : Option String) (f : Files) : Files :=
  match root with
  | none => f
  | some path => (f.makeDirectories path).2

/-- What a scratch directory leaves of files: the files themselves, if it did not come to one, or
those with the directories of the scratch root; and nothing below a place where nothing stood. -/
inductive Leaves (root : Option String) (f : Files) : Files → Prop where
  /-- Nothing was done. -/
  | untouched : Leaves root f f
  /-- There was no scratch directory in the root. -/
  | unopened : Leaves root f (f.rooted root)
  /-- There was one at the place. -/
  | closed (place : Place) (free : (f.rooted root).node? place = none) :
    Leaves root f ((f.rooted root).remove place)

variable {root : Option String} {path found : String}

/-- Where nothing stood, nothing is changed for paths. -/
theorem Leaves.cases (h : f.Leaves root f') :
    f' = f ∨ LookAlike (f.rooted root) f' := by
  cases h with
  | untouched => exact .inl rfl
  | unopened => exact .inr (lookAlike_refl _)
  | closed place free => exact .inr (lookAlike_remove free)

/-- The scratch root is there: it is the system's, or that of an empty path, or a directory. -/
def RootStands (root : Option String) (f : Files) : Prop :=
  ∀ path, root = some path → path = "" ∨ f.find path = .ok .directory

/-- Where the scratch root is there, no path tells the difference. -/
theorem Leaves.lookAlike (h : f.Leaves root f') (hroot : f.RootStands root) : LookAlike f f' := by
  -- On the way to a directory that is there, nothing is made.
  have hrooted : f.rooted root = f := by
    cases root with
    | none => rfl
    | some path =>
      rcases hroot path rfl with rfl | hfind
      · rfl
      · rw [rooted, makeDirectories_of_find hfind]
  rcases h.cases with rfl | hlook
  · exact lookAlike_refl f'
  · rwa [hrooted] at hlook

/-- Whatever was there is there. -/
theorem Leaves.find (h : f.Leaves root f') (hfind : f.find found = .ok node) :
    f'.find found = .ok node := by
  rcases h.cases with rfl | hlook
  · exact hfind
  · refine (hlook.find found node).2 ?_
    cases root with
    | none => exact hfind
    | some path => exact find_makeDirectories hfind

/-- Whatever is in a directory was in it, or is a directory of the path of the scratch root. -/
theorem Leaves.children (h : f.Leaves root f') (hname : name ∈ f'.children place) :
    name ∈ f.children place ∨ ∃ path, root = some path ∧
      f'.node? (place ++ [name]) = some .directory ∧ name ∈ pathNames path.toList ∧
      (".." ∉ pathNames path.toList →
        place ≠ top path ++ (pathNames path.toList).filter (· ≠ ".")) := by
  have hrooted (hname : name ∈ (f.rooted root).children place) :
      name ∈ f.children place ∨ ∃ path, root = some path ∧
        (f.rooted root).node? (place ++ [name]) = some .directory ∧ name ∈ pathNames path.toList ∧
        (".." ∉ pathNames path.toList →
          place ≠ top path ++ (pathNames path.toList).filter (· ≠ ".")) := by
    cases root with
    | none => exact .inl hname
    | some path => exact (children_makeDirectories hname).imp id fun hnew => ⟨path, rfl, hnew⟩
  cases h with
  | untouched => exact .inl hname
  | unopened => exact hrooted hname
  | closed opened free =>
    -- An entry that was not taken away is not below the place of the scratch directory.
    obtain ⟨entry, hentry, hkey⟩ := mem_children.1 hname
    obtain ⟨hmem, hkept⟩ := List.mem_filter.1 hentry
    have hopened : ¬IsTop opened := not_isTop_of_node? (f := f.rooted root) (by simp [free])
    have hbelow : ¬opened <+: place ++ [name] := fun hbelow => by
      rw [hkey, List.isPrefixOf_iff_prefix.2 hbelow] at hkept
      contradiction
    rw [node?_remove _ hopened, if_neg hbelow]
    exact hrooted (mem_children.2 ⟨entry, hmem, hkey⟩)

/-- If its path never goes up, the scratch root holds nothing new. -/
theorem Leaves.children_root (h : f.Leaves (some path) f') (hup : ".." ∉ pathNames path.toList)
    (hresolve : f'.resolve path = .ok place) (hname : name ∈ f'.children place) :
    name ∈ f.children place := by
  rcases h.children hname with hold | ⟨other, hother, -, -, hplace⟩
  · exact hold
  · obtain rfl := Option.some.inj hother
    exact absurd (resolve_of_not_up hup hresolve) (hplace hup)

end UnitLoader.Files
