import UnitLoader.Text.Replace

/-!
# Replacing, cutting and joining

What `replace` and `splitOn` do to a text that is put together of parts. Texts that are joined by a
separator of which the first character is in none of them are cut into the same texts again
(`splitOn_join`), and with the separator replaced they are joined by another (`replace_join`).
-/

namespace UnitLoader.Text

/-! ## Replacing -/

section

variable {pattern replacement text before front : List Char} {c d : Char}

/-- What is left of an occurrence is passed over. -/
theorem replaceFrom_length (pattern replacement occurrence behind : List Char) :
    replaceFrom pattern replacement occurrence.length (occurrence ++ behind) =
      replaceFrom pattern replacement 0 behind := by
  induction occurrence with
  | nil => rfl
  | cons c rest ih => exact ih

/-- An occurrence in front is replaced. -/
theorem replace_occurrence (c : Char) (pattern replacement behind : List Char) :
    replace (c :: pattern) replacement (c :: pattern ++ behind) =
      replacement ++ replace (c :: pattern) replacement behind := by
  have hfront : (c :: pattern).isPrefixOf (c :: (pattern ++ behind)) = true :=
    List.isPrefixOf_iff_prefix.2 (List.prefix_append (c :: pattern) behind)
  rw [replace, List.cons_append, replaceFrom, if_pos hfront, List.length_cons, Nat.add_sub_cancel,
    replaceFrom_length, replace]

/-- Where none is in front, the first character stays. -/
theorem replace_cons (h : ¬ pattern <+: c :: text) :
    replace pattern replacement (c :: text) = c :: replace pattern replacement text := by
  rw [replace, replaceFrom, if_neg (mt List.isPrefixOf_iff_prefix.1 h), replace]

/-- A text that lacks a character of the pattern stays as it is. -/
theorem replace_of_not_mem (hc : c ∈ pattern) (h : c ∉ text) :
    replace pattern replacement text = text := by
  induction text with
  | nil => rfl
  | cons d rest ih =>
    rw [replace_cons fun hfront => h (hfront.subset hc), ih (List.not_mem_of_not_mem_cons h)]

/-- So does a front that lacks the first one. -/
theorem replace_append_of_not_mem (h : c ∉ before) (behind : List Char) :
    replace (c :: pattern) replacement (before ++ behind) =
      before ++ replace (c :: pattern) replacement behind := by
  induction before with
  | nil => rfl
  | cons d rest ih =>
    have hne : c ≠ d := List.ne_of_not_mem_cons h
    rw [List.cons_append, replace_cons, ih (List.not_mem_of_not_mem_cons h), List.cons_append]
    exact fun hfront => hne (List.cons_prefix_cons.1 hfront).1

/-- So does a front that lacks the second one, up to an occurrence. -/
theorem replace_append_occurrence (hcd : c ≠ d) (h : d ∉ before) (behind : List Char) :
    replace (c :: d :: pattern) replacement (before ++ (c :: d :: pattern ++ behind)) =
      before ++ (replacement ++ replace (c :: d :: pattern) replacement behind) := by
  induction before with
  | nil => exact replace_occurrence c (d :: pattern) replacement behind
  | cons first rest ih =>
    rw [List.cons_append, replace_cons, ih (List.not_mem_of_not_mem_cons h), List.cons_append]
    intro hfront
    -- An occurrence would have its second character in the front, or at the first one of the other.
    obtain ⟨-, hfront⟩ := List.cons_prefix_cons.1 hfront
    cases rest with
    | nil => exact hcd (List.cons_prefix_cons.1 hfront).1.symm
    | cons second rest =>
      refine h (List.mem_cons_of_mem _ ?_)
      rw [(List.cons_prefix_cons.1 hfront).1]
      exact List.mem_cons_self

/-- Parts of a text are replaced apart from each other, if no occurrence goes on behind the last
character of the first part. -/
theorem replace_append (hne : pattern ≠ []) (hfront : ∀ c ∈ front.getLast?, c ∉ pattern.dropLast)
    (text : List Char) :
    replace pattern replacement (front ++ text) =
      replace pattern replacement front ++ replace pattern replacement text := by
  induction hlength : front.length using Nat.strongRecOn generalizing front with
  | _ length ih =>
  subst hlength
  obtain ⟨first, rest, rfl⟩ := List.exists_cons_of_ne_nil hne
  cases front with
  | nil => rfl
  | cons c front =>
    -- What is left of the front has the same last character, so the assumption is kept.
    have hlast {behind : List Char} (hbehind : behind <:+ c :: front) :
        ∀ c ∈ behind.getLast?, c ∉ (first :: rest).dropLast := by
      obtain ⟨before, hbefore⟩ := hbehind
      rw [← hbefore, List.getLast?_append] at hfront
      exact fun d hd => hfront d (by rw [Option.mem_def.1 hd]; rfl)
    -- An occurrence that starts in the front ends there, so what is left of it is shorter.
    by_cases hstarts : first :: rest <+: c :: front
    · obtain ⟨behind, hbehind⟩ := hstarts
      have hshorter : behind.length < (c :: front).length := by
        rw [← hbehind, List.length_append, List.length_cons]
        omega
      rw [← hbehind, List.append_assoc, replace_occurrence, replace_occurrence,
        ih _ hshorter (hlast ⟨_, hbehind⟩) rfl, List.append_assoc]
    · have hnot : ¬ first :: rest <+: c :: (front ++ text) := by
        intro hlong
        have hfront' : c :: front <+: c :: (front ++ text) := List.prefix_append (c :: front) text
        rcases List.prefix_or_prefix_of_prefix hlong hfront' with h | ⟨more, hmore⟩
        · exact hstarts h
        · -- The front would go on in the pattern.
          have hne : more ≠ [] := by
            rintro rfl
            rw [List.append_nil] at hmore
            exact hstarts (hmore ▸ List.prefix_rfl)
          have hmem : (c :: front).getLast (List.cons_ne_nil c front) ∈
              (first :: rest).dropLast := by
            rw [← hmore, List.dropLast_append_of_ne_nil hne]
            exact List.mem_append_left _ (List.getLast_mem _)
          exact hfront _ (List.getLast?_eq_some_getLast _) hmem
      rw [List.cons_append, replace_cons hnot, replace_cons hstarts,
        ih _ (Nat.lt_succ_self _) (hlast (List.suffix_cons _ _)) rfl, List.cons_append]

/-- Texts with a separator between them, as the first one and the others behind it. -/
theorem join_cons (separator first : List Char) (others : List (List Char)) :
    join separator (first :: others) = first ++ others.flatMap (separator ++ ·) := by
  induction others generalizing first with
  | nil => exact (List.append_nil first).symm
  | cons second others ih =>
    rw [join, ih, List.flatMap_cons, List.append_assoc, List.append_assoc]
    exact List.cons_ne_nil second others

end

/-! ## Cutting -/

section

variable {separator : List Char} {text : List Char} {c d : Char}

/-- What is left of a separator is passed over. -/
theorem splitOnFrom_length (separator occurrence behind : List Char) :
    splitOnFrom separator occurrence.length (occurrence ++ behind) =
      splitOnFrom separator 0 behind := by
  induction occurrence with
  | nil => rfl
  | cons d rest ih => exact ih

/-- At a separator a text is cut. -/
theorem splitOn_occurrence (c : Char) (separator behind : List Char) :
    splitOn (c :: separator) (c :: separator ++ behind) =
      [] :: splitOn (c :: separator) behind := by
  have hfront : (c :: separator).isPrefixOf (c :: (separator ++ behind)) = true :=
    List.isPrefixOf_iff_prefix.2 (List.prefix_append (c :: separator) behind)
  rw [splitOn, List.cons_append, splitOnFrom, if_pos hfront, List.length_cons, Nat.add_sub_cancel,
    splitOnFrom_length, splitOn]

/-- Another character goes to the first piece. -/
theorem splitOn_cons_of_ne (h : c ≠ d) {first : List Char} {others : List (List Char)}
    (htext : splitOn (c :: separator) text = first :: others) :
    splitOn (c :: separator) (d :: text) = (d :: first) :: others := by
  have hnot : ¬ (c :: separator).isPrefixOf (d :: text) = true := fun hfront =>
    h (List.cons_prefix_cons.1 (List.isPrefixOf_iff_prefix.1 hfront)).1
  rw [splitOn] at htext ⊢
  rw [splitOnFrom, if_neg hnot, htext]

/-- A text without the first character of the separator is part of one piece. -/
theorem splitOn_append_of_not_mem {behind first : List Char} {others : List (List Char)}
    (h : c ∉ text) (hbehind : splitOn (c :: separator) behind = first :: others) :
    splitOn (c :: separator) (text ++ behind) = (text ++ first) :: others := by
  induction text with
  | nil => exact hbehind
  | cons d rest ih =>
    exact splitOn_cons_of_ne (List.ne_of_not_mem_cons h) (ih (List.not_mem_of_not_mem_cons h))

/-- Joined texts are cut into the same texts. -/
theorem splitOn_join {texts : List (List Char)} (hne : texts ≠ []) (h : ∀ text ∈ texts, c ∉ text) :
    splitOn (c :: separator) (join (c :: separator) texts) = texts := by
  induction texts with
  | nil => exact absurd rfl hne
  | cons first others ih =>
    obtain ⟨hfirst, hothers⟩ := List.forall_mem_cons.1 h
    cases others with
    | nil =>
      have hnil : splitOn (c :: separator) [] = [[]] := rfl
      have hend := splitOn_append_of_not_mem hfirst hnil
      rwa [List.append_nil] at hend
    | cons second rest =>
      have hrest := ih (List.cons_ne_nil second rest) hothers
      have hcut := splitOn_append_of_not_mem hfirst
        ((splitOn_occurrence c separator _).trans (congrArg ([] :: ·) hrest))
      rwa [List.append_nil, ← List.append_assoc] at hcut

/-- Where the separator of joined texts is replaced, they are joined by what replaces it. -/
theorem replace_join {texts : List (List Char)} (replacement : List Char)
    (h : ∀ text ∈ texts, c ∉ text) :
    replace (c :: separator) replacement (join (c :: separator) texts) =
      join replacement texts := by
  induction texts with
  | nil => rfl
  | cons first others ih =>
    obtain ⟨hfirst, hothers⟩ := List.forall_mem_cons.1 h
    cases others with
    | nil => exact replace_of_not_mem List.mem_cons_self hfirst
    | cons second rest =>
      change replace _ _ (first ++ (c :: separator) ++ join _ (second :: rest)) =
        first ++ replacement ++ join replacement (second :: rest)
      rw [List.append_assoc, replace_append_of_not_mem hfirst, replace_occurrence, ih hothers,
        List.append_assoc]

end

end UnitLoader.Text
