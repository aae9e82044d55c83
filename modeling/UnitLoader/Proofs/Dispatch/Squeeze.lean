import UnitLoader.Dispatch.TypeText
import UnitLoader.Proofs.Syntax.Literal
import UnitLoader.Proofs.Text.Replace

/-!
# What tightening leaves of a text

Every replacement of `tightenings` takes out spaces next to certain marks and nothing else:
`Squeezes` is what any of them does to any text (`squeezes_replace`). It does not stop at literals.
What is left of a literal is a literal of the same kind (`IsLiteral.squeezes`), but it may be
another one. A literal does not start or end with a space or a mark at which one is taken out, so
what happens inside of it does not depend on what stands around it (`replace_append`).
-/

namespace UnitLoader

namespace Dispatch

open Text

/-- A space in front of these may be taken out. -/
def tightBefore : List Char := ['<', '>', ',', ')', ']', ';', ':']

/-- A space behind these may be taken out. -/
def tightBehind : List Char := ['&', '<', '(', '[', ':']

/-- A text without some of the spaces next to these marks. -/
inductive Squeezes : List Char → List Char → Prop
  | nil : Squeezes [] []
  | keep (c : Char) {text out : List Char} : Squeezes text out → Squeezes (c :: text) (c :: out)
  | before {c : Char} {text out : List Char} : c ∈ tightBefore → Squeezes (c :: text) out →
    Squeezes (' ' :: c :: text) out
  | behind {c : Char} {text out : List Char} : c ∈ tightBehind → Squeezes text out →
    Squeezes (c :: ' ' :: text) (c :: out)

variable {pattern replacement text rest out front : List Char} {c : Char}

/-! ## Replacements -/

/-- The replacement of the pattern takes out spaces next to the marks only. -/
def Tightens (pattern replacement : List Char) : Prop :=
  pattern ≠ [] ∧ ∀ {text out : List Char}, Squeezes text out →
    Squeezes (pattern ++ text) (replacement ++ out)

theorem tightens_before (hc : c ∈ tightBefore) : Tightens [' ', c] [c] :=
  ⟨List.cons_ne_nil _ _, fun h => .before hc (.keep c h)⟩

theorem tightens_behind (hc : c ∈ tightBehind) : Tightens [c, ' '] [c] :=
  ⟨List.cons_ne_nil _ _, fun h => .behind hc h⟩

theorem tightens_around (hbefore : c ∈ tightBefore) (hbehind : c ∈ tightBehind) :
    Tightens [' ', c, c, ' '] [c, c] :=
  ⟨List.cons_ne_nil _ _, fun h => .before hbefore (.keep c (.behind hbehind h))⟩

theorem tightens_pair (hbehind : c ∈ tightBehind) : Tightens [c, c, ' '] [c, c] :=
  ⟨List.cons_ne_nil _ _, fun h => .keep c (.behind hbehind h)⟩

/-- All of the replacements do. -/
theorem tightens_of_mem_tightenings :
    ∀ t ∈ tightenings, Tightens t.1.toList t.2.toList := by
  simp only [tightenings, List.forall_mem_cons]
  exact ⟨tightens_around (by decide) (by decide), tightens_pair (by decide),
    tightens_behind (by decide), tightens_before (by decide), tightens_behind (by decide),
    tightens_before (by decide), tightens_before (by decide), tightens_behind (by decide),
    tightens_before (by decide), tightens_behind (by decide), tightens_before (by decide),
    tightens_before (by decide), fun _ h => absurd h List.not_mem_nil⟩

/-- What is left of a text of which the first characters are replaced already. -/
theorem squeezes_replaceFrom (h : Tightens pattern replacement) {skip : Nat}
    (hskip : skip ≤ text.length) :
    Squeezes (text.drop skip) (replaceFrom pattern replacement skip text) := by
  induction text generalizing skip with
  | nil =>
    rw [List.drop_nil, replaceFrom]
    exact .nil
  | cons c text ih =>
    cases skip with
    | succ skip => exact ih (Nat.le_of_succ_le_succ hskip)
    | zero =>
      rw [replaceFrom, List.drop_zero]
      split
      · rename_i hfront
        obtain ⟨hne, htightens⟩ := h
        obtain ⟨behind, hbehind⟩ := List.isPrefixOf_iff_prefix.1 hfront
        obtain ⟨first, pattern, rfl⟩ := List.exists_cons_of_ne_nil hne
        rw [List.cons_append] at hbehind
        -- The pattern stands here, and what is left of it is skipped.
        obtain ⟨rfl, rfl⟩ := List.cons.inj hbehind
        have hrest := @ih pattern.length (by simp)
        rw [List.drop_left] at hrest
        exact htightens hrest
      · exact .keep c (ih (Nat.zero_le _))

theorem squeezes_replace (h : Tightens pattern replacement) (text : List Char) :
    Squeezes text (replace pattern replacement text) :=
  squeezes_replaceFrom h (Nat.zero_le _)

/-- One replacement after the other. -/
def replaceAll (patterns : List (String × String)) (text : List Char) : List Char :=
  patterns.foldl (fun text t => replace t.1.toList t.2.toList text) text

/-- Tightening is all of the replacements. -/
theorem tighten_eq_replaceAll (text : List Char) : tighten text = replaceAll tightenings text := rfl

/-! ## What is taken out -/

/-- At its first character a text is kept, or a space is taken out there or behind it. -/
theorem Squeezes.cons_cases (h : Squeezes (c :: text) out) :
    (∃ out', out = c :: out' ∧ Squeezes text out') ∨
    (c = ' ' ∧ (∃ d ∈ tightBefore, text.head? = some d) ∧ Squeezes text out) ∨
    (c ∈ tightBehind ∧ ∃ text' out', text = ' ' :: text' ∧ out = c :: out' ∧
      Squeezes text' out') := by
  cases h with
  | keep _ h => exact .inl ⟨_, rfl, h⟩
  | before hc h => exact .inr (.inl ⟨rfl, ⟨_, hc, rfl⟩, h⟩)
  | behind hc h => exact .inr (.inr ⟨hc, _, _, rfl, rfl, h⟩)

/-- No space is taken out at such a character or behind it. -/
def isFirm (c : Char) : Bool := c != ' ' && !tightBehind.contains c

theorem isFirm_iff : isFirm c = true ↔ c ≠ ' ' ∧ c ∉ tightBehind := by
  simp [isFirm]

theorem Squeezes.cons_of_isFirm (hc : isFirm c = true) (h : Squeezes (c :: text) out) :
    ∃ out', out = c :: out' ∧ Squeezes text out' := by
  obtain ⟨hspace, hbehind⟩ := isFirm_iff.1 hc
  rcases h.cons_cases with h | ⟨rfl, -⟩ | ⟨hc, -⟩
  · exact h
  · exact absurd rfl hspace
  · exact absurd hc hbehind

/-- So a front of them stays. -/
theorem Squeezes.append_of_isFirm (front : List Char) (hfront : ∀ c ∈ front, isFirm c = true)
    (h : Squeezes (front ++ text) out) : ∃ out', out = front ++ out' ∧ Squeezes text out' := by
  induction front generalizing out with
  | nil => exact ⟨out, rfl, h⟩
  | cons c front ih =>
    obtain ⟨hc, hfront⟩ := List.forall_mem_cons.1 hfront
    rw [List.cons_append] at h
    obtain ⟨out, rfl, hrest⟩ := h.cons_of_isFirm hc
    obtain ⟨out, rfl, htext⟩ := ih hfront hrest
    exact ⟨out, rfl, htext⟩

/-- A text without spaces stays. -/
theorem Squeezes.eq_of_not_mem (hspace : ' ' ∉ text) (h : Squeezes text out) : out = text := by
  induction h with
  | nil => rfl
  | keep c _ ih => rw [ih (List.not_mem_of_not_mem_cons hspace)]
  | before => exact absurd List.mem_cons_self hspace
  | behind => exact absurd (List.mem_cons_of_mem _ List.mem_cons_self) hspace

/-- Behind a firm character the parts of a text are squeezed apart from each other. -/
theorem Squeezes.append_cases (hfront : ∀ c ∈ front.getLast?, isFirm c = true)
    (h : Squeezes (front ++ text) out) :
    ∃ front' text', out = front' ++ text' ∧ Squeezes front front' ∧ Squeezes text text' := by
  induction hlength : front.length using Nat.strong_induction_on generalizing front out with
  | _ length ih =>
  subst hlength
  match front with
  | [] => exact ⟨[], out, rfl, .nil, h⟩
  | [c] =>
    obtain ⟨out', rfl, htext⟩ := h.cons_of_isFirm (hfront c rfl)
    exact ⟨[c], out', rfl, .keep c .nil, htext⟩
  | c :: d :: front =>
    have hlast : ∀ c ∈ (d :: front).getLast?, isFirm c = true := hfront
    rcases h.cons_cases with ⟨out', rfl, hrest⟩ | ⟨rfl, ⟨_, hbefore, hhead⟩, hrest⟩ |
      ⟨hc, rest, out', hrest, rfl, hout⟩
    · -- The first character is kept,
      obtain ⟨front', text', rfl, hfront', htext'⟩ := ih _ (by simp) hlast hrest rfl
      exact ⟨c :: front', text', rfl, .keep c hfront', htext'⟩
    · -- or it is a space that goes in front of a mark,
      obtain rfl := Option.some.inj hhead
      obtain ⟨front', text', rfl, hfront', htext'⟩ := ih _ (by simp) hlast hrest rfl
      exact ⟨front', text', rfl, .before hbefore hfront', htext'⟩
    · -- or a mark behind which a space goes.
      obtain ⟨rfl, rfl⟩ := List.cons.inj hrest
      -- The space that is taken out does not end the front.
      cases front with
      | nil => exact absurd (hfront ' ' rfl) (by decide)
      | cons e front =>
        have hlast : ∀ c ∈ (e :: front).getLast?, isFirm c = true := hfront
        obtain ⟨front', text', rfl, hfront', htext'⟩ :=
          ih (e :: front).length (by simp) hlast hout rfl
        exact ⟨c :: front', text', rfl, .behind hc hfront', htext'⟩

/-- Text without spaces behind it stays as it is. -/
theorem Squeezes.append_of_not_mem (hfront : ∀ c ∈ front.getLast?, isFirm c = true)
    (hspace : ' ' ∉ text) (h : Squeezes (front ++ text) out) :
    ∃ front', out = front' ++ text ∧ Squeezes front front' := by
  obtain ⟨front', text', rfl, hfront', htext'⟩ := h.append_cases hfront
  exact ⟨front', by rw [htext'.eq_of_not_mem hspace], hfront'⟩

theorem Squeezes.head?_eq (hc : c ≠ ' ') (h : Squeezes (c :: text) out) : out.head? = some c := by
  rcases h.cons_cases with ⟨out, rfl, -⟩ | ⟨hspace, -⟩ | ⟨-, text, out, -, rfl, -⟩
  · rfl
  · exact absurd hspace hc
  · rfl

end Dispatch

namespace Syntax

/-! ## Literals -/

open Dispatch

variable {text out : List Char} {c : Char}

section

variable {kind : LiteralKind} {body suffix : List Char} {hashes : Nat}

/-- The characters of an escape are firm. -/
theorem isFirm_of_isEscapePart (h : isEscapePart c = true) : isFirm c = true := by
  have hnone : ∀ d ∈ ' ' :: tightBehind, isEscapePart d = false := by decide
  refine isFirm_iff.2 ⟨?_, fun hmem => ?_⟩
  · rintro rfl
    exact absurd h (by decide)
  · rw [hnone c (List.mem_cons_of_mem _ hmem)] at h
    contradiction

/-- A literal stays one without a space in front. -/
theorem Quoted.of_space (h : Quoted kind (' ' :: body)) : Quoted kind body := by
  cases h with
  | plain _ _ _ _ h => exact h

theorem Quoted.squeezes (h : Quoted kind body) (hout : Squeezes body out) : Quoted kind out := by
  induction h generalizing out with
  | close =>
    rw [hout.eq_of_not_mem (by decide)]
    exact .close
  | plain hc hquote hreturn hslash hbody ih =>
    rcases hout.cons_cases with ⟨_, rfl, hrest⟩ | ⟨-, -, hrest⟩ | ⟨-, _, _, rfl, rfl, hrest⟩
    · exact .plain hc hquote hreturn hslash (ih hrest)
    · exact ih hrest
    · -- The space is kept for the induction, and taken out of what that gives.
      exact .plain hc hquote hreturn hslash (ih (.keep ' ' hrest)).of_space
  | line hbody ih =>
    obtain ⟨out', rfl, hrest⟩ := hout.append_of_isFirm ['\r', '\n'] (by decide)
    exact .line (ih hrest)
  | escape hescape hbody ih =>
    obtain ⟨out', rfl, hrest⟩ := hout.append_of_isFirm ('\\' :: _)
      (List.forall_mem_cons.2 ⟨by decide, fun c hc => isFirm_of_isEscapePart (hescape.parts c hc)⟩)
    exact .escape hescape (ih hrest)
  | @continuation c body hc hbody ih =>
    -- Both line ends are firm, so no space goes in front of what continues.
    have hfirm : isFirm c = true := by rcases hc with rfl | rfl <;> decide
    obtain ⟨out', rfl, hrest⟩ := hout.cons_of_isFirm (by decide)
    obtain ⟨out, rfl, -⟩ := hrest.cons_of_isFirm hfirm
    exact .continuation hc (ih hrest)

/-- No hash signs come together. -/
theorem prefix_of_squeezes (h : Squeezes text out) (hstarts : List.replicate hashes '#' <+: out) :
    List.replicate hashes '#' <+: text := by
  induction hashes generalizing text out with
  | zero => exact List.nil_prefix
  | succ hashes ih =>
    obtain ⟨rest, rfl⟩ := hstarts
    cases h with
    | keep _ h => exact List.cons_prefix_cons.2 ⟨rfl, ih h (List.prefix_append _ _)⟩
    | before hc h =>
      have hhead := h.head?_eq (by rintro rfl; exact absurd hc (by decide))
      obtain rfl := Option.some.inj hhead
      exact absurd hc (by decide)
    | behind hc h => exact absurd hc (by decide)

theorem RawBody.of_space (h : RawBody kind hashes (' ' :: body)) : RawBody kind hashes body := by
  cases h with
  | plain _ _ _ h => exact h

theorem RawBody.squeezes (h : RawBody kind hashes body) (hout : Squeezes body out) :
    RawBody kind hashes out := by
  induction h generalizing out with
  | close =>
    rw [hout.eq_of_not_mem (by simp [List.mem_replicate])]
    exact .close
  | quote hstarts hbody ih =>
    obtain ⟨out', rfl, hrest⟩ := hout.cons_of_isFirm (by decide)
    exact .quote (fun h => hstarts (prefix_of_squeezes hrest h)) (ih hrest)
  | line hbody ih =>
    obtain ⟨out', rfl, hrest⟩ := hout.append_of_isFirm ['\r', '\n'] (by decide)
    exact .line (ih hrest)
  | plain hc hquote hreturn hbody ih =>
    rcases hout.cons_cases with ⟨_, rfl, hrest⟩ | ⟨-, -, hrest⟩ | ⟨-, _, _, rfl, rfl, hrest⟩
    · exact .plain hc hquote hreturn (ih hrest)
    · exact ih hrest
    · exact .plain hc hquote hreturn (ih (.keep ' ' hrest)).of_space

/-- A character literal stays as it is. -/
theorem CharacterBody.squeezes (h : CharacterBody kind body) (hout : Squeezes body out) :
    out = body := by
  cases h with
  | @plain c hc hslash =>
    rcases hout.cons_cases with ⟨out', rfl, hrest⟩ | ⟨-, ⟨d, hd, hhead⟩, -⟩ | ⟨-, _, _, hrest, -⟩
    · rw [hrest.eq_of_not_mem (by decide)]
    · obtain rfl := Option.some.inj hhead
      exact absurd hd (by decide)
    · exact absurd (List.cons.inj hrest).1 (by decide)
  | escape hescape =>
    refine hout.eq_of_not_mem fun hmem => ?_
    rcases List.mem_cons.1 hmem with hspace | hmem
    · exact absurd hspace (by decide)
    · rcases List.mem_append.1 hmem with hmem | hmem
      · exact absurd (hescape.parts _ hmem) (by decide)
      · exact absurd hmem (by decide)

/-- The literal that is left is one of the same kind. -/
theorem IsLiteral.squeezes (h : IsLiteral text) (hout : Squeezes text out) : IsLiteral out := by
  have hletters (kind : LiteralKind) : ∀ c ∈ kind.letters, isFirm c = true := by
    cases kind <;> decide
  have hspace {suffix : List Char} (hsuffix : IsSuffix suffix) : ' ' ∉ suffix := fun hmem =>
    hsuffix.not_mem ' ' hmem (by decide)
  cases h with
  | @quoted kind body suffix hbody hsuffix =>
    obtain ⟨out, rfl, hquote⟩ := hout.append_of_isFirm _ (hletters kind)
    obtain ⟨out, rfl, hbehind⟩ := hquote.cons_of_isFirm (by decide)
    -- The body ends with the closing quote, so the suffix is squeezed apart from it.
    have hlast : ∀ c ∈ body.getLast?, isFirm c = true := by
      rw [hbody.getLast?]
      rintro c ⟨⟩
      decide
    obtain ⟨body', rfl, hbody'⟩ := hbehind.append_of_not_mem hlast (hspace hsuffix)
    exact .quoted (hbody.squeezes hbody') hsuffix
  | @raw kind hashes body suffix hle hbody hsuffix =>
    have hhashes : ∀ c ∈ List.replicate hashes '#', isFirm c = true := by
      intro c hc
      rw [List.eq_of_mem_replicate hc]
      decide
    obtain ⟨out, rfl, hletter⟩ := hout.append_of_isFirm _ (hletters kind)
    obtain ⟨out, rfl, hbehind⟩ := hletter.cons_of_isFirm (by decide)
    rw [List.append_assoc] at hbehind
    obtain ⟨out, rfl, hquote⟩ := hbehind.append_of_isFirm _ hhashes
    obtain ⟨out, rfl, hinside⟩ := hquote.cons_of_isFirm (by decide)
    -- It ends with the closing quote, or with the last hash sign behind it.
    have hlast : ∀ c ∈ body.getLast?, isFirm c = true := by
      obtain ⟨c, hlast, hc⟩ := hbody.getLast?
      rw [hlast]
      have hfirm : ∀ c ∈ ['"', '#'], isFirm c = true := by decide
      rintro d ⟨⟩
      exact hfirm c hc
    obtain ⟨body', rfl, hbody'⟩ := hinside.append_of_not_mem hlast (hspace hsuffix)
    have hraw := IsLiteral.raw hle (hbody.squeezes hbody') hsuffix
    rwa [List.append_assoc] at hraw
  | @character kind body suffix hkind hbody hsuffix =>
    -- Between the apostrophes is one character or an escape, and no space of it can go.
    obtain ⟨out, rfl, hquote⟩ := hout.append_of_isFirm _ (hletters kind)
    obtain ⟨out, rfl, hbehind⟩ := hquote.cons_of_isFirm (by decide)
    have hlast : ∀ c ∈ body.getLast?, isFirm c = true := by
      rw [hbody.getLast?]
      rintro c ⟨⟩
      decide
    obtain ⟨body', rfl, hbody'⟩ := hbehind.append_of_not_mem hlast (hspace hsuffix)
    rw [hbody.squeezes hbody']
    exact .character hkind hbody hsuffix
  | number h =>
    -- There is no space in a number.
    rw [hout.eq_of_not_mem fun hmem => h.not_mem ' ' hmem (by decide)]
    exact .number h
  | failed =>
    rw [hout.eq_of_not_mem (by decide)]
    exact .failed

theorem isFirm_of_not_mem_endMarks (h : c ∉ endMarks) : isFirm c = true := by
  have hmarks : ∀ d ∈ ' ' :: tightBehind, d ∈ endMarks := by decide
  refine isFirm_iff.2 ⟨?_, fun hmem => h (hmarks c (List.mem_cons_of_mem _ hmem))⟩
  rintro rfl
  exact h (hmarks ' ' List.mem_cons_self)

/-- A literal ends with a firm character: the closing quote, or the last one of a suffix or a
number. -/
theorem IsLiteral.isFirm_getLast? (h : IsLiteral text) : ∀ c ∈ text.getLast?, isFirm c = true := by
  -- The last character is that of the suffix, or that of the body if there is none.
  have hsuffixed {lead body suffix : List Char} (hsuffix : IsSuffix suffix)
      (hbody : ∃ c, body.getLast? = some c ∧ isFirm c = true) :
      ∀ c ∈ (lead ++ (body ++ suffix)).getLast?, isFirm c = true := by
    obtain ⟨d, hlast, hd⟩ := hbody
    intro c hc
    rw [List.getLast?_append, List.getLast?_append, hlast] at hc
    cases hend : suffix.getLast? with
    | none =>
      rw [hend] at hc
      obtain rfl := Option.some.inj hc
      exact hd
    | some e =>
      rw [hend] at hc
      obtain rfl := Option.some.inj hc
      exact isFirm_of_not_mem_endMarks (hsuffix.not_mem e (List.mem_of_getLast? hend))
  cases h with
  | @quoted kind body suffix hbody hsuffix =>
    rw [List.append_cons]
    exact hsuffixed hsuffix ⟨'"', hbody.getLast?, by decide⟩
  | @raw kind hashes body suffix hle hbody hsuffix =>
    obtain ⟨c, hlast, hc⟩ := hbody.getLast?
    have hfirm : ∀ c ∈ ['"', '#'], isFirm c = true := by decide
    rw [List.append_cons]
    refine hsuffixed hsuffix ⟨c, ?_, hfirm c hc⟩
    rw [List.getLast?_append, List.getLast?_cons, hlast]
    rfl
  | @character kind body suffix hkind hbody hsuffix =>
    rw [List.append_cons]
    exact hsuffixed hsuffix ⟨'\'', hbody.getLast?, by decide⟩
  | number h =>
    -- A number ends with a letter, a digit or a point, which are firm.
    exact fun c hc => isFirm_of_not_mem_endMarks (h.not_mem c (List.mem_of_getLast? hc))
  | failed =>
    rintro c ⟨⟩
    decide

end

end Syntax

end UnitLoader
