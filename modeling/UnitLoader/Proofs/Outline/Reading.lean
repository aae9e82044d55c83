import UnitLoader.Outline.Scanner
import UnitLoader.Proofs.Outline.Lexeme
import UnitLoader.Proofs.Text.Slice

/-!
# How far a scanner reads

`Reads action front text n a` says of an action that it succeeds wherever a scanner stands between
`front` and `text`, that it gives `a`, and that the scanner then stands behind `n` characters of
`text`, having been at boundaries all the way. The byte offsets are gone from this statement: an
action that counts bytes reads whole characters if the bytes are theirs (`reads_advance`), and this
is what has to be shown of every mark, hash sign and terminator.

There is one rule for each way of combining actions (`Reads.bind`, `Reads.look`, `Reads.again`,
`Reads.done`), and then one statement for each action: it reads as many characters as the length
function of its lexeme says (`reads_blockComment`, `reads_quoted`, `reads_raw_some`,
`reads_apostrophe`). The loops end because each of their turns goes forward (`Forward`): what it
reads is at least one byte, so a turn for every byte is enough (`Reads.again`).
-/

namespace UnitLoader.Outline

open UnitLoader.Text

/-- A scanner stands between two parts of its text, and so it did before. -/
structure Scanner.At (s : Scanner) (front behind : List Char) : Prop where
  /-- The parts are the text. -/
  text : s.text = front ++ behind
  /-- The offset is that of the place between them. -/
  pos : s.pos = byteLength front
  /-- The offsets before were boundaries. -/
  visited : ∀ offset ∈ s.visited, IsBoundary s.text offset

theorem Scanner.at_start (text : List Char) : (Scanner.start text).At [] text :=
  ⟨rfl, rfl, by simp [Scanner.start]⟩

/-- A scanner that stands between two parts of its text has been at boundaries only. -/
theorem Scanner.At.isBoundary {s : Scanner} {front behind : List Char} (h : s.At front behind) :
    ∀ offset ∈ s.pos :: s.visited, IsBoundary s.text offset := by
  refine List.forall_mem_cons.2 ⟨?_, h.visited⟩
  rw [h.text, h.pos]
  exact isBoundary_byteLength front behind

namespace Scan

variable {α β : Type} {action : Scan α} {front text : List Char} {n m k : Nat} {a : α}

/-- Wherever a scanner stands between `front` and `text`, an action succeeds, gives `a`, and leaves
the scanner behind `n` characters of `text`. -/
def Reads (action : Scan α) (front text : List Char) (n : Nat) (a : α) : Prop :=
  ∀ s : Scanner, s.At front text →
    ∃ s', action s = some (a, s') ∧ s'.At (front ++ text.take n) (text.drop n)

/-! ## One action after the other -/

theorem reads_pure (a : α) : Reads (pure a) front text 0 a := fun s hs =>
  ⟨s, rfl, by rwa [List.take_zero, List.append_nil, List.drop_zero]⟩

/-- The second action goes on where the first one has stopped, unless it has failed. -/
theorem run_bind (action : Scan α) (then_ : α → Scan β) (s : Scanner) :
    (action >>= then_) s = (action s).bind fun stopped => then_ stopped.1 stopped.2 := rfl

theorem Reads.bind {then_ : α → Scan β} {b : β} (h : Reads action front text n a)
    (hthen : Reads (then_ a) (front ++ text.take n) (text.drop n) m b) (hk : n + m = k) :
    Reads (action >>= then_) front text k b := by
  intro s hs
  obtain ⟨s₁, haction, hs₁⟩ := h s hs
  obtain ⟨s₂, hthen, hs₂⟩ := hthen s₁ hs₁
  refine ⟨s₂, ?_, ?_⟩
  · rw [run_bind, haction]
    exact hthen
  · rwa [List.append_assoc, ← List.take_add, List.drop_drop, hk] at hs₂

/-- An action that only looks is followed by another one at the same place. -/
theorem Reads.look {then_ : α → Scan β} {b : β} (h : Reads action front text 0 a)
    (hthen : Reads (then_ a) front text n b) : Reads (action >>= then_) front text n b := by
  refine h.bind (m := n) ?_ (Nat.zero_add n)
  rwa [List.take_zero, List.append_nil, List.drop_zero]

/-- An action that nothing follows but an outcome. -/
theorem Reads.returning {then_ : α → Scan β} {b : β} (h : Reads action front text n a)
    (hthen : then_ a = pure b) : Reads (action >>= then_) front text n b :=
  h.bind (hthen ▸ reads_pure b) (Nat.add_zero n)

/-- What an action gives may be left aside. -/
theorem Reads.discard (h : Reads action front text n a) :
    Reads (discard action) front text n () := by
  have hdiscard : Functor.discard action = action >>= fun _ => pure () := rfl
  rw [hdiscard]
  exact h.returning rfl

/-! ## Looking and moving -/

theorem reads_position : Reads position front text 0 (byteLength front) := by
  intro s hs
  rw [← hs.pos]
  exact reads_pure s.pos s hs

/-- The text is sliced where a scanner stands. -/
theorem reads_rest : Reads rest front text 0 text := by
  intro s hs
  have hslice : sliceFrom? s.pos s.text = some text :=
    sliceFrom?_eq_some_iff.2 ⟨front, hs.text, hs.pos.symm⟩
  rw [rest, hslice]
  exact reads_pure text s hs

theorem reads_peek : Reads peek front text 0 text.head? := reads_rest.returning rfl

theorem reads_peekNth (n : Nat) : Reads (peekNth n) front text 0 text[n]? :=
  reads_rest.returning rfl

theorem reads_moveTo (n : Nat) :
    Reads (moveTo (byteLength (front ++ text.take n))) front text n () := by
  intro s hs
  refine ⟨_, rfl, ?_, rfl, hs.isBoundary⟩
  rw [List.append_assoc, List.take_append_drop]
  exact hs.text

/-- Moving on by the bytes of some characters is reading them. -/
theorem reads_advance (front text : List Char) (n : Nat) :
    Reads (advance (byteLength (text.take n))) front text n () := by
  refine reads_position.look ?_
  rw [← byteLength_append]
  exact reads_moveTo n

theorem reads_moveToEnd : Reads moveToEnd front text text.length () := by
  intro s hs
  have hend : byteLength s.text = byteLength (front ++ text.take text.length) := by
    rw [List.take_length, hs.text]
  rw [moveToEnd, hend]
  exact reads_moveTo text.length s hs

theorem reads_bump_nil : Reads bump front [] 0 none := reads_peek.returning rfl

theorem reads_bump_cons (c : Char) : Reads bump front (c :: text) 1 (some c) :=
  reads_peek.look ((reads_advance front (c :: text) 1).returning rfl)

/-- A character is read, and what follows goes on behind it. -/
theorem reads_bump_bind {then_ : Unit → Scan β} {b : β} {c : Char}
    (hthen : Reads (then_ ()) (front ++ [c]) text n b) (hk : 1 + n = k) :
    Reads (Functor.discard bump >>= then_) front (c :: text) k b :=
  (reads_bump_cons c).discard.bind hthen hk

/-- What was read is a slice. -/
theorem reads_sliceSince (piece : List Char) :
    Reads (sliceSince (byteLength front)) (front ++ piece) text 0
      ⟨byteLength front, byteLength (front ++ piece), piece⟩ := by
  intro s hs
  have hslice : slice? (byteLength front) s.pos s.text = some piece := by
    rw [hs.pos, hs.text]
    exact slice?_append front piece text
  rw [sliceSince, hslice, hs.pos]
  exact reads_pure _ s hs

/-! ## Loops -/

section

variable {turn : β → Scan (β ⊕ α)} {b b' : β}

/-- If some turns are enough, so are more. -/
theorem loopWithin_of_le {turns more : Nat} {s : Scanner} {result : α × Scanner}
    (h : loopWithin turn turns b s = some result) (hle : turns ≤ more) :
    loopWithin turn more b s = some result := by
  induction turns generalizing more b s with
  | zero => contradiction
  | succ turns ih =>
    obtain ⟨more, rfl⟩ := Nat.exists_eq_succ_of_ne_zero (Nat.ne_zero_of_lt hle)
    rw [loopWithin, run_bind] at h ⊢
    cases hturn : turn b s with
    | none =>
      rw [hturn] at h
      contradiction
    | some taken =>
      obtain ⟨next | outcome, s'⟩ := taken
      · rw [hturn] at h
        exact ih h (Nat.le_of_succ_le_succ hle)
      · rwa [hturn] at h

/-- A turn that goes forward is followed by the rest of the loop: it reads at least one byte, so
there are turns enough for what is left. -/
theorem Reads.again (h : Reads (turn b) front text n (.inl b')) (hforward : text.take n ≠ [])
    (hloop : Reads (loop turn b') (front ++ text.take n) (text.drop n) m a) (hk : n + m = k) :
    Reads (loop turn b) front text k a := by
  intro s hs
  obtain ⟨s₁, hturn, hs₁⟩ := h s hs
  obtain ⟨s₂, hrest, hs₂⟩ := hloop s₁ hs₁
  refine ⟨s₂, ?_, ?_⟩
  · have htext : s₁.text = s.text := by
      rw [hs₁.text, hs.text, List.append_assoc, List.take_append_drop]
    -- The place is further on in the same text, so fewer turns are needed than are left.
    have hmoved : s.pos < s₁.pos := by
      obtain ⟨c, rest, hread⟩ := List.exists_cons_of_ne_nil hforward
      have hbytes : byteLength (text.take n) = c.utf8Size + byteLength rest := by
        rw [hread]
        rfl
      have hpos := c.utf8Size_pos
      rw [hs.pos, hs₁.pos, byteLength_append, hbytes]
      omega
    have hle : s₁.pos ≤ byteLength s₁.text := (hs₁.isBoundary _ List.mem_cons_self).le
    rw [htext] at hle
    have hturns : loopWithin turn (byteLength s.text - s.pos) b' s₁ = some (a, s₂) := by
      refine loopWithin_of_le hrest ?_
      rw [htext]
      omega
    rw [loop, loopWithin, run_bind, hturn]
    exact hturns
  · rwa [List.append_assoc, ← List.take_add, List.drop_drop, hk] at hs₂

/-- A turn that gives an outcome ends the loop. -/
theorem Reads.done (h : Reads (turn b) front text n (.inr a)) :
    Reads (loop turn b) front text n a := by
  intro s hs
  obtain ⟨s', hturn, hs'⟩ := h s hs
  refine ⟨s', ?_, hs'⟩
  rw [loop, loopWithin, run_bind, hturn]
  rfl

/-- **A turn goes forward**: wherever a scanner stands between two parts of a text, the turn
succeeds and reads some of the characters that are left, and at least one if it goes on. -/
def Forward (turn : β → Scan (β ⊕ α)) : Prop :=
  ∀ (b : β) (front text : List Char), ∃ n outcome,
    Reads (turn b) front text n outcome ∧ n ≤ text.length ∧ (outcome.isLeft = true → 0 < n)

end

section

variable {p : Char → Bool} {c : Char}

theorem reads_eatTurn_nil : Reads (eatTurn p ()) front [] 0 (.inr ()) := reads_peek.returning rfl

theorem reads_eatTurn_of_pos (hc : p c = true) :
    Reads (eatTurn p ()) front (c :: text) 1 (.inl ()) := by
  refine reads_peek.look ?_
  dsimp only [List.head?_cons]
  rw [if_pos hc]
  exact (reads_bump_cons c).discard.returning rfl

theorem reads_eatTurn_of_neg (hc : ¬p c = true) :
    Reads (eatTurn p ()) front (c :: text) 0 (.inr ()) := by
  refine reads_peek.look ?_
  dsimp only [List.head?_cons]
  rw [if_neg hc]
  exact reads_pure _

theorem forward_eatTurn (p : Char → Bool) : Forward (eatTurn p) := by
  intro _ front text
  cases text with
  | nil => exact ⟨0, .inr (), reads_eatTurn_nil, Nat.le_refl 0, by simp⟩
  | cons c rest =>
    by_cases hc : p c = true
    · exact ⟨1, .inl (), reads_eatTurn_of_pos hc, by simp, by simp⟩
    · exact ⟨0, .inr (), reads_eatTurn_of_neg hc, by simp, by simp⟩

/-- All characters in front of the first one that fails the test are read, and the slice is
theirs. -/
theorem reads_eatWhile (p : Char → Bool) (front text : List Char) :
    Reads (eatWhile p) front text (text.takeWhile p).length
      ⟨byteLength front, byteLength (front ++ text.takeWhile p), text.takeWhile p⟩ := by
  have hloop : ∀ front, Reads (loop (eatTurn p) ()) front text (text.takeWhile p).length () := by
    induction text with
    | nil => exact fun front => reads_eatTurn_nil.done
    | cons c rest ih =>
      intro front
      by_cases hc : p c = true
      · rw [List.takeWhile_cons_of_pos hc]
        exact (reads_eatTurn_of_pos hc).again (List.cons_ne_nil c _) (ih _) (Nat.add_comm ..)
      · rw [List.takeWhile_cons_of_neg hc]
        exact (reads_eatTurn_of_neg hc).done
  refine reads_position.look ((hloop front).bind ?_ (Nat.add_zero _))
  rw [← List.prefix_iff_eq_take.1 (List.takeWhile_prefix p)]
  exact reads_sliceSince _

end

/-! ## Comments and literals -/

/-- A text that does not start with two characters has no mark of them in front. -/
theorem not_isPrefixOf_pair {c d e : Char} (h : ∀ rest, c = d → text = e :: rest → False) :
    ¬[d, e].isPrefixOf (c :: text) = true := by
  rw [List.isPrefixOf_iff_prefix]
  rintro ⟨rest, hrest⟩
  obtain ⟨rfl, htext⟩ := List.cons.inj hrest
  exact h rest rfl htext.symm

/-- Two characters of a mark are passed over by their number of bytes. -/
theorem reads_commentTurn_open (depth : Nat) :
    Reads (commentTurn (depth + 1)) front ('/' :: '*' :: text) 2 (.inl (depth + 2)) :=
  reads_rest.look ((reads_advance front ('/' :: '*' :: text) 2).returning rfl)

theorem reads_commentTurn_close (depth : Nat) :
    Reads (commentTurn (depth + 1)) front ('*' :: '/' :: text) 2 (.inl depth) :=
  reads_rest.look ((reads_advance front ('*' :: '/' :: text) 2).returning rfl)

theorem reads_commentTurn_nil (depth : Nat) :
    Reads (commentTurn (depth + 1)) front [] 0 (.inr ()) := reads_rest.returning rfl

/-- A character that begins no mark is passed over. The assumptions are those under which
`blockCommentLength` passes over it. -/
theorem reads_commentTurn_other {depth : Nat} {c : Char}
    (hopen : ∀ rest, c = '/' → text = '*' :: rest → False)
    (hclose : ∀ rest, depth = 0 → c = '*' → text = '/' :: rest → False)
    (hclose' : ∀ outer rest, depth = outer + 1 → c = '*' → text = '/' :: rest → False) :
    Reads (commentTurn (depth + 1)) front (c :: text) 1 (.inl (depth + 1)) := by
  have hnoclose : ∀ rest, c = '*' → text = '/' :: rest → False := by
    cases depth with
    | zero => exact fun rest => hclose rest rfl
    | succ outer => exact fun rest => hclose' outer rest rfl
  refine reads_rest.look ?_
  rw [List.isEmpty_cons, if_neg (by decide), if_neg (not_isPrefixOf_pair hopen),
    if_neg (not_isPrefixOf_pair hnoclose)]
  exact (reads_bump_cons c).discard.returning rfl

theorem forward_commentTurn : Forward commentTurn := by
  intro depth front text
  cases depth with
  | zero => exact ⟨0, .inr (), reads_pure _, Nat.zero_le _, by simp⟩
  | succ depth =>
    fun_cases blockCommentLength depth text with
    | case1 => exact ⟨0, _, reads_commentTurn_nil _, Nat.le_refl 0, by simp⟩
    | case2 => exact ⟨2, _, reads_commentTurn_open _, by simp, by simp⟩
    | case3 => exact ⟨2, _, reads_commentTurn_close 0, by simp, by simp⟩
    | case4 depth => exact ⟨2, _, reads_commentTurn_close (depth + 1), by simp, by simp⟩
    | case5 depth c rest hopen hclose hclose' =>
      exact ⟨1, _, reads_commentTurn_other hopen hclose hclose', by simp, by simp⟩

/-- The marks of a comment are counted as `blockCommentLength` counts them. -/
theorem reads_commentLoop (depth : Nat) (front text : List Char) :
    Reads (loop commentTurn (depth + 1)) front text (blockCommentLength depth text) () := by
  -- The length function takes the turns of the loop, each of them one of its cases.
  fun_induction blockCommentLength depth text generalizing front with
  | case1 depth => exact (reads_commentTurn_nil depth).done
  | case2 depth rest ih =>
    exact (reads_commentTurn_open depth).again (List.cons_ne_nil '/' _) (ih _) (Nat.add_comm ..)
  | case3 rest =>
    exact (reads_commentTurn_close 0).again (List.cons_ne_nil '*' _) (reads_pure _).done rfl
  | case4 depth rest ih =>
    exact (reads_commentTurn_close (depth + 1)).again (List.cons_ne_nil '*' _) (ih _)
      (Nat.add_comm ..)
  | case5 depth c rest hopen hclose hclose' ih =>
    exact (reads_commentTurn_other hopen hclose hclose').again (List.cons_ne_nil c _) (ih _)
      (Nat.add_comm ..)

theorem reads_blockComment (front text : List Char) :
    Reads blockComment front ('/' :: '*' :: text) (2 + blockCommentLength 0 text) () :=
  (reads_advance front ('/' :: '*' :: text) 2).bind (reads_commentLoop 0 _ text) rfl

theorem reads_quotedTurn_nil : Reads (quotedTurn ()) front [] 0 (.inr ()) :=
  reads_bump_nil.returning rfl

theorem reads_quotedTurn_escape (c : Char) :
    Reads (quotedTurn ()) front ('\\' :: c :: text) 2 (.inl ()) :=
  (reads_bump_cons '\\').bind ((reads_bump_cons c).discard.returning rfl) rfl

theorem reads_quotedTurn_quote : Reads (quotedTurn ()) front ('"' :: text) 1 (.inr ()) :=
  (reads_bump_cons '"').returning rfl

/-- Any other character is passed over, and so is a backslash with nothing behind it. -/
theorem reads_quotedTurn_other {c : Char}
    (hescape : ∀ d rest, c = '\\' → text = d :: rest → False) (hquote : c = '"' → False) :
    Reads (quotedTurn ()) front (c :: text) 1 (.inl ()) := by
  by_cases hc : c = '\\'
  · subst hc
    cases text with
    | nil => exact (reads_bump_cons '\\').bind (reads_bump_nil.discard.returning rfl) rfl
    | cons d rest => exact (hescape d rest rfl rfl).elim
  · refine (reads_bump_cons c).returning ?_
    dsimp only
    rw [if_neg hc, if_neg hquote]

theorem forward_quotedTurn : Forward quotedTurn := by
  intro _ front text
  fun_cases quotedLength text with
  | case1 => exact ⟨0, _, reads_quotedTurn_nil, Nat.le_refl 0, by simp⟩
  | case2 c rest => exact ⟨2, _, reads_quotedTurn_escape c, by simp, by simp⟩
  | case3 rest => exact ⟨1, _, reads_quotedTurn_quote, by simp, by simp⟩
  | case4 c rest hescape hquote =>
    exact ⟨1, _, reads_quotedTurn_other hescape hquote, by simp, by simp⟩

theorem reads_quotedLoop (front text : List Char) :
    Reads (loop quotedTurn ()) front text (quotedLength text) () := by
  fun_induction quotedLength text generalizing front with
  | case1 => exact reads_quotedTurn_nil.done
  | case2 c rest ih =>
    exact (reads_quotedTurn_escape c).again (List.cons_ne_nil '\\' _) (ih _) (Nat.add_comm ..)
  | case3 rest => exact reads_quotedTurn_quote.done
  | case4 c rest hescape hquote ih =>
    exact (reads_quotedTurn_other hescape hquote).again (List.cons_ne_nil c _) (ih _)
      (Nat.add_comm ..)

theorem reads_quoted (front text : List Char) (c : Char) :
    Reads quoted front (c :: text) (1 + quotedLength text) () :=
  (reads_bump_cons c).discard.bind (reads_quotedLoop _ text) rfl

/-- A hash sign is one byte. -/
theorem byteLength_replicate_hash (n : Nat) : byteLength (List.replicate n '#') = n := by
  induction n with
  | zero => rfl
  | succ n ih =>
    rw [List.replicate_succ]
    change 1 + byteLength (List.replicate n '#') = n + 1
    rw [ih, Nat.add_comm]

/-- Where the terminator of a raw literal is found, the literal ends behind it, and if it is not
found the literal goes to the end. -/
theorem rawBody_of_occurrence? (hashes : Nat) (body : List Char) :
    match occurrence? ('"' :: List.replicate hashes '#') body with
    | some offset => offset + byteLength ('"' :: List.replicate hashes '#') =
        byteLength (body.take (rawBodyLength hashes body))
    | none => rawBodyLength hashes body = body.length := by
  induction body with
  | nil => rfl
  | cons c rest ih =>
    rw [occurrence?, rawBodyLength]
    split_ifs with hends
    · have htake := List.prefix_iff_eq_take.1 (List.isPrefixOf_iff_prefix.1 hends)
      rw [List.length_cons, List.length_replicate] at htake
      rw [← htake]
      exact Nat.zero_add _
    · cases hfound : occurrence? ('"' :: List.replicate hashes '#') rest with
      | none =>
        rw [hfound] at ih
        exact congrArg (· + 1) ih
      | some offset =>
        rw [hfound] at ih
        -- The terminator is found one character further on, in bytes as well as in characters.
        change c.utf8Size + offset + _ = c.utf8Size + byteLength (rest.take _)
        rw [Nat.add_assoc, ih]

theorem takeWhile_hash (text : List Char) :
    text.takeWhile (· == '#') = List.replicate (text.takeWhile (· == '#')).length '#' :=
  List.eq_replicate_of_mem fun c hc => eq_of_beq (List.all_eq_true.1 List.all_takeWhile c hc)

/-- The hash signs of a text are as many bytes as characters, so it is sliced behind them. -/
theorem sliceFrom?_hashes (text : List Char) :
    sliceFrom? (text.takeWhile (· == '#')).length text =
      some (text.drop (text.takeWhile (· == '#')).length) := by
  refine sliceFrom?_eq_some_iff.2 ⟨text.takeWhile (· == '#'), ?_, ?_⟩
  · exact (List.prefix_iff_eq_append.1 (List.takeWhile_prefix _)).symm
  · exact (congrArg byteLength (takeWhile_hash text)).trans (byteLength_replicate_hash _)

/-- A raw literal is read to its end. -/
theorem reads_raw_literal (hashes : Nat) (front body : List Char) :
    Reads raw front (List.replicate hashes '#' ++ '"' :: body)
      (hashes + 1 + rawBodyLength hashes body) true := by
  have hquote : List.replicate hashes '#' ++ '"' :: body =
      List.replicate hashes '#' ++ ['"'] ++ body := by simp
  have hlength : (List.replicate hashes '#' ++ ['"']).length = hashes + 1 := by simp
  have htext := sliceFrom?_hashes (List.replicate hashes '#' ++ '"' :: body)
  have hsigns : ((List.replicate hashes '#' ++ '"' :: body).takeWhile (· == '#')).length =
      hashes := by
    rw [List.takeWhile_append_of_pos fun c hc => by simp [List.eq_of_mem_replicate hc],
      List.takeWhile_cons_of_neg (by decide), List.append_nil, List.length_replicate]
  rw [hsigns, List.drop_left' List.length_replicate] at htext
  -- The hash signs and the quote are one byte each.
  have hadvance : Reads (advance (hashes + 1)) front (List.replicate hashes '#' ++ '"' :: body)
      (hashes + 1) () := by
    have hbytes : byteLength ((List.replicate hashes '#' ++ '"' :: body).take (hashes + 1)) =
        hashes + 1 := by
      rw [hquote, List.take_left' hlength, byteLength_append, byteLength_replicate_hash]
      rfl
    have hreads := reads_advance front (List.replicate hashes '#' ++ '"' :: body) (hashes + 1)
    rwa [hbytes] at hreads
  refine reads_rest.look ?_
  dsimp only
  rw [hsigns, htext]
  refine Reads.look (reads_pure ('"' :: body)) (hadvance.bind (reads_rest.look ?_) rfl)
  rw [hquote, List.drop_left' hlength]
  have hend := rawBody_of_occurrence? hashes body
  cases hfound : occurrence? ('"' :: List.replicate hashes '#') body with
  | some offset =>
    -- The terminator is searched in the text as a pattern, and found where the body ends.
    rw [hfound] at hend
    dsimp only at hend ⊢
    rw [hend]
    exact (reads_advance _ body _).returning rfl
  | none =>
    -- Without a terminator the literal goes on to the end of the text.
    rw [hfound] at hend
    dsimp only at hend ⊢
    rw [hend]
    exact reads_moveToEnd.returning rfl

theorem reads_raw_some (h : rawLength? text = some n) : Reads raw front text n true := by
  obtain ⟨hashes, body, rfl⟩ := eq_replicate_of_rawLength? h
  rw [rawLength?_replicate, Option.some.injEq] at h
  rw [← h]
  exact reads_raw_literal hashes front body

/-- Where there is none, nothing is read. -/
theorem reads_raw_none (h : rawLength? text = none) : Reads raw front text 0 false := by
  refine reads_rest.look ?_
  dsimp only
  rw [sliceFrom?_hashes]
  refine Reads.look (reads_pure _) ?_
  rw [if_neg]
  · exact reads_pure false
  · -- Behind the hash signs a quote would begin a literal.
    intro hhead
    obtain ⟨body, hbody⟩ := List.head?_eq_some_iff.1 hhead
    have htext : text = List.replicate (text.takeWhile (· == '#')).length '#' ++ '"' :: body := by
      rw [← takeWhile_hash, ← hbody]
      exact (List.prefix_iff_eq_append.1 (List.takeWhile_prefix _)).symm
    rw [htext, rawLength?_replicate] at h
    contradiction

/-- What follows an escape is read up to the closing quote, and so is the quote. -/
theorem reads_escapedTail (front text : List Char) :
    Reads escapedTail front text (escapedTailLength text) () := by
  have hread := (reads_eatWhile (fun c => c != '\'' && c != '\n') front text).discard
  unfold escapedTailLength
  dsimp only
  split
  · rename_i rest hdrop
    refine hread.bind (reads_peek.look ?_) rfl
    rw [hdrop]
    exact (reads_bump_cons '\'').discard
  · rename_i hquote
    refine hread.bind (reads_peek.look ?_) (Nat.add_zero _)
    rw [if_neg]
    · exact reads_pure ()
    · intro hhead
      obtain ⟨rest, hrest⟩ := List.head?_eq_some_iff.1 hhead
      exact hquote rest hrest

/-- A character literal or a lifetime is read. -/
theorem reads_apostrophe (front text : List Char) :
    Reads apostrophe front ('\'' :: text) (1 + apostropheLength text) () := by
  refine reads_bump_bind (n := apostropheLength text) ?_ rfl
  refine reads_peek.look ?_
  fun_cases apostropheLength text with
  | case1 =>
    refine (reads_peekNth 1).look ?_
    exact (reads_eatWhile isWordPart _ []).discard
  | case2 =>
    refine reads_bump_bind (n := 0) ?_ rfl
    exact reads_bump_nil.discard.look (reads_escapedTail _ [])
  | case3 c rest =>
    -- An escape: the backslash and the character behind it are passed over, then the rest up to the
    -- quote.
    refine reads_bump_bind (n := 1 + escapedTailLength rest) ?_ (by omega)
    exact reads_bump_bind (reads_escapedTail _ rest) rfl
  | case4 c rest hc =>
    -- A character and the closing apostrophe.
    have hescape : ¬(c :: '\'' :: rest).head? = some '\\' := by simpa using hc
    rw [if_neg hescape]
    refine (reads_peekNth 1).look ?_
    exact reads_bump_bind (reads_bump_cons '\'').discard rfl
  | case5 text hempty hescape hescaped hquoted =>
    -- Neither an escape nor a quoted character stands here, so it is a lifetime.
    have hfirst : ¬text.head? = some '\\' := by
      intro hhead
      obtain ⟨rest, rfl⟩ := List.head?_eq_some_iff.1 hhead
      cases rest with
      | nil => exact hescape rfl
      | cons c rest => exact hescaped c rest rfl
    have hsecond : ¬(text.head?.isSome && text[1]? == some '\'') = true := by
      rw [Bool.and_eq_true, beq_iff_eq]
      rintro ⟨-, hnext⟩
      obtain ⟨hlength, hget⟩ := List.getElem?_eq_some_iff.1 hnext
      obtain ⟨c, tail, rfl⟩ := List.exists_cons_of_length_pos (Nat.zero_lt_of_lt hlength)
      obtain ⟨d, rest, rfl⟩ :=
        List.exists_cons_of_length_pos (Nat.lt_of_succ_lt_succ hlength)
      obtain rfl : d = '\'' := hget
      exact hquoted c rest rfl
    rw [if_neg hfirst]
    refine (reads_peekNth 1).look ?_
    rw [if_neg hsecond]
    exact (reads_eatWhile isWordPart _ text).discard

end Scan

end UnitLoader.Outline
