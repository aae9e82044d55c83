import UnitLoader.Proofs.Dispatch.Target
import UnitLoader.Proofs.Outline.Frames
import UnitLoader.Proofs.Text.Replace
import UnitLoader.Diagnostic.Attribution

/-!
# The parts of a name

A name is read off a source as a path of words, which are joined. No word has a colon or a slash, so
the name is cut into the same words again (`nameParts_ofList_join`), and its virtual file tells it
from every other name (`virtualPath_ofList_join`). The words in front of the last one are the names
of the modules whose braces are open at the declaration (`declaredPath_eq_some`).

`nameParts_of_resolveName` puts this together.
-/

namespace UnitLoader

open Outline (Frame IsWord State Token)

namespace Outline

/-! ## Where the type is declared -/

section

variable {s next : State} {frames : List Frame} {outline : List Token} {path : List (List Char)}

/-- A declaration that is found stands behind the tokens in front of its last word: they lead to a
state in which a type's name is expected. -/
theorem run_of_declaredPathFrom (h : declaredPathFrom s outline = some path) :
    ∃ front word behind s', outline = front ++ .word word :: behind ∧
      s.run front = .inr s' ∧ s'.expectation = .typeName ∧
      path = s'.modules.map Prod.fst ++ [word] := by
  induction outline generalizing s with
  | nil => contradiction
  | cons t rest ih =>
    rw [declaredPathFrom] at h
    cases hstep : s.step t with
    | inl found =>
      rw [hstep] at h
      obtain rfl := Option.some.inj h
      -- Only a word where a name is expected ends the reading.
      obtain ⟨word, rfl, hexpected, hpath⟩ : ∃ word, t = .word word ∧
          s.expectation = .typeName ∧ found = s.modules.map Prod.fst ++ [word] := by
        revert hstep
        fun_cases State.step s t with
        | case10 word hexpected => exact fun h => ⟨word, rfl, hexpected, (Sum.inl.inj h).symm⟩
        | _ => exact fun h => absurd h (by simp)
      exact ⟨[], word, rest, s, rfl, rfl, hexpected, hpath⟩
    | inr next =>
      rw [hstep] at h
      obtain ⟨front, word, behind, s', rfl, hrun, hexpected, hpath⟩ := ih h
      refine ⟨t :: front, word, behind, s', rfl, ?_, hexpected, hpath⟩
      rw [State.run, hstep]
      exact hrun

/-- The reader comes to a state that follows the stack that the interpreter comes to. -/
theorem follows_run (h : s.Follows frames) (hrun : s.run outline = .inr next) :
    ∃ frames', next.Follows frames' ∧
      interpret false frames (unread s.expectation outline) = .inr frames' := by
  induction outline generalizing s frames with
  | nil =>
    obtain rfl := Sum.inr.inj hrun
    exact ⟨frames, h, by rw [interpret_unread h.level (by simp), interpret]⟩
  | cons t rest ih =>
    have hstep := step_follows h t rest
    rw [State.run] at hrun
    cases hnext : s.step t with
    | inl path =>
      rw [hnext] at hrun
      contradiction
    | inr middle =>
      rw [hnext] at hstep hrun
      obtain ⟨frames', hfollows, heq⟩ := hstep
      rw [heq]
      exact ih hfollows hrun

/-- The path of a declared type: in front of the type's word, no brace is open but those of
modules, and their names are the parts in front of that word. -/
theorem declaredPath_eq_some (h : declaredPath outline = some path) :
    ∃ front word behind frames, outline = front ++ .word word :: behind ∧
      interpret false [] front = .inr frames ∧ (∀ frame ∈ frames, frame.isModule = true) ∧
      path = moduleNames frames ++ [word] := by
  obtain ⟨front, word, behind, s, rfl, hrun, hexpected, rfl⟩ := run_of_declaredPathFrom h
  obtain ⟨frames, hfollows, hinterpret⟩ :=
    follows_run ⟨rfl, rfl, List.Pairwise.nil, fun h => absurd h (by decide)⟩ hrun
  have hlevel := hfollows.level (by rw [hexpected]; rfl)
  refine ⟨front, word, behind, frames, rfl, hinterpret, List.all_eq_true.1 hlevel, ?_⟩
  rw [hfollows.modules, map_fst_recorded]

end

end Outline

/-! ## Names put together of words -/

section

variable {words : List (List Char)}

theorem not_mem_of_isWord_separator (h : ∀ word ∈ words, IsWord word) :
    ∀ word ∈ words, ':' ∉ word :=
  fun word hword => Syntax.not_mem_of_isWord (h word hword) ':' (by decide)

/-- Words that are joined to a name are its parts. -/
theorem nameParts_ofList_join (hne : words ≠ []) (h : ∀ word ∈ words, IsWord word) :
    SourceUnit.nameParts (String.ofList (Text.join pathSeparator words)) = words := by
  rw [SourceUnit.nameParts, String.toList_ofList]
  exact Text.splitOn_join hne (not_mem_of_isWord_separator h)

/-- In the virtual file of the name there are slashes between the words. -/
theorem virtualPath_ofList_join (h : ∀ word ∈ words, IsWord word) (source : String) :
    SourceUnit.virtualPath ⟨String.ofList (Text.join pathSeparator words), source⟩ =
      "memory:///" ++ String.ofList (Text.join ['/'] words) ++ ".rs" := by
  rw [SourceUnit.virtualPath, String.toList_ofList]
  exact congrArg (fun text => "memory:///" ++ String.ofList text ++ ".rs")
    (Text.replace_join ['/'] (not_mem_of_isWord_separator h))

/-- So the virtual file says which words they are. -/
theorem eq_of_virtualPath_eq {words' : List (List Char)} (hne : words ≠ []) (hne' : words' ≠ [])
    (h : ∀ word ∈ words, IsWord word) (h' : ∀ word ∈ words', IsWord word) {source source' : String}
    (hpath : SourceUnit.virtualPath ⟨String.ofList (Text.join pathSeparator words), source⟩ =
      SourceUnit.virtualPath ⟨String.ofList (Text.join pathSeparator words'), source'⟩) :
    words = words' := by
  have hslash {texts : List (List Char)} (htexts : ∀ word ∈ texts, IsWord word) :
      ∀ word ∈ texts, '/' ∉ word := fun word hword =>
    Syntax.not_mem_of_isWord (htexts word hword) '/' (by decide)
  rw [virtualPath_ofList_join h, virtualPath_ofList_join h'] at hpath
  have hjoined : Text.join ['/'] words = Text.join ['/'] words' := by
    simpa [← String.toList_inj] using hpath
  rw [← Text.splitOn_join hne (hslash h), hjoined, Text.splitOn_join hne' (hslash h')]

/-- No virtual file has the name that stands for dispatch modules. -/
theorem virtualPath_ne_dispatchFile (u : SourceUnit) : u.virtualPath ≠ Location.dispatchFile := by
  intro h
  have hletter : "memory:///".toList.head? = some 'm' := by decide
  have hfirst := congrArg (fun file => file.toList.head?) h
  rw [SourceUnit.virtualPath, String.toList_append, String.toList_append, List.append_assoc,
    List.head?_append, hletter, Option.some_or] at hfirst
  exact absurd hfirst (by decide)

end

/-! ## Names that are read off a source -/

/-- **A name says what it is made of.** Its parts are the names of the modules around the type and
the type's own word, each as it is read in the source: the modules are those whose braces are open
in front of that word, where no other brace is. Each part is a word of letters, numbers and
underscores, and no other words are joined to the same name. So names that differ have virtual
files that differ, and none of these is the file that stands for dispatch modules. -/
theorem nameParts_of_resolveName {source name : String} (h : resolveName source = .ok name) :
    (∃ front word behind frames,
      Outline.tokens source.toList = front ++ .word word :: behind ∧
      Outline.interpret false [] front = .inr frames ∧
      (∀ frame ∈ frames, frame.isModule = true) ∧
      SourceUnit.nameParts name = Outline.moduleNames frames ++ [word]) ∧
    (∀ part ∈ SourceUnit.nameParts name, IsWord part) ∧
    (∀ words, words ≠ [] → (∀ word ∈ words, IsWord word) →
      String.ofList (Text.join pathSeparator words) = name → words = SourceUnit.nameParts name) ∧
    (∀ source' name', resolveName source' = .ok name' → name' ≠ name →
      SourceUnit.virtualPath ⟨name', source'⟩ ≠ SourceUnit.virtualPath ⟨name, source⟩) ∧
    SourceUnit.virtualPath ⟨name, source⟩ ≠ Location.dispatchFile := by
  -- A name is resolved to the words of a path, joined by the separator, which no word has.
  have hpaths {source name : String} (h : resolveName source = .ok name) :
      ∃ path, Outline.declaredPath (Outline.tokens source.toList) = some path ∧ path ≠ [] ∧
        (∀ word ∈ path, IsWord word) ∧ String.ofList (Text.join pathSeparator path) = name := by
    obtain ⟨path, hpath, hname⟩ := resolveName_eq_ok_iff.1 h
    obtain ⟨modules, word, rfl, hwords⟩ := Outline.isWord_of_declaredPath hpath
    exact ⟨_, hpath, List.concat_ne_nil word modules, hwords, hname⟩
  obtain ⟨path, hpath, hne, hwords, rfl⟩ := hpaths h
  have hparts := nameParts_ofList_join hne hwords
  refine ⟨?_, hparts.symm ▸ hwords, fun words hnil hall hname => ?_,
    fun source' name' hresolved hdiffer hsame => ?_, virtualPath_ne_dispatchFile _⟩
  · obtain ⟨front, word, behind, frames, htokens, hinterpret, hmodules, rfl⟩ :=
      Outline.declaredPath_eq_some hpath
    exact ⟨front, word, behind, frames, htokens, hinterpret, hmodules, hparts⟩
  · rw [← hname, nameParts_ofList_join hnil hall]
  · obtain ⟨path', -, hne', hwords', rfl⟩ := hpaths hresolved
    exact hdiffer (congrArg _ (congrArg _ (eq_of_virtualPath_eq hne' hne hwords' hwords hsame)))

/-- A raw word inside of a raw module, and a type whose name has the same letters. -/
theorem nameParts_of_resolveName_raw :
    resolveName "mod r#fn \x7b struct r#in; \x7d" = .ok "fn::in" ∧
      resolveName "struct fnin;" = .ok "fnin" ∧
      (∀ part ∈ SourceUnit.nameParts "fn::in", IsWord part) ∧
      SourceUnit.virtualPath ⟨"fnin", "struct fnin;"⟩ ≠
        SourceUnit.virtualPath ⟨"fn::in", "mod r#fn \x7b struct r#in; \x7d"⟩ := by
  have h : resolveName "mod r#fn \x7b struct r#in; \x7d" = .ok "fn::in" := by decide +kernel
  have h' : resolveName "struct fnin;" = .ok "fnin" := by decide +kernel
  obtain ⟨-, hwords, -, hdiffer, -⟩ := nameParts_of_resolveName h
  exact ⟨h, h', hwords, hdiffer _ _ h' (by decide)⟩

end UnitLoader
