import UnitLoader.Proofs.Engine.Failure

/-!
# A compile error carries an error

A compilation that fails for the compiler had a run that ended in time but badly, or without a
library (`ensures_judged`). The diagnostics that it fails with are those in the run's log, and one
more where none of those is an error (`failureDiagnostics_eq_append`), so whoever shows them always
has an error to show, whatever bytes the compiler wrote and however it ended.
-/

namespace UnitLoader.Engine

open UnitLoader.Engine.Action
open Text (Duration)

/-! ## The diagnostics of a run that failed -/

/-- An error is added to what was found exactly if there is none, and it says something. -/
theorem failureDiagnostics_eq_append (found : List Diagnostic) (log : List Char) (ending : Ending) :
    ∃ added, failureDiagnostics found log ending = found ++ added ∧ added.length ≤ 1 ∧
      (added ≠ [] ↔ ∀ d ∈ found, d.isError = false) ∧
      ∀ d ∈ added, d.isError = true ∧ d.message ≠ "" := by
  unfold failureDiagnostics
  split
  · -- There is an error among them, so nothing is added.
    rename_i hany
    obtain ⟨d, hd, herror⟩ := List.any_eq_true.1 hany
    refine ⟨[], (List.append_nil found).symm, Nat.zero_le 1, ?_, fun d hd => ?_⟩
    · refine iff_of_false (fun h => h rfl) fun hnone => ?_
      rw [hnone d hd] at herror
      contradiction
    · exact absurd hd List.not_mem_nil
  · rename_i hany
    have hnone (d : Diagnostic) (hd : d ∈ found) : d.isError = false :=
      Bool.eq_false_of_not_eq_true fun herror => hany (List.any_eq_true.2 ⟨d, hd, herror⟩)
    refine ⟨_, rfl, Nat.le_refl 1, iff_of_true (List.cons_ne_nil _ _) hnone, ?_⟩
    intro d hd
    obtain rfl := List.mem_singleton.1 hd
    -- It tells how the run ended, or it is the log, if that says something.
    split
    · refine ⟨rfl, fun hempty => ?_⟩
      have hchars := congrArg String.toList hempty
      rw [Diagnostic.simple, String.toList_append, String.toList_append] at hchars
      exact absurd hchars (List.cons_ne_nil _ _)
    · rename_i htext
      refine ⟨rfl, fun hempty => htext ?_⟩
      have hchars := congrArg String.toList hempty
      rw [Diagnostic.simpleRendered, String.toList_ofList] at hchars
      exact List.isEmpty_iff.2 hchars

/-! ## Which runs fail -/

/-- A run ended within a time limit, but badly or without a library. -/
def Ill (limit : Option Duration) (run : Compilation) (ending : Ending) : Prop :=
  endingWithin limit run = some ending ∧ (ending.isSuccess && run.artifact.isSome) = false

section

variable {c : Config} {n : Namespace} {w : World} {u : SourceUnit} {d : Dispatch}
  {limit : Option Duration} {run : Compilation} {calls : List CompilerCall} {e : Failure}

/-- A failure that says that the compiler refused a unit has the diagnostics of a run on that unit
which ended ill. -/
def Judged (w : World) (u : SourceUnit) (limit : Option Duration) (e : Failure)
    (calls : List CompilerCall) : Prop :=
  ∀ name found, e = .error (.compile name found) → name = u.name ∧
    ∃ d run ending, Dispatch.generate u = .ok d ∧ Ran w u calls run ∧ Ill limit run ending ∧
      found = failureDiagnostics (logged u d run) (Text.Utf8.decodeLossy run.log) ending

/-- What says nothing of it has none to have. -/
theorem judged_of_not_isReport (he : ¬e.IsReport) : Judged w u limit e calls :=
  fun name found hfound => absurd ⟨name, found, hfound⟩ he

/-- What fails by a run goes by that run. -/
theorem FailsBy.judged (h : FailsBy n u d limit run e) (hd : Dispatch.generate u = .ok d)
    (hran : Ran w u calls run) : Judged w u limit e calls := by
  intro name found hfound
  cases h with
  | late hlate => cases hfound
  | ill hending hill =>
    obtain ⟨rfl, rfl⟩ := Error.compile.inj (Failure.error.inj hfound)
    exact ⟨rfl, d, run, _, hd, hran, ⟨hending, hill⟩, rfl⟩
  | refused hending hwell hrefused =>
    obtain ⟨-, -, rfl⟩ := hrefused
    cases hfound

/-- So does every compilation that fails. -/
theorem ensures_judged (hn : n.Tidy) (name source : String) (options : OptionSet)
    (limit : Option Duration) :
    Ensures (At c n w) (compileWithin name source options limit) (fun _ _ => True)
      (fun e s => Judged w ⟨name, source⟩ limit e s.world.calls) := by
  -- Before the compiler is given the unit, nothing fails for what it found.
  refine Ensures.bind (ensures_requireToolchain.mono_error fun e s ⟨hreport, _⟩ =>
    judged_of_not_isReport hreport) fun t => ensures_exists fun calls =>
      ensures_and fun hasked => ?_
  refine Ensures.bind ((ensures_dispatchOf _).mono_error fun e s ⟨hreport, _⟩ =>
    judged_of_not_isReport hreport) fun d => ensures_and fun hd => ?_
  refine (Scratch.ensures_during (w := { w with calls }) (R := fun _ _ _ => True)
    (F := Judged w ⟨name, source⟩ limit) (fun e hreport => judged_of_not_isReport hreport)
    fun scratch f place hopened => ?_).mono (fun _ _ _ => trivial)
      fun e s ⟨calls', hjudged, f', _, hs⟩ => ?_
  · refine (ensures_compileIn_cases (w := { w with calls }) hn hopened t d options limit).mono
      (fun compiled s ⟨run, calls', _, _, _, _, hs⟩ => ⟨_, calls', trivial, hs⟩) fun e s hs => ?_
    rcases hs with ⟨hreport, -, hs⟩ | ⟨run, calls', hruns, hfails, hs⟩
    · exact ⟨calls, judged_of_not_isReport hreport, hs⟩
    · exact ⟨calls', hfails.judged hd ⟨calls, d, hasked, hd, hruns.called⟩, hs⟩
  · rw [hs.world]
    exact hjudged

end

/-! ## Every compilation -/

section

variable (config : Config) (world : World) (log : List LogLine) (events : List Event)
  (name source : String) (options : OptionSet) (limit : Option Duration)

/-- **A compile error always carries an error.** In every state that a run can reach, whatever the
compiler wrote and however it ended: a compile error has the diagnostics in the log of the run, all
of them and in their order, and behind them at most one more, which stands there exactly if none of
them is an error, and which is an error with a message. -/
theorem compile_error_carries_error {config world log events name source options limit}
    {unit : String} {reported : List Diagnostic} {s' : State}
    (h : compileWithin name source options limit (runFrom (start config world log) events) =
      .error (.error (.compile unit reported)) s') :
    unit = name ∧ ∃ d run added, Dispatch.generate ⟨name, source⟩ = .ok d ∧
      Ran (runFrom (start config world log) events).world ⟨name, source⟩ s'.world.calls run ∧
      reported = logged ⟨name, source⟩ d run ++ added ∧ added.length ≤ 1 ∧
      (added ≠ [] ↔ ∀ r ∈ logged ⟨name, source⟩ d run, r.isError = false) ∧
      (∀ r ∈ added, r.isError = true ∧ r.message ≠ "") ∧ ∃ r ∈ reported, r.isError = true := by
  have hjudged := (ensures_judged (tidy_run config world log events) name source options
    limit).of_error (at_self _) h
  obtain ⟨rfl, d, run, ending, hd, hran, -, rfl⟩ := hjudged unit reported rfl
  obtain ⟨added, hreported, hlength, hadded, herrors⟩ := failureDiagnostics_eq_append
    (logged ⟨unit, source⟩ d run) (Text.Utf8.decodeLossy run.log) ending
  refine ⟨rfl, d, run, added, hd, hran, hreported, hlength, hadded, herrors, ?_⟩
  rw [hreported]
  cases added with
  | nil =>
    -- Nothing was added, so an error was found.
    by_contra hnone
    refine absurd rfl (hadded.2 fun r hr => Bool.eq_false_of_not_eq_true fun herror => hnone ?_)
    exact ⟨r, List.mem_append_left [] hr, herror⟩
  | cons r others =>
    exact ⟨r, List.mem_append_right _ List.mem_cons_self, (herrors r List.mem_cons_self).1⟩

end

/-- A compiler that writes something that is no message, a warning with a carriage return behind
it, and a byte that is no text, and is killed then. -/
def complaining : Compiler where
  version := ⟨[49], .exited 0⟩
  platform := []
  compile _ := ⟨true, Text.Utf8.encode ("noise\n\x7b\"message\":\"m\",\"level\":\"warning\"," ++
    "\"spans\":[]\x7d\r\n").toList ++ [255], none, .signalled 9, ⟨1⟩⟩

/-- There is that compiler, and a directory for scratch directories. -/
def complainingWorld : World :=
  { upwardWorld with files := ⟨[(["a"], .directory), (["c"], .program complaining)]⟩ }

/-- What is reported, if a compilation is refused for what the compiler wrote. -/
def reportedBy? {α : Type} : EStateM.Result Failure State α → Option (List Diagnostic)
  | .error (.error (.compile _ reported)) _ => some reported
  | _ => none

theorem reportedBy?_eq_some {α : Type} {result : EStateM.Result Failure State α}
    {reported : List Diagnostic} (h : reportedBy? result = some reported) :
    ∃ unit s', result = .error (.error (.compile unit reported)) s' := by
  unfold reportedBy? at h
  split at h
  · obtain rfl := Option.some.inj h
    exact ⟨_, _, rfl⟩
  · contradiction

/-- All that it wrote stands in an error behind the warning. -/
theorem compile_error_carries_error_complaining :
    ∃ unit s' reported, compileWithin "A" "pub struct A;" ⟨[]⟩ none
        (runFrom (start upward complainingWorld []) []) =
        .error (.error (.compile unit reported)) s' ∧
      reported.map Diagnostic.level = [.warning, .error] ∧ ∃ r ∈ reported, r.isError = true := by
  have hlevels : (reportedBy? (compileWithin "A" "pub struct A;" ⟨[]⟩ none
      (runFrom (start upward complainingWorld []) []))).map (List.map Diagnostic.level) =
        some [.warning, .error] := by
    decide +kernel
  obtain ⟨reported, hreported, hlevels⟩ := Option.map_eq_some_iff.1 hlevels
  obtain ⟨unit, s', hrun⟩ := reportedBy?_eq_some hreported
  obtain ⟨-, -, -, -, -, -, -, -, -, -, herror⟩ := compile_error_carries_error hrun
  exact ⟨unit, s', reported, hrun, hlevels, herror⟩

end UnitLoader.Engine
