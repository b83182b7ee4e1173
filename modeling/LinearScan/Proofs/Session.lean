import LinearScan.Proofs.Liveness.Exact

/-!
# Allocators have no memory

One allocator serves any number of calls, and a call starts from whatever the one before left
behind: registers that are still held, flags that are cleared, a cursor somewhere in the frame.
`Allocator.session` is such a sequence of calls.  Each of its answers is the answer that a fresh
allocator gives to the same call (`Allocator.session_eq_fresh`).

What a call leaves behind is an allocator that can be reached, and resetting the state of such an
allocator gives the state of a fresh one.  So the whole outcome of a call is the same, be it a
result or a fault, and not only the part of it that the caller sees.
-/

namespace LinearScan.Allocator

variable {catalog : Catalog} {options : Options} {allocator : Allocator}

/-- A call on an allocator. -/
inductive Call where
  | run (operations : List Operation)
  | runFrom (operations : List Operation) (stackBase : Nat)
  | runIntervals (intervals : List Interval) (stackBase : Nat)

/-- The outcome of a call. -/
def Call.on (allocator : Allocator) : Call → Except Halt CompletedRun
  | run operations => allocator.run operations
  | runFrom operations stackBase => allocator.runFrom operations stackBase
  | runIntervals intervals stackBase => allocator.runIntervals intervals stackBase

/-- Calls made one after the other, each on the allocator that the one before left behind.  A
fault ends the session. -/
def session (allocator : Allocator) : List Call → Except Halt (List CompletedRun)
  | [] => .ok []
  | call :: rest => do
    let run ← call.on allocator
    let others ← run.allocator.session rest
    return run :: others

/-- **A run over intervals does not depend on the history.** -/
theorem Reachable.runIntervals_eq (built : catalog.Built)
    (reachable : Reachable catalog options allocator) (intervals : List Interval)
    (stackBase : Nat) :
    allocator.runIntervals intervals stackBase =
      (ofCatalog catalog options).runIntervals intervals stackBase := by
  obtain ⟨sameCatalog, sameOptions, -⟩ := reachable.ready built.wellFormed
  unfold runIntervals
  rw [reachable.reset_eq built, Reachable.fresh.reset_eq built, sameCatalog, sameOptions]
  rfl

/-- **No call depends on the history.** -/
theorem Reachable.on_eq (built : catalog.Built) (reachable : Reachable catalog options allocator)
    (call : Call) : call.on allocator = call.on (ofCatalog catalog options) := by
  have program : ∀ operations stackBase, allocator.runFrom operations stackBase =
      (ofCatalog catalog options).runFrom operations stackBase := by
    intro operations stackBase
    rw [runFrom_eq, runFrom_eq, reachable.runIntervals_eq built]
  cases call with
  | run operations =>
    -- The base of the frame is an option, and options are not state.
    have base : allocator.options = options := (reachable.ready built.wellFormed).2.1
    show allocator.runFrom operations allocator.options.stackBase = _
    rw [base]
    exact program operations options.stackBase
  | runFrom operations stackBase => exact program operations stackBase
  | runIntervals intervals stackBase => exact reachable.runIntervals_eq built intervals stackBase

/-- A call that completes leaves an allocator behind that can be reached. -/
theorem Reachable.after (reachable : Reachable catalog options allocator) {call : Call}
    {run : CompletedRun} (done : call.on allocator = .ok run) :
    Reachable catalog options run.allocator := by
  have program : ∀ {operations stackBase}, allocator.runFrom operations stackBase = .ok run →
      Reachable catalog options run.allocator := by
    intro operations stackBase done
    rw [runFrom_eq] at done
    obtain ⟨inner, completed, rfl⟩ := exists_of_report done
    show Reachable catalog options inner.allocator
    exact reachable.ran completed
  cases call with
  | run operations => exact program done
  | runFrom operations stackBase => exact program done
  | runIntervals intervals stackBase => exact reachable.ran done

/-- The answers of a session that starts with a used allocator. -/
theorem Reachable.session_eq (built : catalog.Built) (calls : List Call) :
    ∀ {allocator : Allocator}, Reachable catalog options allocator →
      allocator.session calls = calls.mapM fun call => call.on (ofCatalog catalog options) := by
  induction calls with
  | nil => exact fun _ => rfl
  | cons call rest ih =>
    intro allocator reachable
    rw [session, List.mapM_cons, ← reachable.on_eq built call]
    cases done : call.on allocator with
    | error halt => rfl
    | ok run =>
      show (run.allocator.session rest >>= fun others => pure (run :: others)) = _
      rw [ih (reachable.after done)]
      rfl

/-- **Runs are independent of history.**  A session answers each of its calls as a fresh allocator
would, whatever the calls before have left behind; and where no fresh allocator would meet a fault,
the session meets none. -/
theorem session_eq_fresh (built : catalog.Built) (calls : List Call) :
    (ofCatalog catalog options).session calls =
      calls.mapM fun call => call.on (ofCatalog catalog options) :=
  Reachable.fresh.session_eq built calls

/-- Two runs that evict and spill, and between them two over a program with a temp that is never
freed. -/
def errands : List Call :=
  [.runIntervals busy 0, .run Liveness.tangled, .runFrom Liveness.tangled 16,
    .runIntervals busy 0]

/-- Each run ends with registers that are still held, and the last answer is the first. -/
theorem session_eq_fresh_errands :
    (Catalog.small Entry.nested).Built ∧
      ∃ first second third,
        (ofCatalog (.small Entry.nested) {}).session errands = .ok [first, second, third, first] ∧
        [first, second, third].map (·.allocator.state.active.size) = [2, 2, 2] ∧
        (first.allocation.spills, first.allocation.evictions) = (2, 1) ∧
        third.allocation.stackBase = 16 ∧
        third.allocation.diagnostics = [.unfreedTemps [⟨5⟩]] := by
  have intervals : (Liveness.ofOperations Liveness.tangled).intervals =
      [⟨⟨5⟩, 0, 3, 4, .i32⟩, ⟨⟨3⟩, 0, 1, 8, .i64⟩, ⟨⟨4⟩, 3, 3, 1, .i8⟩] := by
    rw [Liveness.intervals_eq]
    rfl
  obtain ⟨first, firstDone, firstHeld, firstCounts⟩ :
      ∃ run, (ofCatalog (.small Entry.nested) {}).runIntervals busy 0 = .ok run ∧
        run.allocator.state.active.size = 2 ∧
        (run.allocation.spills, run.allocation.evictions) = (2, 1) := ⟨_, rfl, rfl, rfl⟩
  obtain ⟨second, secondDone, secondHeld⟩ :
      ∃ run, (ofCatalog (.small Entry.nested) {}).run Liveness.tangled = .ok run ∧
        run.allocator.state.active.size = 2 := by
    rw [run, runFrom_eq, intervals]
    exact ⟨_, rfl, rfl⟩
  obtain ⟨third, thirdDone, thirdHeld, base, diagnostics⟩ :
      ∃ run, (ofCatalog (.small Entry.nested) {}).runFrom Liveness.tangled 16 = .ok run ∧
        run.allocator.state.active.size = 2 ∧ run.allocation.stackBase = 16 ∧
        run.allocation.diagnostics = [.unfreedTemps [⟨5⟩]] := by
    rw [runFrom_eq, intervals]
    exact ⟨_, rfl, rfl, rfl, rfl⟩
  refine ⟨Catalog.built_nested, first, second, third, ?_, ?_, firstCounts, base, diagnostics⟩
  · rw [session_eq_fresh Catalog.built_nested]
    simp only [errands, List.mapM_cons, List.mapM_nil, Call.on, firstDone, secondDone, thirdDone]
    rfl
  · simp only [List.map_cons, List.map_nil, firstHeld, secondHeld, thirdHeld]

end LinearScan.Allocator
