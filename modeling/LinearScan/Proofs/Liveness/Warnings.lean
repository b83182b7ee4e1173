import LinearScan.Proofs.Liveness.Exact

/-!
# Warnings are sound and complete

An interval ends where its temp is first freed, so a mention behind that point is not covered: the
register may hold another value by then.  The pass warns about each such mention, and about each
further free marker (`Liveness.warnings`), and it leaves no other record but the temps that are
never freed.  So the warnings are what tells a caller whether the intervals can be relied on
(`Liveness.warned_iff`): there is none about a mention exactly if every mention lies inside the
interval of its temp.
-/

namespace LinearScan.Liveness

variable {operations : List Operation} {interval : Interval} {position : Nat} {id : TempId}

/-- The record about temps that are never freed, if there are any. -/
def unfreedRecord (operations : List Operation) : List Event :=
  if (neverFreed operations).isEmpty then [] else [.unfreed (neverFreed operations)]

/-- **The records of liveness**: the warnings, in order, then the temps that are never freed. -/
theorem events_eq (operations : List Operation) :
    (ofOperations operations).events.toList =
      warnings operations ++ unfreedRecord operations := by
  have events := (LivenessScan.follows_run operations).events
  have unfreed := unfreed_eq operations
  unfold ofOperations ofLifetimes at unfreed ⊢
  dsimp only at unfreed ⊢
  rw [unfreed, unfreedRecord]
  split
  · rw [events, List.append_nil]
  · rw [Array.toList_push, events]

/-- An operation is warned about for its own mentions only. -/
theorem referencedAfterFree_mem_warnings {before : List Operation} {place : Nat}
    {operation : Operation} :
    .referencedAfterFree id position ∈ operation.warnings before place ↔
      place = position ∧ (∃ temp ∈ operation.mentioned, temp.id = id) ∧
        before.any (·.frees id) = true := by
  unfold Operation.warnings
  rw [List.mem_append, List.mem_map, List.mem_map]
  constructor
  · rintro (⟨temp, member, same⟩ | ⟨temp, member, same⟩)
    · obtain ⟨rfl, rfl⟩ := Event.referencedAfterFree.inj same
      obtain ⟨mentioned, freed⟩ := List.mem_filter.mp member
      exact ⟨rfl, ⟨temp, mentioned, rfl⟩, freed⟩
    · cases same
  · rintro ⟨rfl, ⟨temp, mentioned, rfl⟩, freed⟩
    exact Or.inl ⟨temp, List.mem_filter.mpr ⟨mentioned, freed⟩, rfl⟩

/-- A mention is warned about if an earlier operation has freed the temp. -/
theorem referencedAfterFree_mem_iff :
    .referencedAfterFree id position ∈ (ofOperations operations).events.toList ↔
      (∃ temp, MentionedAt operations position temp ∧ temp.id = id) ∧
        (operations.take position).any (·.frees id) = true := by
  have notLast : .referencedAfterFree id position ∉ unfreedRecord operations := by
    unfold unfreedRecord
    split <;> simp
  rw [events_eq, List.mem_append, or_iff_left notLast, warnings, List.mem_flatMap]
  constructor
  · rintro ⟨⟨operation, place⟩, isOperation, member⟩
    obtain ⟨rfl, ⟨temp, mentioned, same⟩, freed⟩ := referencedAfterFree_mem_warnings.mp member
    have found := List.mem_zipIdx_iff_getElem?.mp isOperation
    exact ⟨⟨temp, ⟨operation, found, mentioned⟩, same⟩, freed⟩
  · rintro ⟨⟨temp, ⟨operation, found, mentioned⟩, same⟩, freed⟩
    exact ⟨(operation, position), List.mem_zipIdx_iff_getElem?.mpr found,
      referencedAfterFree_mem_warnings.mpr ⟨rfl, ⟨temp, mentioned, same⟩, freed⟩⟩

/-- An operation before a position has a property exactly if the first one that has it does not
come later. -/
theorem any_take_iff {property : Operation → Bool} :
    (operations.take position).any property = true ↔
      ∃ first, operations.findIdx? property = some first ∧ first < position := by
  rw [← List.findIdx?_isSome, List.findIdx?_take]
  cases operations.findIdx? property with
  | none => simp
  | some first => simp [Option.guard]

/-- **An interval ends before a position of the program exactly if its temp was freed there.** -/
theorem Spans.stop_lt_iff (spans : Spans operations interval)
    (inside : position < operations.length) :
    interval.stop < position ↔
      (operations.take position).any (·.frees interval.temp) = true := by
  rw [any_take_iff, spans.stop]
  cases operations.findIdx? (·.frees interval.temp) with
  | none =>
    rw [Option.getD_none]
    simp only [reduceCtorEq, false_and, exists_false, iff_false]
    omega
  | some first => simp

/-- **There is no warning about a mention exactly if every mention lies inside the interval of its
temp.** -/
theorem warned_iff (operations : List Operation) :
    (∀ id position,
      .referencedAfterFree id position ∉ (ofOperations operations).events.toList) ↔
    ∀ position temp, MentionedAt operations position temp →
      ∃ interval ∈ (ofOperations operations).intervals, interval.temp = temp.id ∧
        interval.start ≤ position ∧ position ≤ interval.stop := by
  have exact := exact_ofOperations operations
  constructor
  · intro quiet position temp mention
    obtain ⟨operation, found, mentioned⟩ := mention
    obtain ⟨interval, ⟨member, same⟩, -⟩ := (exact.single temp.id).mp
      ⟨operation, List.mem_of_getElem? found, temp, mentioned, rfl⟩
    have spans := exact.spans interval member
    have mentions : operation.mentions interval.temp = true :=
      List.any_eq_true.mpr ⟨temp, mentioned, beq_iff_eq.mpr same.symm⟩
    refine ⟨interval, member, same, findIdx?_le spans.start found mentions, ?_⟩
    by_contra behind
    -- The interval would have ended where an earlier operation frees the temp.
    have freed := (spans.stop_lt_iff (List.getElem?_eq_some_iff.mp found).1).mp
      (Nat.not_le.mp behind)
    rw [same] at freed
    exact quiet temp.id position
      (referencedAfterFree_mem_iff.mpr ⟨⟨temp, ⟨operation, found, mentioned⟩, rfl⟩, freed⟩)
  · intro covered id position member
    obtain ⟨⟨temp, mention, rfl⟩, freed⟩ := referencedAfterFree_mem_iff.mp member
    obtain ⟨interval, isInterval, same, -, inside⟩ := covered position temp mention
    rw [← same] at freed
    have behind := ((exact.spans interval isInterval).stop_lt_iff mention.lt).mpr freed
    exact Nat.not_le.mpr behind inside

/-- **Warnings are sound and complete.**  Liveness is computed without fault, and what it records
about a program are the warnings about it, one for each late mention and one for each further free
marker, in the order of the program, and then the temps that are never freed.  Hence no mention is
warned about exactly if every mention lies inside the interval of its temp. -/
theorem events_sound_complete (operations : List Operation) :
    compute operations = .ok (ofOperations operations) ∧
    (ofOperations operations).events.toList = warnings operations ++ unfreedRecord operations ∧
    ((∀ id position,
      .referencedAfterFree id position ∉ (ofOperations operations).events.toList) ↔
    ∀ position temp, MentionedAt operations position temp →
      ∃ interval ∈ (ofOperations operations).intervals, interval.temp = temp.id ∧
        interval.start ≤ position ∧ position ≤ interval.stop) ∧
    ∀ (id : TempId) (position : Nat),
      (Event.referencedAfterFree id position).message =
        s!"t{id.index} referenced at {position} after being freed" ∧
      (Event.freedTwice id position).message =
        s!"t{id.index} freed twice, second free at {position} ignored" := by
  refine ⟨compute_eq operations, events_eq operations, warned_iff operations, ?_⟩
  intro id position
  constructor
  · rfl
  · rfl

/-- A temp is used twice behind its free marker and freed again there, which is a mention too; so
not every mention lies inside an interval. -/
theorem events_sound_complete_tangled :
    (ofOperations tangled).events.toList =
        [.referencedAfterFree ⟨3⟩ 2, .referencedAfterFree ⟨3⟩ 2, .referencedAfterFree ⟨3⟩ 2,
          .freedTwice ⟨3⟩ 2, .unfreed [⟨5⟩]] ∧
      ¬ ∀ position temp, MentionedAt tangled position temp →
        ∃ interval ∈ (ofOperations tangled).intervals, interval.temp = temp.id ∧
          interval.start ≤ position ∧ position ≤ interval.stop := by
  obtain ⟨-, records, covered, -⟩ := events_sound_complete tangled
  refine ⟨records, fun inside => ?_⟩
  refine covered.mpr inside ⟨3⟩ 2 ?_
  rw [records]
  exact List.mem_cons_self

end LinearScan.Liveness
