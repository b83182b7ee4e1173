import LinearScan.Proofs.Ir.Scope

/-!
# Lifetimes in scoped programs

In a scoped program the first mention of a temp is its definition.  If moreover nothing is
mentioned behind its free marker, the interval of a temp starts where the temp is defined and
covers every mention of it (`exists_interval_of_defined`): that is all a client of an
allocation needs to know about liveness.
-/

namespace LinearScan

variable {operations : List Operation} {position position' : Nat} {temp temp' : Temp}

/-- No temp is mentioned behind a free marker of it. -/
def NoUseAfterFree (operations : List Operation) : Prop :=
  operations.Pairwise fun freeing later =>
    ∀ temp ∈ freeing.freed, ∀ other ∈ later.mentioned, other.id ≠ temp.id

instance : Decidable (NoUseAfterFree operations) :=
  inferInstanceAs (Decidable (operations.Pairwise _))

/-- Every mention of a temp that is freed comes before the free marker, or is it. -/
theorem NoUseAfterFree.le_of_freed (settled : NoUseAfterFree operations)
    (freed : FreedAt operations position temp) (mention : MentionedAt operations position' temp')
    (same : temp'.id = temp.id) : position' ≤ position := by
  obtain ⟨freeing, atFreeing, isFreed⟩ := freed
  obtain ⟨later, atLater, isMentioned⟩ := mention
  obtain ⟨inside, rfl⟩ := List.getElem?_eq_some_iff.mp atFreeing
  obtain ⟨inside', rfl⟩ := List.getElem?_eq_some_iff.mp atLater
  apply Nat.le_of_not_lt
  intro behind
  exact List.pairwise_iff_getElem.mp settled position position' inside inside' behind temp isFreed
    temp' isMentioned same

/-- What is defined is mentioned. -/
theorem DefinedAt.mentionedAt (defined : DefinedAt operations position temp) :
    MentionedAt operations position temp := by
  obtain ⟨operation, found, isDefined⟩ := defined
  refine ⟨operation, found, ?_⟩
  simp [Operation.mentioned, isDefined]

namespace Scoped

/-- A mention is the definition, or comes behind it. -/
theorem exists_definition (inScope : Scoped operations)
    (mention : MentionedAt operations position temp) :
    ∃ definition ≤ position, DefinedAt operations definition temp := by
  obtain ⟨operation, found, isMentioned⟩ := mention
  by_cases isDefined : operation.defined = some temp
  · exact ⟨position, Nat.le_refl _, operation, found, isDefined⟩
  · have isKnown : temp ∈ operation.used ++ operation.freed.toList := by
      simpa [Operation.mentioned, isDefined] using isMentioned
    obtain ⟨definition, before, defined⟩ := inScope.known position operation found temp isKnown
    exact ⟨definition, Nat.le_of_lt before, defined⟩

/-- **The interval of a temp** starts at its definition, has the size of its value, and covers
all its mentions. -/
theorem exists_interval_of_defined (inScope : Scoped operations)
    (settled : NoUseAfterFree operations) (defined : DefinedAt operations position temp) :
    ∃ interval ∈ (Liveness.ofOperations operations).intervals,
      interval.temp = temp.id ∧ interval.start = position ∧ interval.size = temp.size ∧
      ∀ later other, MentionedAt operations later other → other.id = temp.id →
        later ≤ interval.stop := by
  obtain ⟨interval, member, isTemp, early, ⟨first, firstMention, sameFirst, size⟩, ends⟩ :=
    Liveness.exists_interval defined.mentionedAt
  obtain ⟨definition, notLater, firstDefined⟩ := inScope.exists_definition firstMention
  -- The first mention is defined no later than itself, and by scoping nowhere but here.
  obtain rfl := inScope.once definition position first temp firstDefined defined sameFirst
  have start : interval.start = definition := Nat.le_antisymm early notLater
  obtain rfl := firstDefined.unique defined
  refine ⟨interval, member, isTemp, start, size.symm, ?_⟩
  intro later other mention same
  rcases ends with ⟨last, freed, sameLast⟩ | stop
  · exact settled.le_of_freed freed mention (same.trans sameLast.symm)
  · rw [stop]
    exact Nat.le_sub_one_of_lt mention.lt

end Scoped

end LinearScan
