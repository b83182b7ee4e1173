import LinearScan.Proofs.Liveness.Marks
import LinearScan.Proofs.Position

/-!
# What the intervals of a program cover

Liveness makes one interval per temp.  Two facts about it matter to whoever uses the
intervals: no temp has two of them, and a temp's interval reaches from its first mention to
a free marker of it, or to the last position if there is none
(`Liveness.exists_interval`).

`LivenessScan.Tracks` is what these facts need of the pass.  It leaves open which of several
free markers ends a lifetime, and is part of what `LivenessScan.Follows` says.
-/

namespace LinearScan

/-- An operation at a position mentions a temp. -/
def MentionedAt (operations : List Operation) (position : Nat) (temp : Temp) : Prop :=
  ∃ operation, operations[position]? = some operation ∧ temp ∈ operation.mentioned

/-- An operation at a position frees a temp. -/
def FreedAt (operations : List Operation) (position : Nat) (temp : Temp) : Prop :=
  ∃ operation, operations[position]? = some operation ∧ operation.freed = some temp

/-- A mention has the position of an operation. -/
theorem MentionedAt.lt {operations : List Operation} {position : Nat} {temp : Temp}
    (mentioned : MentionedAt operations position temp) : position < operations.length := by
  obtain ⟨operation, found, -⟩ := mentioned
  exact (List.getElem?_eq_some_iff.mp found).1

/-- The first operation with a property is not behind any other that has it. -/
theorem findIdx?_le {operations : List Operation} {property : Operation → Bool}
    {first position : Nat} {operation : Operation}
    (isFirst : operations.findIdx? property = some first)
    (found : operations[position]? = some operation) (holds : property operation = true) :
    first ≤ position := by
  obtain ⟨_, _, earlier⟩ := List.findIdx?_eq_some_iff_getElem.mp isFirst
  obtain ⟨inside, rfl⟩ := List.getElem?_eq_some_iff.mp found
  by_contra before
  exact earlier position (Nat.not_le.mp before) holds

namespace LivenessScan

variable {operations : List Operation} {scan : LivenessScan} {lifetime : Lifetime}
  {log : List Event}

/-- **Each temp that is mentioned has one lifetime.**  It starts at a mention, no mention is before
it, and where it is closed the temp is freed. -/
structure Tracks (operations : List Operation) (scan : LivenessScan) : Prop where
  distinct : (scan.lifetimes.map (·.interval.temp)).Nodup
  met : ∀ position temp, MentionedAt operations position temp →
    ∃ lifetime ∈ scan.lifetimes, lifetime.interval.temp = temp.id ∧
      lifetime.interval.start ≤ position
  begun : ∀ lifetime ∈ scan.lifetimes, ∃ temp, MentionedAt operations lifetime.interval.start temp ∧
    temp.id = lifetime.interval.temp ∧ temp.size = lifetime.interval.size
  ended : ∀ lifetime ∈ scan.lifetimes, lifetime.closed = true →
    ∃ temp, FreedAt operations lifetime.interval.stop temp ∧ temp.id = lifetime.interval.temp

/-- A lifetime starts with the first operation that mentions its temp. -/
theorem Follows.findIdx?_mentions
    (follows : Follows (Mark.mentions operations) (Mark.frees operations) log scan)
    (member : lifetime ∈ scan.lifetimes) :
    operations.findIdx? (·.mentions lifetime.interval.temp) = some lifetime.interval.start := by
  have first := Mark.position_first?_all Operation.mentioned operations lifetime.interval.temp
  rw [follows.begun lifetime member] at first
  exact first.symm

/-- A lifetime that is closed ends with the first operation that frees its temp. -/
theorem Follows.findIdx?_frees
    (follows : Follows (Mark.mentions operations) (Mark.frees operations) log scan)
    (member : lifetime ∈ scan.lifetimes) :
    operations.findIdx? (·.frees lifetime.interval.temp) =
      if lifetime.closed then some lifetime.interval.stop else none := by
  rw [← follows.ended lifetime member]
  exact (Mark.position_first?_all _ operations lifetime.interval.temp).symm

/-- A pass that follows the marks of a program tracks them. -/
theorem Follows.tracks
    (follows : Follows (Mark.mentions operations) (Mark.frees operations) log scan) :
    Tracks operations scan where
  distinct := by
    rw [follows.temps]
    exact nodup_eraseDups _
  met := by
    rintro position temp ⟨operation, found, mentioned⟩
    have isMark : (⟨position, temp⟩ : Mark) ∈ Mark.mentions operations :=
      Mark.mem_all_iff.mpr ⟨operation, found, mentioned⟩
    have isMet : temp.id ∈ scan.lifetimes.map (·.interval.temp) := by
      rw [follows.temps, List.mem_eraseDups]
      exact List.mem_map.mpr ⟨_, isMark, rfl⟩
    obtain ⟨lifetime, member, same⟩ := List.mem_map.mp isMet
    refine ⟨lifetime, member, same, ?_⟩
    refine findIdx?_le (follows.findIdx?_mentions member) found ?_
    exact List.any_eq_true.mpr ⟨temp, mentioned, beq_iff_eq.mpr same.symm⟩
  begun := by
    intro lifetime member
    obtain ⟨isMark, -⟩ := Mark.mem_of_first? (follows.begun lifetime member)
    exact ⟨_, Mark.mem_all_iff.mp isMark, rfl, rfl⟩
  ended := by
    intro lifetime member closed
    have ended := follows.ended lifetime member
    rw [if_pos closed] at ended
    obtain ⟨mark, first, same⟩ := Option.map_eq_some_iff.mp ended
    obtain ⟨isMark, sameTemp⟩ := Mark.mem_of_first? first
    obtain ⟨operation, found, freed⟩ := Mark.mem_all_iff.mp isMark
    exact ⟨mark.temp, ⟨operation, same ▸ found, Option.mem_toList.mp freed⟩, sameTemp⟩

/-- The pass over a program meets all its mentions and free markers. -/
theorem tracks_run (operations : List Operation) : Tracks operations (empty.run 0 operations) :=
  (follows_run operations).tracks

end LivenessScan

namespace Liveness

/-- Completing a lifetime settles where it ends, and nothing else. -/
theorem complete_eq (last : Nat) (lifetime : Lifetime) :
    complete last lifetime =
      { lifetime.interval with
        stop := if lifetime.closed then lifetime.interval.stop else last } := by
  unfold complete
  split <;> rfl

/-- **The sort at the end has nothing to do.** -/
theorem intervals_eq (operations : List Operation) :
    (ofOperations operations).intervals =
      (LivenessScan.empty.run 0 operations).lifetimes.map (complete (operations.length - 1)) := by
  rw [ofOperations, ofLifetimes]
  refine List.mergeSort_of_pairwise (List.pairwise_map.mpr ?_)
  refine (LivenessScan.follows_run operations).ascending.imp ?_
  intro a b le
  rw [complete_eq, complete_eq]
  exact decide_eq_true le

/-- Every interval is a lifetime, completed. -/
theorem mem_intervals {operations : List Operation} {interval : Interval} :
    interval ∈ (ofOperations operations).intervals ↔
      ∃ lifetime ∈ (LivenessScan.empty.run 0 operations).lifetimes,
        complete (operations.length - 1) lifetime = interval := by
  rw [intervals_eq, List.mem_map]

theorem complete_temp (last : Nat) (lifetime : Lifetime) :
    (complete last lifetime).temp = lifetime.interval.temp := by
  rw [complete_eq]

/-- **No temp has two intervals.** -/
theorem nodup_intervals (operations : List Operation) :
    ((ofOperations operations).intervals.map Interval.temp).Nodup := by
  rw [intervals_eq, List.map_map]
  have temps : Interval.temp ∘ complete (operations.length - 1) = (·.interval.temp) := by
    funext lifetime
    exact complete_temp _ lifetime
  rw [temps]
  exact (LivenessScan.tracks_run operations).distinct

/-- **The interval of a temp** starts at its first mention, with the size that it has there,
and ends where the temp is freed, or else at the last position. -/
theorem exists_interval {operations : List Operation} {position : Nat} {temp : Temp}
    (mention : MentionedAt operations position temp) :
    ∃ interval ∈ (ofOperations operations).intervals,
      interval.temp = temp.id ∧ interval.start ≤ position ∧
      (∃ first, MentionedAt operations interval.start first ∧ first.id = temp.id ∧
        first.size = interval.size) ∧
      ((∃ last, FreedAt operations interval.stop last ∧ last.id = temp.id) ∨
        interval.stop = operations.length - 1) := by
  have tracks := LivenessScan.tracks_run operations
  obtain ⟨lifetime, member, same, early⟩ := tracks.met position temp mention
  obtain ⟨first, firstMention, sameFirst, size⟩ := tracks.begun lifetime member
  refine ⟨_, mem_intervals.mpr ⟨lifetime, member, rfl⟩, ?_⟩
  cases closed : lifetime.closed with
  | true =>
    rw [complete, if_pos closed]
    obtain ⟨last, freed, sameLast⟩ := tracks.ended lifetime member closed
    exact ⟨same, early, ⟨first, firstMention, sameFirst.trans same, size⟩,
      Or.inl ⟨last, freed, sameLast.trans same⟩⟩
  | false =>
    rw [complete, closed]
    exact ⟨same, early, ⟨first, firstMention, sameFirst.trans same, size⟩, Or.inr rfl⟩

/-- The intervals of a program are sorted by start. -/
theorem pairwise_start (operations : List Operation) :
    (ofOperations operations).intervals.Pairwise (·.start ≤ ·.start) := by
  show (List.mergeSort _ fun a b : Interval => decide (a.start ≤ b.start)).Pairwise
    fun a b => a.start ≤ b.start
  refine (List.pairwise_mergeSort ?_ ?_ _).imp fun {a b} le => of_decide_eq_true le
  · intro a b c first second
    simpa using Nat.le_trans (of_decide_eq_true first) (of_decide_eq_true second)
  · intro a b
    simpa using Nat.le_total a.start b.start

/-- An operation of a program mentions a temp. -/
def Mentions (operations : List Operation) (id : TempId) : Prop :=
  ∃ operation ∈ operations, ∃ temp ∈ operation.mentioned, temp.id = id

/-- **The temps of the intervals are the temps that are mentioned.** -/
theorem mem_map_temp_iff {operations : List Operation} {id : TempId} :
    id ∈ (ofOperations operations).intervals.map Interval.temp ↔ Mentions operations id := by
  rw [List.mem_map]
  constructor
  · rintro ⟨interval, member, rfl⟩
    obtain ⟨lifetime, isLifetime, rfl⟩ := mem_intervals.mp member
    obtain ⟨temp, ⟨operation, found, mentioned⟩, same, -⟩ :=
      (LivenessScan.tracks_run operations).begun lifetime isLifetime
    rw [complete_temp]
    exact ⟨operation, List.mem_of_getElem? found, temp, mentioned, same⟩
  · rintro ⟨operation, member, temp, mentioned, rfl⟩
    obtain ⟨position, found⟩ := List.mem_iff_getElem?.mp member
    have mention : MentionedAt operations position temp := ⟨operation, found, mentioned⟩
    obtain ⟨interval, isInterval, same, -⟩ := exists_interval mention
    exact ⟨interval, isInterval, same⟩

end Liveness

end LinearScan
