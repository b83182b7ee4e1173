import LinearScan.Liveness
import LinearScan.Proofs.Outcome
import Mathlib.Data.List.Nodup

/-!
# Places and lifetimes

A pass keeps its intervals in one place and what it knows about temps in another, and looks up the
one by the other.  `LivenessPass.Represents` is what holds the two together: the temps that are
known are those of the intervals, each with the place that its interval has.  Under it every
lookup succeeds, and the pass does what `LivenessScan` does, in which each interval lies beside
what is known about its temp.

`Liveness.compute_eq` is the outcome: liveness meets no fault, and everything else about it may be
shown lifetime by lifetime.
-/

namespace LinearScan

open Outcome

namespace LivenessScan

variable {scan : LivenessScan} {id : TempId} {lifetime : Lifetime} {lifetimes : List Lifetime}

/-- A lifetime that is found is one of the temp. -/
theorem mem_of_find? (found : scan.find? id = some lifetime) :
    lifetime ∈ scan.lifetimes ∧ lifetime.interval.temp = id := by
  have same := List.find?_some found
  exact ⟨List.mem_of_find?_eq_some found, beq_iff_eq.mp same⟩

/-- A temp is not found if no lifetime is its own. -/
theorem find?_eq_none_iff :
    scan.find? id = none ↔ id ∉ scan.lifetimes.map (·.interval.temp) := by
  rw [find?, List.find?_eq_none, List.mem_map]
  constructor
  · rintro differs ⟨lifetime, member, same⟩
    exact differs lifetime member (beq_iff_eq.mpr same)
  · intro absent lifetime member same
    exact absent ⟨lifetime, member, beq_iff_eq.mp same⟩

/-- The temps of the lifetimes are the same when one of them is closed. -/
theorem map_temp_close (lifetimes : List Lifetime) (id : TempId) (position : Nat) :
    (close lifetimes id position).map (·.interval.temp) = lifetimes.map (·.interval.temp) := by
  rw [close, List.map_map]
  refine List.map_congr_left fun lifetime _ => ?_
  rw [Function.comp_apply]
  split <;> rfl

/-- Where no temp has two lifetimes, closing that of a temp is a change at one place. -/
theorem close_eq_set (distinct : (lifetimes.map (·.interval.temp)).Nodup) {index : Nat}
    (atIndex : lifetimes[index]? = some lifetime) (position : Nat) :
    close lifetimes lifetime.interval.temp position =
      lifetimes.set index ⟨{ lifetime.interval with stop := position }, true⟩ := by
  have inside : index < lifetimes.length := (List.getElem?_eq_some_iff.mp atIndex).1
  apply List.ext_getElem?
  intro place
  rw [close, List.getElem?_map, List.getElem?_set]
  by_cases same : index = place
  · subst same
    rw [if_pos rfl, if_pos inside, atIndex, Option.map_some, if_pos rfl]
  · rw [if_neg same]
    cases atPlace : lifetimes[place]? with
    | none => rfl
    | some other =>
      have differs : other.interval.temp ≠ lifetime.interval.temp := by
        intro equal
        refine same ((List.getElem?_inj (by rwa [List.length_map]) distinct).mp ?_)
        rw [List.getElem?_map, List.getElem?_map, atIndex, atPlace, Option.map_some,
          Option.map_some, equal]
      rw [Option.map_some, if_neg differs]

end LivenessScan

namespace LivenessPass

variable {pass : LivenessPass} {scan : LivenessScan} {position index : Nat} {temp : Temp}
  {lifetime : Lifetime}

/-- **A pass stands for lifetimes.** -/
structure Represents (pass : LivenessPass) (scan : LivenessScan) : Prop where
  /-- No temp has two lifetimes. -/
  distinct : (scan.lifetimes.map (·.interval.temp)).Nodup
  intervals : pass.intervals.toList = scan.lifetimes.map (·.interval)
  /-- What is known about a temp leads to its lifetime. -/
  seen : ∀ index lifetime, scan.lifetimes[index]? = some lifetime →
    pass.seen? lifetime.interval.temp = some ⟨index, lifetime.closed⟩
  /-- Nothing is known about other temps. -/
  unseen : ∀ id ∉ scan.lifetimes.map (·.interval.temp), pass.seen? id = none
  events : pass.events = scan.events

theorem represents_empty : Represents empty .empty where
  distinct := List.nodup_nil
  intervals := rfl
  seen := by simp [LivenessScan.empty]
  unseen _ _ := rfl
  events := rfl

/-- What is learnt about a temp is known about it from then on, and about no other. -/
theorem lookup_cons (seen : List (TempId × Seen)) (id other : TempId) (news : Seen) :
    ((id, news) :: seen).lookup other = if other = id then some news else seen.lookup other := by
  rw [List.lookup_cons]
  by_cases same : other = id
  · rw [if_pos same, beq_iff_eq.mpr same]
  · rw [if_neg same, beq_eq_false_iff_ne.mpr same]

namespace Represents

/-- A record is left by both. -/
theorem log (represents : Represents pass scan) (event : Event) :
    Represents (pass.log event) (scan.log event) :=
  ⟨represents.distinct, represents.intervals, represents.seen, represents.unseen,
    congrArg (·.push event) represents.events⟩

theorem size_intervals (represents : Represents pass scan) :
    pass.intervals.size = scan.lifetimes.length := by
  rw [← Array.length_toList, represents.intervals, List.length_map]

/-- **What is looked up is there.** -/
theorem exists_index (represents : Represents pass scan) {id : TempId}
    (found : scan.find? id = some lifetime) :
    ∃ index, scan.lifetimes[index]? = some lifetime ∧
      pass.seen? id = some ⟨index, lifetime.closed⟩ ∧
      pass.interval index = .ok lifetime.interval := by
  obtain ⟨member, same⟩ := LivenessScan.mem_of_find? found
  obtain ⟨index, atIndex⟩ := List.mem_iff_getElem?.mp member
  refine ⟨index, atIndex, same ▸ represents.seen index lifetime atIndex, ?_⟩
  have there : pass.intervals[index]? = some lifetime.interval := by
    rw [← Array.getElem?_toList, represents.intervals, List.getElem?_map, atIndex]
    rfl
  rw [interval, there]

/-- The first mention of a temp gives it a place behind the others. -/
theorem opened (represents : Represents pass scan)
    (absent : temp.id ∉ scan.lifetimes.map (·.interval.temp)) :
    Represents
      { pass with
        intervals := pass.intervals.push (.point temp position)
        seen := (temp.id, ⟨pass.intervals.size, false⟩) :: pass.seen }
      { scan with lifetimes := scan.lifetimes ++ [⟨.point temp position, false⟩] } where
  distinct := by
    rw [List.map_append, List.nodup_append]
    refine ⟨represents.distinct, List.nodup_singleton _, ?_⟩
    rintro id member last isLast rfl
    obtain rfl : id = temp.id := List.mem_singleton.mp isLast
    exact absent member
  intervals := by
    rw [Array.toList_push, represents.intervals, List.map_append]
    rfl
  seen := by
    intro index lifetime atIndex
    rw [seen?, lookup_cons]
    rcases Nat.lt_or_ge index scan.lifetimes.length with inside | behind
    · rw [List.getElem?_append_left inside] at atIndex
      have differs : lifetime.interval.temp ≠ temp.id := fun same =>
        absent (same ▸ List.mem_map_of_mem (List.mem_of_getElem? atIndex))
      rw [if_neg differs]
      exact represents.seen index lifetime atIndex
    · rw [List.getElem?_append_right behind, List.getElem?_singleton] at atIndex
      split at atIndex
      · next last =>
        obtain rfl := Option.some.inj atIndex
        have size : pass.intervals.size = index :=
          represents.size_intervals.trans (Nat.le_antisymm behind (Nat.sub_eq_zero_iff_le.mp last))
        rw [size]
        exact if_pos rfl
      · cases atIndex
  unseen := by
    intro id other
    rw [List.map_append, List.mem_append, not_or] at other
    have differs : id ≠ temp.id := mt List.mem_singleton.mpr other.2
    rw [seen?, lookup_cons, if_neg differs]
    exact represents.unseen id other.1
  events := represents.events

/-- **One mention** is met by both alike. -/
theorem touch (represents : Represents pass scan) (position : Nat) (temp : Temp) :
    ∃ pass', pass.touch position temp = .ok pass' ∧
      Represents pass' (scan.touch position temp) := by
  unfold LivenessPass.touch LivenessScan.touch
  cases found : scan.find? temp.id with
  | none =>
    have absent := LivenessScan.find?_eq_none_iff.mp found
    rw [represents.unseen _ absent, Interval.make, if_pos (Nat.le_refl _)]
    exact ⟨_, rfl, represents.opened absent⟩
  | some lifetime =>
    obtain ⟨index, -, known, there⟩ := represents.exists_index found
    obtain ⟨interval, closed⟩ := lifetime
    rw [known]
    cases closed with
    | false => exact ⟨pass, rfl, represents⟩
    | true =>
      simp only [there, guard, bind, Except.bind, Bool.true_and, decide_eq_true_eq]
      split
      · exact ⟨_, rfl, represents.log _⟩
      · exact ⟨_, rfl, represents⟩

/-- A free marker closes a lifetime where it is. -/
theorem closed (represents : Represents pass scan)
    (atIndex : scan.lifetimes[index]? = some lifetime) (position : Nat) :
    Represents
      { pass with
        intervals := pass.intervals.setIfInBounds index { lifetime.interval with stop := position }
        seen := (lifetime.interval.temp, ⟨index, true⟩) :: pass.seen }
      { scan with
        lifetimes := LivenessScan.close scan.lifetimes lifetime.interval.temp position } where
  distinct := by
    rw [LivenessScan.map_temp_close]
    exact represents.distinct
  intervals := by
    rw [LivenessScan.close_eq_set represents.distinct atIndex, Array.toList_setIfInBounds,
      represents.intervals, List.map_set]
  seen := by
    intro place other atPlace
    have inside : index < scan.lifetimes.length := (List.getElem?_eq_some_iff.mp atIndex).1
    rw [LivenessScan.close_eq_set represents.distinct atIndex, List.getElem?_set] at atPlace
    rw [seen?, lookup_cons]
    by_cases same : index = place
    · rw [if_pos same, if_pos inside] at atPlace
      obtain rfl := Option.some.inj atPlace
      rw [← same]
      exact if_pos rfl
    · rw [if_neg same] at atPlace
      have known := represents.seen place other atPlace
      -- Two lifetimes of one temp would be at one place.
      have differs : other.interval.temp ≠ lifetime.interval.temp := by
        intro equal
        rw [equal, represents.seen index lifetime atIndex] at known
        exact same (Seen.mk.inj (Option.some.inj known)).1
      rw [if_neg differs]
      exact known
  unseen := by
    intro id absent
    rw [LivenessScan.map_temp_close] at absent
    have differs : id ≠ lifetime.interval.temp := fun same =>
      absent (same ▸ List.mem_map_of_mem (List.mem_of_getElem? atIndex))
    rw [seen?, lookup_cons, if_neg differs]
    exact represents.unseen id absent
  events := represents.events

/-- **One free marker** is met by both alike. -/
theorem free (represents : Represents pass scan) (position : Nat) (temp : Temp) :
    ∃ pass', pass.free position temp = .ok pass' ∧
      Represents pass' (scan.free position temp) := by
  unfold LivenessPass.free LivenessScan.free
  cases found : scan.find? temp.id with
  | none =>
    rw [represents.unseen _ (LivenessScan.find?_eq_none_iff.mp found)]
    exact ⟨_, rfl, represents.log _⟩
  | some lifetime =>
    obtain ⟨index, atIndex, known, there⟩ := represents.exists_index found
    obtain ⟨-, same⟩ := LivenessScan.mem_of_find? found
    obtain ⟨interval, closed⟩ := lifetime
    rw [known]
    cases closed with
    | false =>
      simp only [there, guard, bind, Except.bind]
      refine ⟨_, rfl, ?_⟩
      rw [← same]
      exact represents.closed atIndex position
    | true => exact ⟨_, rfl, represents.log _⟩

/-- All mentions of one operation. -/
theorem touchAll (temps : List Temp) :
    ∀ {pass : LivenessPass} {scan : LivenessScan}, Represents pass scan →
      ∃ pass', temps.foldlM (fun pass temp => pass.touch position temp) pass = .ok pass' ∧
        Represents pass' (temps.foldl (fun scan temp => scan.touch position temp) scan) := by
  induction temps with
  | nil => exact fun represents => ⟨_, rfl, represents⟩
  | cons temp rest ih =>
    intro pass scan represents
    obtain ⟨middle, touched, represents⟩ := represents.touch position temp
    rw [List.foldlM_cons, touched]
    exact ih represents

/-- **One operation** is met by both alike. -/
theorem step (represents : Represents pass scan) (position : Nat) (operation : Operation) :
    ∃ pass', pass.step position operation = .ok pass' ∧
      Represents pass' (scan.step position operation) := by
  obtain ⟨middle, touched, represents⟩ := represents.touchAll operation.mentioned
  rw [LivenessPass.step, LivenessScan.step, touched]
  cases operation.freed with
  | none => exact ⟨_, rfl, represents⟩
  | some temp => exact represents.free position temp

/-- **A whole pass** meets no fault, and stands for the lifetimes of the program. -/
theorem run (operations : List Operation) :
    ∀ {pass : LivenessPass} {scan : LivenessScan} {position : Nat}, Represents pass scan →
      ∃ pass', pass.run position operations = .ok pass' ∧
        Represents pass' (scan.run position operations) := by
  induction operations with
  | nil => exact fun represents => ⟨_, rfl, represents⟩
  | cons operation rest ih =>
    intro pass scan position represents
    obtain ⟨middle, met, represents⟩ := represents.step position operation
    rw [LivenessPass.run, met]
    exact ih represents

/-- The lifetimes of a pass are those that it stands for. -/
theorem lifetimes_eq (represents : Represents pass scan) :
    pass.lifetimes = .ok scan.lifetimes := by
  rw [lifetimes, represents.intervals]
  refine mapM_map_eq_ok ?_
  intro lifetime member
  obtain ⟨index, atIndex⟩ := List.mem_iff_getElem?.mp member
  rw [isClosed, represents.seen index lifetime atIndex]
  rfl

end Represents

end LivenessPass

/-- **Liveness meets no fault**: it finds every place that it looks up, and makes no interval that
ends before it starts.  Its outcome is that of the pass over lifetimes. -/
theorem Liveness.compute_eq (operations : List Operation) :
    compute operations = .ok (ofOperations operations) := by
  obtain ⟨pass, met, represents⟩ := LivenessPass.represents_empty.run operations
  rw [compute, met]
  show (do
    let lifetimes ← pass.guard pass.lifetimes
    return ofLifetimes (operations.length - 1) lifetimes pass.events) = _
  rw [represents.lifetimes_eq, represents.events]
  rfl

end LinearScan
