import LinearScan.Interval
import LinearScan.Proofs.Position
import Mathlib.Data.Finset.Card

/-!
# Pressure, and the exchange of spills

At each position of a program some intervals are live, and those that are not spilled need a
register each.  `pressure` counts them.  A set of spills is good enough for a number of
registers if the pressure that it leaves exceeds that number nowhere.

`Completable.exchange` is the heart of every statement that some choice of spills is the best.
Where too many intervals run through one position, any good set of spills contains one of
them.  It may as well contain the one that ends last instead: behind the position that one is
in the way longest, and before it nothing is at stake, because there the spills that have
already been chosen are enough by themselves.
-/

namespace LinearScan

variable {intervals done : List Interval} {interval : Interval} {index position bound : Nat}
  {spilled chosen : Finset Nat}

/-- Whether an interval, given by its place in a list, is live at a position. -/
def covers (intervals : List Interval) (index position : Nat) : Bool :=
  intervals[index]?.any fun interval => interval.start ≤ position && position ≤ interval.stop

/-- The places of the intervals that are live at a position and not spilled. -/
def alive (intervals : List Interval) (spilled : Finset Nat) (position : Nat) : Finset Nat :=
  (Finset.range intervals.length).filter fun index =>
    index ∉ spilled ∧ covers intervals index position = true

/-- The number of registers that are needed at a position. -/
def pressure (intervals : List Interval) (spilled : Finset Nat) (position : Nat) : Nat :=
  (alive intervals spilled position).card

theorem covers_iff :
    covers intervals index position = true ↔
      ∃ interval, intervals[index]? = some interval ∧ interval.start ≤ position ∧
        position ≤ interval.stop := by
  rw [covers, Option.any_eq_true]
  simp only [Bool.and_eq_true, decide_eq_true_eq]

/-- Only places in the list cover anything. -/
theorem lt_length_of_covers (live : covers intervals index position = true) :
    index < intervals.length := by
  obtain ⟨interval, found, -⟩ := covers_iff.mp live
  exact (List.getElem?_eq_some_iff.mp found).1

theorem mem_alive :
    index ∈ alive intervals spilled position ↔
      index ∉ spilled ∧ covers intervals index position = true := by
  rw [alive, Finset.mem_filter, Finset.mem_range]
  constructor
  · rintro ⟨-, holds⟩
    exact holds
  · intro holds
    exact ⟨lt_length_of_covers holds.2, holds⟩

/-- In a longer list, what covers a position is an old interval or the new one. -/
theorem covers_concat :
    covers (done ++ [interval]) index position = true ↔
      covers done index position = true ∨
        index = done.length ∧ interval.start ≤ position ∧ position ≤ interval.stop := by
  rw [covers_iff, covers_iff, exists_getElem?_concat]

/-- Where more intervals run through a position than there are registers, one of them is
spilled. -/
theorem exists_spilled {crowd : Finset Nat}
    (enough : pressure intervals spilled position ≤ bound) (crowded : bound < crowd.card)
    (through : ∀ index ∈ crowd, covers intervals index position = true) :
    ∃ index ∈ crowd, index ∈ spilled := by
  by_contra nobody
  push Not at nobody
  have inside : crowd ⊆ alive intervals spilled position := by
    intro index member
    exact mem_alive.mpr ⟨nobody index member, through index member⟩
  have large := Finset.card_le_card inside
  rw [pressure] at enough
  omega

/-- More spills leave less. -/
theorem pressure_anti (more : spilled ⊆ chosen) :
    pressure intervals chosen position ≤ pressure intervals spilled position := by
  refine Finset.card_le_card ?_
  intro index member
  obtain ⟨isNot, live⟩ := mem_alive.mp member
  exact mem_alive.mpr ⟨fun isSpilled => isNot (more isSpilled), live⟩

/-- Spilling one interval in place of another does not raise the pressure at a position where
the one is live if the other is. -/
theorem pressure_exchange_le {one other : Nat} (isNot : one ∉ spilled)
    (covered : covers intervals other position = true → covers intervals one position = true) :
    pressure intervals (insert one (spilled.erase other)) position ≤
      pressure intervals spilled position := by
  have remaining : ∀ index ∈ alive intervals (insert one (spilled.erase other)) position,
      index ≠ one ∧ covers intervals index position = true ∧
        (index = other ∨ index ∈ alive intervals spilled position) := by
    intro index member
    obtain ⟨kept, live⟩ := mem_alive.mp member
    rw [Finset.mem_insert, Finset.mem_erase, not_or, not_and] at kept
    refine ⟨kept.1, live, ?_⟩
    by_cases same : index = other
    · exact Or.inl same
    · exact Or.inr (mem_alive.mpr ⟨kept.2 same, live⟩)
  by_cases live : covers intervals other position = true
  · have isAlive : one ∈ alive intervals spilled position := mem_alive.mpr ⟨isNot, covered live⟩
    calc pressure intervals (insert one (spilled.erase other)) position
      _ ≤ (insert other ((alive intervals spilled position).erase one)).card := by
        refine Finset.card_le_card fun index member => ?_
        obtain ⟨differs, -, rfl | isAlive⟩ := remaining index member
        · exact Finset.mem_insert_self _ _
        · exact Finset.mem_insert_of_mem (Finset.mem_erase.mpr ⟨differs, isAlive⟩)
      _ ≤ ((alive intervals spilled position).erase one).card + 1 := Finset.card_insert_le _ _
      _ = pressure intervals spilled position := Finset.card_erase_add_one isAlive
  · refine Finset.card_le_card fun index member => ?_
    obtain ⟨-, liveIndex, rfl | isAlive⟩ := remaining index member
    · exact absurd liveIndex live
    · exact isAlive

/-- The chosen spills are part of a set of no more than the given size that leaves registers
enough everywhere. -/
def Completable (intervals : List Interval) (bound size : Nat) (chosen : Finset Nat) : Prop :=
  ∃ spilled : Finset Nat, chosen ⊆ spilled ∧ spilled.card ≤ size ∧
    ∀ position, pressure intervals spilled position ≤ bound

/-- **Exchange.**  Where more intervals run through a position than there are registers, and
the spills chosen so far were enough for what starts before, the interval that ends last may be
chosen next at no cost. -/
theorem Completable.exchange {size : Nat} (completable : Completable intervals bound size chosen)
    {crowd : Finset Nat} (apart : ∀ index ∈ crowd, index ∉ chosen) (crowded : bound < crowd.card)
    (through : ∀ index ∈ crowd, covers intervals index position = true) {last : Nat}
    (outlived : ∀ index ∈ crowd, ∀ p, position ≤ p → covers intervals index p = true →
      covers intervals last p = true)
    (earlier : ∀ p < position, ∀ index, covers intervals index p = true →
      covers done index p = true)
    (fits : ∀ p, pressure done chosen p ≤ bound) :
    Completable intervals bound size (insert last chosen) := by
  obtain ⟨spilled, contains, small, enough⟩ := completable
  by_cases already : last ∈ spilled
  · exact ⟨spilled, Finset.insert_subset already contains, small, enough⟩
  · obtain ⟨other, inCrowd, isSpilled⟩ := exists_spilled (enough position) crowded through
    have stays : chosen ⊆ spilled.erase other :=
      Finset.subset_erase.mpr ⟨contains, apart other inCrowd⟩
    refine ⟨insert last (spilled.erase other), Finset.insert_subset_insert _ stays, ?_, ?_⟩
    · rw [Finset.card_insert_of_notMem fun member => already (Finset.mem_of_mem_erase member),
        Finset.card_erase_add_one isSpilled]
      exact small
    · intro p
      by_cases behind : position ≤ p
      · exact Nat.le_trans (pressure_exchange_le already (outlived other inCrowd p behind))
          (enough p)
      · -- Before the position the chosen spills are enough, and they are all still there.
        refine Nat.le_trans (Finset.card_le_card fun index member => ?_) (fits p)
        obtain ⟨kept, live⟩ := mem_alive.mp member
        refine mem_alive.mpr ⟨?_, earlier p (Nat.lt_of_not_le behind) index live⟩
        intro isChosen
        exact kept (Finset.mem_insert_of_mem (stays isChosen))

end LinearScan
