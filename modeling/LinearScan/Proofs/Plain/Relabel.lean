import LinearScan.Proofs.Assignment
import LinearScan.Proofs.Outcome
import LinearScan.Proofs.Plain.Scan
import Mathlib.Data.List.Basic
import Mathlib.Data.Set.Operations
import Mathlib.Order.Monotone.Basic

/-!
# Scans under other labels

Temps have names, positions have numbers, and the frame has a base.  A scan keeps assignments in the
order of names, compares numbers, and adds to the base; but what it decides depends on none of this
beyond which temps are equal, which position comes first, and how far a slot is from the base.

`PlainScan.Relabels` relates two scans that differ in these labels alone.  Which register is picked
and which holder has to yield are then the same choices (`PlainScan.pick?_relabel`,
`PlainScan.victim?_relabel`), ties included: a strictly increasing map of positions creates no tie
and breaks none, and the place in the scan that decides a tie is not a label.

Only the stack can tell two bases apart, since the frame ends at a fixed offset.  So the two scans
may overflow at different times, and `Outcome.Parallel` says that they do not if the bases agree.
-/

namespace LinearScan

open Outcome

/-! ## Labels -/

/-- Other names for temps, and other numbers for positions. -/
structure Labels where
  rename : TempId → TempId
  move : Nat → Nat
  injective : Function.Injective rename
  strictMono : StrictMono move

/-- An interval under other labels. -/
def Interval.relabel (labels : Labels) (interval : Interval) : Interval :=
  { interval with
    temp := labels.rename interval.temp
    start := labels.move interval.start
    stop := labels.move interval.stop }

/-- A holder under other labels.  Its place in the scan stays. -/
def Held.relabel (labels : Labels) (holder : Held) : Held :=
  { holder with interval := holder.interval.relabel labels }

variable {labels : Labels}

theorem Interval.relabel_injective (labels : Labels) :
    Function.Injective (Interval.relabel labels) := by
  rintro ⟨temp, start, stop, size, type⟩ ⟨temp', start', stop', size', type'⟩ same
  simp only [relabel, Interval.mk.injEq, labels.injective.eq_iff,
    labels.strictMono.injective.eq_iff] at same
  simpa using same

theorem Held.relabel_injective (labels : Labels) : Function.Injective (Held.relabel labels) := by
  rintro ⟨interval, seq, register, bank⟩ ⟨interval', seq', register', bank'⟩ same
  simp only [relabel, Held.mk.injEq, (Interval.relabel_injective labels).eq_iff] at same
  simpa using same

/-- The order of expiry is that of positions and of places in the scan. -/
@[simp] theorem Held.before_relabel (a b : Held) :
    (a.relabel labels).before (b.relabel labels) = a.before b := by
  rw [Bool.eq_iff_iff, before_iff, before_iff]
  exact or_congr labels.strictMono.lt_iff_lt
    (and_congr_left fun _ => labels.strictMono.injective.eq_iff)

/-! ## Choices -/

namespace PlainScan

variable {catalog : Catalog} {options : Options} {held : List Held} {interval : Interval}

theorem pick?_relabel :
    pick? catalog (held.map (Held.relabel labels)) (interval.relabel labels) =
      pick? catalog held interval := by
  have clear : isClear catalog.registers (held.map (Held.relabel labels)) =
      isClear catalog.registers held := by
    funext register
    rw [isClear, List.all_map]
    rfl
  rw [pick?, clear]
  rfl

theorem latest?_relabel (held : List Held) :
    latest? (held.map (Held.relabel labels)) = (latest? held).map (Held.relabel labels) := by
  induction held with
  | nil => rfl
  | cons holder rest ih =>
    rw [List.map_cons, latest?, latest?, ih]
    cases latest? rest with
    | none => rfl
    | some other =>
      rw [Option.map_some]
      dsimp only
      rw [Held.before_relabel]
      split <;> rfl

theorem victim?_relabel :
    victim? catalog options (held.map (Held.relabel labels)) (interval.relabel labels) =
      (victim? catalog options held interval).map (Held.relabel labels) := by
  have yields (holder : Held) :
      (decide ((interval.relabel labels).stop < (holder.relabel labels).interval.stop) &&
        (catalog.bank? holder.bank).any (·.admits interval.type interval.size)) =
      (decide (interval.stop < holder.interval.stop) &&
        (catalog.bank? holder.bank).any (·.admits interval.type interval.size)) := by
    rw [decide_eq_decide.mpr]
    exact labels.strictMono.lt_iff_lt
  unfold victim?
  split
  · rw [latest?_relabel, Option.filter_map]
    exact congrArg (fun test => ((latest? held).filter test).map _) (funext yields)
  · rfl

theorem filter_relabel (position : Nat) (held : List Held) :
    (held.map (Held.relabel labels)).filter
        (fun holder => labels.move position ≤ holder.interval.stop) =
      (held.filter fun holder => position ≤ holder.interval.stop).map (Held.relabel labels) := by
  rw [List.filter_map]
  refine congrArg _ (List.filter_congr fun holder _ => ?_)
  exact decide_eq_decide.mpr labels.strictMono.le_iff_le

end PlainScan

/-! ## Scans -/

/-- The same register, or a slot at the same distance from the base. -/
inductive Location.Shifted (base base' : Nat) : Location → Location → Prop
  | register (id : RegisterId) : Shifted base base' (.register id) (.register id)
  | stack {offset offset' : Nat} (distance : offset' + base = offset + base') :
      Shifted base base' (.stack offset) (.stack offset')

/-- An assignment of temps under other names, in a frame with another base. -/
structure Assignment.Relabels (labels : Labels) (base base' : Nat)
    (assignment assignment' : Assignment) : Prop where
  places : ∀ temp, Option.Rel (Location.Shifted base base') (assignment.get? temp)
    (assignment'.get? (labels.rename temp))
  /-- Nothing is said of other names. -/
  others : ∀ temp ∉ Set.range labels.rename, assignment'.get? temp = none

namespace Assignment

variable {base base' : Nat} {assignment assignment' : Assignment} {temp : TempId}
  {location location' : Location}

theorem Relabels.insert (relabels : Relabels labels base base' assignment assignment')
    (shifted : Location.Shifted base base' location location') :
    Relabels labels base base' (assignment.insert temp location)
      (assignment'.insert (labels.rename temp) location') where
  places := by
    intro other
    rw [get?_insert, get?_insert]
    by_cases same : other = temp
    · rw [if_pos same, if_pos (congrArg labels.rename same)]
      exact .some shifted
    · rw [if_neg same, if_neg (labels.injective.ne same)]
      exact relabels.places other
  others := by
    intro other outside
    rw [get?_insert, if_neg]
    · exact relabels.others other outside
    · rintro rfl
      exact outside ⟨temp, rfl⟩

end Assignment

namespace PlainScan

/-- **Two scans that differ in labels alone.** -/
structure Relabels (labels : Labels) (base base' : Nat) (scan scan' : PlainScan) : Prop where
  held : scan'.held = scan.held.map (Held.relabel labels)
  stackBase : scan.stackBase = base
  stackBase' : scan'.stackBase = base'
  cursor : scan'.cursor + base = scan.cursor + base'
  assignment : Assignment.Relabels labels base base' scan.assignment scan'.assignment
  ascending : scan.assignment.Ascending
  ascending' : scan'.assignment.Ascending
  spills : scan'.spills = scan.spills
  evictions : scan'.evictions = scan.evictions

variable {catalog : Catalog} {options : Options} {base base' : Nat} {scan scan' : PlainScan}

theorem relabels_start (labels : Labels) (base base' : Nat) :
    Relabels labels base base' (start base) (start base') where
  held := rfl
  stackBase := rfl
  stackBase' := rfl
  cursor := Nat.add_comm base' base
  assignment := ⟨fun _ => .none, fun _ _ => rfl⟩
  ascending := List.Pairwise.nil
  ascending' := List.Pairwise.nil
  spills := rfl
  evictions := rfl

namespace Relabels

theorem expire (relabels : Relabels labels base base' scan scan') (position : Nat) :
    Relabels labels base base' (scan.expire position) (scan'.expire (labels.move position)) :=
  { relabels with
    held := by
      show scan'.held.filter _ = (scan.held.filter _).map _
      rw [relabels.held, filter_relabel] }

theorem hold (relabels : Relabels labels base base' scan scan') (holder : Held) :
    Relabels labels base base' (scan.hold holder) (scan'.hold (holder.relabel labels)) :=
  { relabels with
    held := congrArg _ relabels.held
    assignment := relabels.assignment.insert (.register holder.register)
    ascending := relabels.ascending.insert _ _
    ascending' := relabels.ascending'.insert _ _ }

theorem release (relabels : Relabels labels base base' scan scan') (holder : Held) :
    Relabels labels base base' (scan.release holder) (scan'.release (holder.relabel labels)) :=
  { relabels with
    held := by
      show scan'.held.erase _ = (scan.held.erase _).map _
      rw [relabels.held, List.map_erase (Held.relabel_injective labels)]
    evictions := congrArg Nat.succ relabels.evictions }

theorem stacked (relabels : Relabels labels base base' scan scan') (interval : Interval) :
    Relabels labels base base' (scan.stacked interval)
      (scan'.stacked (interval.relabel labels)) :=
  { relabels with
    cursor := by
      have distance := relabels.cursor
      show scan'.cursor + interval.size + base = scan.cursor + interval.size + base'
      omega
    assignment := relabels.assignment.insert (.stack relabels.cursor)
    ascending := relabels.ascending.insert _ _
    ascending' := relabels.ascending'.insert _ _
    spills := congrArg Nat.succ relabels.spills }

/-- **The stack** is the one place where a base shows. -/
theorem toStack (relabels : Relabels labels base base' scan scan') (interval : Interval) :
    Parallel (Relabels labels base base') (base = base') (scan.toStack interval)
      (scan'.toStack (interval.relabel labels)) := by
  have distance := relabels.cursor
  unfold PlainScan.toStack
  show Parallel _ _ _ (if maxFrame < scan'.cursor + interval.size then
    .error (Fault.frameOverflow scan'.cursor interval.size) else _)
  split
  · split
    · rintro rfl
      rw [Nat.add_right_cancel distance]
    · rintro rfl
      omega
  · split
    · rintro rfl
      omega
    · exact relabels.stacked interval

/-- **One step** makes the same choice under all labels. -/
theorem place (relabels : Relabels labels base base' scan scan') (seq : Nat)
    (interval : Interval) :
    Parallel (Relabels labels base base') (base = base')
      (scan.place catalog options seq interval)
      (scan'.place catalog options seq (interval.relabel labels)) := by
  unfold PlainScan.place
  split
  · exact relabels.toStack interval
  · have expired := relabels.expire interval.start
    have held : (scan'.expire (interval.relabel labels).start).held =
        (scan.expire interval.start).held.map (Held.relabel labels) := expired.held
    dsimp only
    rw [held, pick?_relabel]
    cases pick? catalog (scan.expire interval.start).held interval with
    | some choice => exact expired.hold ⟨interval, seq, choice.1, choice.2⟩
    | none =>
      dsimp only
      rw [victim?_relabel]
      cases victim? catalog options (scan.expire interval.start).held interval with
      | none => exact expired.toStack interval
      | some victim =>
        refine Parallel.bind ((expired.release victim).toStack victim.interval) ?_
        intro middle middle' related
        exact related.hold ⟨interval, seq, victim.register, victim.bank⟩

/-- **A whole run** makes the same choices under all labels. -/
theorem placeAll (catalog : Catalog) (options : Options) (intervals : List Interval) :
    ∀ {scan scan' : PlainScan} (seq : Nat), Relabels labels base base' scan scan' →
      Parallel (Relabels labels base base') (base = base')
        (scan.placeAll catalog options seq intervals)
        (scan'.placeAll catalog options seq (intervals.map (Interval.relabel labels))) := by
  induction intervals with
  | nil => exact fun _ relabels => relabels
  | cons interval rest ih =>
    intro scan scan' seq relabels
    exact Parallel.bind (relabels.place seq interval) fun _ _ => ih (seq + 1)

end Relabels

end PlainScan

end LinearScan
