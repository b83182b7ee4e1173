import LinearScan.Proofs.Liveness.Lifetimes
import Mathlib.Data.List.Induction

/-!
# Marks

A program names temps at positions.  The pass over it meets these marks one by one, and all that
it keeps of them can be said in terms of first marks: the first mention of a temp is where its
lifetime begins, and with what size and type; its first free marker is where the lifetime ends.

`LivenessScan.Follows` says so of a pass that has met some mentions and some free markers, and has
left some records.  The three lists grow together, and everything in the invariant is an equation,
so that at the end of the pass nothing about the result is left open.

A mark is late if the temp was freed by an *earlier operation*.  The pass does not ask that; it
compares a position with the end of a lifetime, which the same operation may have set just before.
That both come to the same is part of `LivenessScan.Follows.step`.
-/

namespace LinearScan

namespace Operation

/-- Whether an operation mentions a temp. -/
def mentions (operation : Operation) (id : TempId) : Bool :=
  operation.mentioned.any (·.id == id)

/-- Whether an operation frees a temp. -/
def frees (operation : Operation) (id : TempId) : Bool :=
  operation.freed.toList.any (·.id == id)

end Operation

/-- A temp at the position of an operation. -/
structure Mark where
  position : Nat
  temp : Temp

namespace Mark

variable {role : Operation → List Temp} {operations : List Operation} {marks others : List Mark}
  {mark : Mark} {id : TempId} {position : Nat}

/-- The temps that have a role in the operations of a program, in order. -/
def all (role : Operation → List Temp) (operations : List Operation) : List Mark :=
  operations.zipIdx.flatMap fun (operation, position) => (role operation).map (Mark.mk position)

/-- Every mention of a temp. -/
abbrev mentions (operations : List Operation) : List Mark :=
  all Operation.mentioned operations

/-- Every free marker. -/
abbrev frees (operations : List Operation) : List Mark :=
  all (·.freed.toList) operations

/-- The first mark of a temp. -/
def first? (marks : List Mark) (id : TempId) : Option Mark :=
  marks.find? (·.temp.id == id)

/-- A further operation brings its marks behind those that are there. -/
theorem all_concat (role : Operation → List Temp) (operations : List Operation)
    (operation : Operation) :
    all role (operations ++ [operation]) =
      all role operations ++ (role operation).map (Mark.mk operations.length) := by
  simp [all, List.zipIdx_append]

/-- Without their positions, marks are temps. -/
theorem map_temp_all (role : Operation → List Temp) (operations : List Operation) :
    (all role operations).map Mark.temp = operations.flatMap role := by
  induction operations using List.reverseRecOn with
  | nil => rfl
  | append_singleton done operation ih =>
    rw [all_concat, List.map_append, ih, List.map_map, List.flatMap_append, List.flatMap_singleton]
    exact congrArg _ (List.map_id _)

/-- A mark is a temp that the operation at its position names in the role. -/
theorem mem_all_iff : mark ∈ all role operations ↔
    ∃ operation, operations[mark.position]? = some operation ∧ mark.temp ∈ role operation := by
  rw [all, List.mem_flatMap]
  constructor
  · rintro ⟨⟨operation, position⟩, isOperation, isMark⟩
    obtain ⟨temp, named, rfl⟩ := List.mem_map.mp isMark
    exact ⟨operation, List.mem_zipIdx_iff_getElem?.mp isOperation, named⟩
  · rintro ⟨operation, found, named⟩
    exact ⟨(operation, mark.position), List.mem_zipIdx_iff_getElem?.mpr found,
      List.mem_map.mpr ⟨mark.temp, named, rfl⟩⟩

/-- A mark has the position of an operation. -/
theorem position_lt_of_mem_all (member : mark ∈ all role operations) :
    mark.position < operations.length := by
  obtain ⟨operation, found, -⟩ := mem_all_iff.mp member
  exact (List.getElem?_eq_some_iff.mp found).1

theorem first?_append (marks others : List Mark) (id : TempId) :
    first? (marks ++ others) id = (first? marks id).or (first? others id) :=
  List.find?_append

theorem first?_singleton (mark : Mark) (id : TempId) :
    first? [mark] id = if mark.temp.id = id then some mark else none := by
  by_cases same : mark.temp.id = id
  · simp [first?, same]
  · simp [first?, same]

/-- A temp has a first mark if it has one at all. -/
theorem first?_eq_none_iff : first? marks id = none ↔ id ∉ marks.map (·.temp.id) := by
  rw [first?, List.find?_eq_none, List.mem_map]
  constructor
  · rintro differs ⟨mark, member, same⟩
    exact differs mark member (beq_iff_eq.mpr same)
  · intro absent mark member same
    exact absent ⟨mark, member, beq_iff_eq.mp same⟩

theorem mem_of_first? (found : first? marks id = some mark) :
    mark ∈ marks ∧ mark.temp.id = id := by
  have same := List.find?_some found
  exact ⟨List.mem_of_find?_eq_some found, beq_iff_eq.mp same⟩

/-- The first mark of a temp is the first of the temps with its id. -/
theorem temp_first? (marks : List Mark) (id : TempId) :
    (first? marks id).map Mark.temp = (marks.map Mark.temp).find? (·.id == id) := by
  rw [List.find?_map]
  rfl

/-- The first mark of a temp is at the first operation where the temp has the role. -/
theorem position_first?_all (role : Operation → List Temp) (operations : List Operation)
    (id : TempId) :
    (first? (all role operations) id).map Mark.position =
      operations.findIdx? fun operation => (role operation).any (·.id == id) := by
  induction operations using List.reverseRecOn with
  | nil => rfl
  | append_singleton done operation ih =>
    have last : (first? ((role operation).map (Mark.mk done.length)) id).map Mark.position =
        ([operation].findIdx? fun operation => (role operation).any (·.id == id)).map
          (· + done.length) := by
      rw [first?, List.find?_map, Option.map_map]
      show ((role operation).find? (·.id == id)).map _ = _
      cases found : (role operation).find? (·.id == id) with
      | none =>
        have nobody : (role operation).any (·.id == id) = false := by
          simpa using List.find?_eq_none.mp found
        simp [nobody]
      | some temp =>
        have same := List.find?_some found
        have somebody : (role operation).any (·.id == id) = true :=
          List.any_eq_true.mpr ⟨temp, List.mem_of_find?_eq_some found, same⟩
        simp [somebody]
    rw [all_concat, first?_append, Option.map_or, ih, last, List.findIdx?_append]

/-- A temp has a first mark if some operation names it in the role. -/
theorem isSome_first?_all (role : Operation → List Temp) (operations : List Operation)
    (id : TempId) :
    (first? (all role operations) id).isSome =
      operations.any fun operation => (role operation).any (·.id == id) := by
  rw [← Option.isSome_map (f := Mark.position), position_first?_all, List.findIdx?_isSome]

/-- The first mark of a temp is before the end of the program. -/
theorem any_first?_all (role : Operation → List Temp) (operations : List Operation)
    (id : TempId) :
    (first? (all role operations) id).any (·.position < operations.length) =
      operations.any fun operation => (role operation).any (·.id == id) := by
  rw [← isSome_first?_all]
  cases found : first? (all role operations) id with
  | none => rfl
  | some mark => exact decide_eq_true (position_lt_of_mem_all (mem_of_first? found).1)

end Mark

/-! ## What a pass has to say -/

/-- The warnings about an operation, by the operations before it: one for each mention of a temp
that was freed there, then one for a free marker of such a temp. -/
def Operation.warnings (before : List Operation) (position : Nat) (operation : Operation) :
    List Event :=
  let freedBefore (temp : Temp) : Bool := before.any (·.frees temp.id)
  (operation.mentioned.filter freedBefore).map (fun temp => .referencedAfterFree temp.id position)
    ++ (operation.freed.toList.filter freedBefore).map (fun temp => .freedTwice temp.id position)

/-- The warnings about a program, operation by operation. -/
def Liveness.warnings (operations : List Operation) : List Event :=
  operations.zipIdx.flatMap fun (operation, position) =>
    operation.warnings (operations.take position) position

theorem Liveness.warnings_concat (operations : List Operation) (operation : Operation) :
    warnings (operations ++ [operation]) =
      warnings operations ++ operation.warnings operations operations.length := by
  have earlier : ∀ marked ∈ operations.zipIdx,
      marked.1.warnings ((operations ++ [operation]).take marked.2) marked.2 =
        marked.1.warnings (operations.take marked.2) marked.2 := by
    rintro ⟨other, position⟩ member
    have inside := (List.getElem?_eq_some_iff.mp (List.mem_zipIdx_iff_getElem?.mp member)).1
    rw [List.take_append_of_le_length (Nat.le_of_lt inside)]
  rw [warnings, List.zipIdx_append, List.flatMap_append, List.flatMap_congr earlier]
  simp [warnings]

/-! ## The invariant -/

namespace LivenessScan

open Mark (first?)

variable {scan : LivenessScan} {mentions frees : List Mark} {log : List Event} {position : Nat}
  {temp : Temp}

/-- **A pass that has met some mentions and free markers**, and has left some records. -/
structure Follows (mentions frees : List Mark) (log : List Event) (scan : LivenessScan) :
    Prop where
  /-- There is one lifetime per temp, in the order of first mentions. -/
  temps : scan.lifetimes.map (·.interval.temp) = (mentions.map (·.temp.id)).eraseDups
  begun : ∀ lifetime ∈ scan.lifetimes, first? mentions lifetime.interval.temp =
    some ⟨lifetime.interval.start,
      ⟨lifetime.interval.temp, lifetime.interval.size, lifetime.interval.type⟩⟩
  ended : ∀ lifetime ∈ scan.lifetimes, (first? frees lifetime.interval.temp).map Mark.position =
    if lifetime.closed then some lifetime.interval.stop else none
  ascending : scan.lifetimes.Pairwise (·.interval.start ≤ ·.interval.start)
  /-- What is freed has been mentioned, by the free marker if by nothing else. -/
  known : ∀ mark ∈ frees, mark.temp.id ∈ mentions.map (·.temp.id)
  events : scan.events.toList = log

theorem follows_empty :
    Follows (Mark.mentions []) (Mark.frees []) (Liveness.warnings []) empty where
  temps := rfl
  begun := by simp [empty]
  ended := by simp [empty]
  ascending := List.Pairwise.nil
  known := by simp [Mark.all]
  events := rfl

namespace Follows

/-- A temp has a lifetime if it has been mentioned. -/
theorem find?_eq_none_iff (follows : Follows mentions frees log scan) {id : TempId} :
    scan.find? id = none ↔ id ∉ mentions.map (·.temp.id) := by
  rw [LivenessScan.find?_eq_none_iff, follows.temps, List.mem_eraseDups]

/-- A temp that has not been mentioned has not been freed. -/
theorem first?_frees_eq_none (follows : Follows mentions frees log scan) {id : TempId}
    (absent : id ∉ mentions.map (·.temp.id)) : first? frees id = none := by
  rw [Mark.first?_eq_none_iff, List.mem_map]
  rintro ⟨mark, member, rfl⟩
  exact absent (follows.known mark member)

/-- What is freed stays known when there is another mention. -/
theorem known_of_mention (follows : Follows mentions frees log scan) (mention : Mark) :
    ∀ mark ∈ frees, mark.temp.id ∈ (mentions ++ [mention]).map (·.temp.id) := by
  intro mark member
  rw [List.map_append]
  exact List.mem_append_left _ (follows.known mark member)

/-- A free marker of a temp that has been mentioned is known. -/
theorem known_of_free (follows : Follows mentions frees log scan)
    (mentioned : temp.id ∈ mentions.map (·.temp.id)) :
    ∀ mark ∈ frees ++ [⟨position, temp⟩], mark.temp.id ∈ mentions.map (·.temp.id) := by
  intro mark member
  rcases List.mem_append.mp member with old | new
  · exact follows.known mark old
  · obtain rfl := List.mem_singleton.mp new
    exact mentioned

/-- A mention, as the marks decide about it: it opens a lifetime, or it is late, or neither. -/
theorem touch_eq (follows : Follows mentions frees log scan) (position : Nat) (temp : Temp) :
    scan.touch position temp =
      if temp.id ∈ mentions.map (·.temp.id) then
        if (first? frees temp.id).any (·.position < position) then
          scan.log (.referencedAfterFree temp.id position)
        else scan
      else { scan with lifetimes := scan.lifetimes ++ [⟨.point temp position, false⟩] } := by
  unfold touch
  cases found : scan.find? temp.id with
  | none => rw [if_neg (follows.find?_eq_none_iff.mp found)]
  | some lifetime =>
    have mentioned : temp.id ∈ mentions.map (·.temp.id) := by
      by_contra absent
      rw [follows.find?_eq_none_iff.mpr absent] at found
      cases found
    obtain ⟨member, same⟩ := mem_of_find? found
    have ended := follows.ended lifetime member
    have late : (first? frees temp.id).any (·.position < position) =
        (lifetime.closed && decide (lifetime.interval.stop < position)) := by
      rw [same] at ended
      cases first : first? frees temp.id with
      | none => cases closed : lifetime.closed <;> simp [first, closed] at ended ⊢
      | some mark => cases closed : lifetime.closed <;> simp_all
    rw [if_pos mentioned, late]

/-- A free marker, as the marks decide about it: it is the first, or it is ignored. -/
theorem free_eq (follows : Follows mentions frees log scan)
    (mentioned : temp.id ∈ mentions.map (·.temp.id)) (position : Nat) :
    scan.free position temp =
      if (first? frees temp.id).isSome then scan.log (.freedTwice temp.id position)
      else { scan with lifetimes := close scan.lifetimes temp.id position } := by
  unfold free
  cases found : scan.find? temp.id with
  | none => exact absurd mentioned (follows.find?_eq_none_iff.mp found)
  | some lifetime =>
    obtain ⟨member, same⟩ := mem_of_find? found
    have ended := follows.ended lifetime member
    rw [same] at ended
    have isSome : (first? frees temp.id).isSome = lifetime.closed := by
      rw [← Option.isSome_map (f := Mark.position), ended]
      cases lifetime.closed <;> rfl
    rw [isSome]
    obtain ⟨interval, closed⟩ := lifetime
    cases closed with
    | true => rfl
    | false => rfl

/-- A record is left. -/
theorem logged (follows : Follows mentions frees log scan) (event : Event) :
    Follows mentions frees (log ++ [event]) (scan.log event) where
  temps := follows.temps
  begun := follows.begun
  ended := follows.ended
  ascending := follows.ascending
  known := follows.known
  events := by
    show (scan.events.push event).toList = _
    rw [Array.toList_push, follows.events]

/-- The first mention of a temp. -/
theorem opened (follows : Follows mentions frees log scan)
    (latest : ∀ mark ∈ mentions, mark.position ≤ position)
    (absent : temp.id ∉ mentions.map (·.temp.id)) :
    Follows (mentions ++ [⟨position, temp⟩]) frees log
      { scan with lifetimes := scan.lifetimes ++ [⟨.point temp position, false⟩] } where
  temps := by
    rw [List.map_append, List.map_append, follows.temps]
    exact (eraseDups_concat_of_notMem absent).symm
  begun := by
    intro lifetime member
    rw [Mark.first?_append]
    rcases List.mem_append.mp member with old | new
    · rw [follows.begun lifetime old]
      rfl
    · obtain rfl := List.mem_singleton.mp new
      show (first? mentions temp.id).or (first? [⟨position, temp⟩] temp.id) = some ⟨position, temp⟩
      rw [Mark.first?_eq_none_iff.mpr absent, Mark.first?_singleton, if_pos rfl]
      rfl
  ended := by
    intro lifetime member
    rcases List.mem_append.mp member with old | new
    · exact follows.ended lifetime old
    · obtain rfl := List.mem_singleton.mp new
      show (first? frees temp.id).map Mark.position = none
      rw [follows.first?_frees_eq_none absent]
      rfl
  ascending := by
    refine List.pairwise_append.mpr ⟨follows.ascending, List.pairwise_singleton _ _, ?_⟩
    intro lifetime old other new
    obtain rfl := List.mem_singleton.mp new
    exact latest _ (Mark.mem_of_first? (follows.begun lifetime old)).1
  known := follows.known_of_mention _
  events := follows.events

/-- A further mention of a temp. -/
theorem covered (follows : Follows mentions frees log scan)
    (mentioned : temp.id ∈ mentions.map (·.temp.id)) (position : Nat) :
    Follows (mentions ++ [⟨position, temp⟩]) frees log scan where
  temps := by
    rw [List.map_append, follows.temps]
    exact (eraseDups_concat_of_mem mentioned).symm
  begun := by
    intro lifetime member
    rw [Mark.first?_append, follows.begun lifetime member]
    rfl
  ended := follows.ended
  ascending := follows.ascending
  known := follows.known_of_mention _
  events := follows.events

/-- **One mention.** -/
theorem touch (follows : Follows mentions frees log scan) (temp : Temp)
    (latest : ∀ mark ∈ mentions, mark.position ≤ position) :
    Follows (mentions ++ [⟨position, temp⟩]) frees
      (log ++ if (first? frees temp.id).any (·.position < position) then
        [.referencedAfterFree temp.id position] else [])
      (scan.touch position temp) := by
  rw [follows.touch_eq]
  by_cases mentioned : temp.id ∈ mentions.map (·.temp.id)
  · have covered := follows.covered mentioned position
    rw [if_pos mentioned]
    split
    · exact covered.logged _
    · rw [List.append_nil]
      exact covered
  · rw [if_neg mentioned, follows.first?_frees_eq_none mentioned]
    show Follows _ _ (log ++ []) _
    rw [List.append_nil]
    exact follows.opened latest mentioned

/-- All mentions of one operation. -/
theorem touchAll (follows : Follows mentions frees log scan) (temps : List Temp)
    (latest : ∀ mark ∈ mentions, mark.position ≤ position) :
    Follows (mentions ++ temps.map (Mark.mk position)) frees
      (log ++ (temps.filter fun temp => (first? frees temp.id).any (·.position < position)).map
        fun temp => .referencedAfterFree temp.id position)
      (temps.foldl (fun scan temp => scan.touch position temp) scan) := by
  induction temps generalizing mentions log scan with
  | nil => simpa using follows
  | cons temp rest ih =>
    have stillLatest : ∀ mark ∈ mentions ++ [⟨position, temp⟩], mark.position ≤ position := by
      intro mark member
      rcases List.mem_append.mp member with old | new
      · exact latest mark old
      · obtain rfl := List.mem_singleton.mp new
        exact Nat.le_refl _
    have others := ih (follows.touch temp latest) stillLatest
    rw [List.append_assoc, List.append_assoc] at others
    rw [List.filter_cons]
    split
    · next late =>
      rw [if_pos late] at others
      exact others
    · next late =>
      rw [if_neg late] at others
      exact others

/-- The first free marker of a temp. -/
theorem closed (follows : Follows mentions frees log scan)
    (mentioned : temp.id ∈ mentions.map (·.temp.id)) (first : first? frees temp.id = none) :
    Follows mentions (frees ++ [⟨position, temp⟩]) log
      { scan with lifetimes := close scan.lifetimes temp.id position } where
  temps := by
    rw [map_temp_close]
    exact follows.temps
  begun := by
    intro lifetime member
    obtain ⟨old, isOld, rfl⟩ := List.mem_map.mp member
    split
    · exact follows.begun old isOld
    · exact follows.begun old isOld
  ended := by
    intro lifetime member
    obtain ⟨old, isOld, rfl⟩ := List.mem_map.mp member
    split
    · next same =>
      show (first? (frees ++ [⟨position, temp⟩]) old.interval.temp).map Mark.position =
        some position
      rw [same, Mark.first?_append, first, Mark.first?_singleton, if_pos rfl]
      rfl
    · next differs =>
      rw [Mark.first?_append, Mark.first?_singleton, if_neg (Ne.symm differs), Option.or_none]
      exact follows.ended old isOld
  ascending := by
    refine List.pairwise_map.mpr (follows.ascending.imp ?_)
    intro a b le
    split <;> split <;> exact le
  known := follows.known_of_free mentioned
  events := follows.events

/-- A further free marker of a temp. -/
theorem ignored (follows : Follows mentions frees log scan)
    (mentioned : temp.id ∈ mentions.map (·.temp.id)) (before : (first? frees temp.id).isSome)
    (position : Nat) : Follows mentions (frees ++ [⟨position, temp⟩]) log scan where
  temps := follows.temps
  begun := follows.begun
  ended := by
    intro lifetime member
    rw [← follows.ended lifetime member, Mark.first?_append, Mark.first?_singleton]
    split
    · next same =>
      rw [← same]
      obtain ⟨mark, first⟩ := Option.isSome_iff_exists.mp before
      rw [first]
      rfl
    · rw [Option.or_none]
  ascending := follows.ascending
  known := follows.known_of_free mentioned
  events := follows.events

/-- **One free marker.** -/
theorem free (follows : Follows mentions frees log scan)
    (mentioned : temp.id ∈ mentions.map (·.temp.id)) (position : Nat) :
    Follows mentions (frees ++ [⟨position, temp⟩])
      (log ++ if (first? frees temp.id).isSome then [.freedTwice temp.id position] else [])
      (scan.free position temp) := by
  rw [follows.free_eq mentioned]
  split
  · next before => exact (follows.ignored mentioned before position).logged _
  · next first =>
    rw [List.append_nil]
    exact follows.closed mentioned (Option.not_isSome_iff_eq_none.mp first)

/-- **One operation.** -/
theorem step {done : List Operation}
    (follows : Follows (Mark.mentions done) (Mark.frees done) log scan) (operation : Operation) :
    Follows (Mark.mentions (done ++ [operation])) (Mark.frees (done ++ [operation]))
      (log ++ operation.warnings done done.length) (scan.step done.length operation) := by
  have touched := follows.touchAll operation.mentioned fun mark member =>
    Nat.le_of_lt (Mark.position_lt_of_mem_all member)
  have late : ∀ temp : Temp, (first? (Mark.frees done) temp.id).any (·.position < done.length) =
      done.any (·.frees temp.id) := fun temp => Mark.any_first?_all _ done temp.id
  have before : ∀ temp : Temp, (first? (Mark.frees done) temp.id).isSome =
      done.any (·.frees temp.id) := fun temp => Mark.isSome_first?_all _ done temp.id
  simp only [late] at touched
  rw [Mark.mentions, Mark.frees, Mark.all_concat, Mark.all_concat, LivenessScan.step,
    Operation.warnings, ← List.append_assoc]
  cases freeing : operation.freed with
  | none => simpa using touched
  | some temp =>
    -- A free marker is a mention as well, so its temp has been met by now.
    have isMention : temp ∈ operation.mentioned := by
      simp [Operation.mentioned, freeing]
    have mentioned : temp.id ∈ (Mark.mentions done ++
        operation.mentioned.map (Mark.mk done.length)).map (·.temp.id) := by
      rw [List.map_append, List.map_map]
      exact List.mem_append_right _ (List.mem_map_of_mem isMention)
    have freed := touched.free mentioned done.length
    rw [before] at freed
    simpa [List.filter_cons, apply_ite] using freed

/-- **A whole pass.** -/
theorem run (rest : List Operation) :
    ∀ {done : List Operation} {scan : LivenessScan},
      Follows (Mark.mentions done) (Mark.frees done) (Liveness.warnings done) scan →
      Follows (Mark.mentions (done ++ rest)) (Mark.frees (done ++ rest))
        (Liveness.warnings (done ++ rest)) (scan.run done.length rest) := by
  induction rest with
  | nil =>
    intro done scan follows
    rw [List.append_nil]
    exact follows
  | cons operation rest ih =>
    intro done scan follows
    have longer := follows.step operation
    rw [← Liveness.warnings_concat] at longer
    have whole := ih longer
    rw [List.append_assoc, List.length_append] at whole
    exact whole

end Follows

/-- The pass over a program follows its mentions and free markers, and warns as it should. -/
theorem follows_run (operations : List Operation) :
    Follows (Mark.mentions operations) (Mark.frees operations) (Liveness.warnings operations)
      (empty.run 0 operations) :=
  follows_empty.run operations

end LivenessScan

end LinearScan
