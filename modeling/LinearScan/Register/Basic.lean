/-!
# Registers

Every name that a target can hand out is a register of its own.  Names that share
physical storage are linked by overlap sets, so that a conflict test never reasons
about bit ranges.

## Main Definitions

* `RegisterId` — the position of a register in its file
* `StorageClass` — the kind of physical storage behind a register
* `Register` — one nameable register with its overlap set

## Design Notes

An overlap set is an ascending list of ids without repetition, so equal sets are
equal lists.  `RegisterId.insert` is the only way the library grows one.
-/

namespace LinearScan

/-- The position of a register in its file, counted from zero. -/
structure RegisterId where
  index : Nat
deriving DecidableEq

namespace RegisterId

/-- How an id is shown in diagnostics. -/
def describe (id : RegisterId) : String :=
  s!"RegisterId({id.index})"

/-- Adds an id to an ascending list of ids, unless it is there already. -/
def insert (id : RegisterId) : List RegisterId → List RegisterId
  | [] => [id]
  | other :: rest =>
    if id.index < other.index then id :: other :: rest
    else if id = other then other :: rest
    else other :: insert id rest

/-- Insertion adds exactly the new id. -/
@[simp] theorem mem_insert {a id : RegisterId} {ids : List RegisterId} :
    a ∈ insert id ids ↔ a = id ∨ a ∈ ids := by
  induction ids with
  | nil => simp [insert]
  | cons other rest ih =>
    unfold insert
    split
    · simp
    · split
      · next h => subst h; simp
      · simp [ih, or_left_comm]

/-- Insertion keeps a list ascending and free of repetition. -/
theorem pairwise_insert {ids : List RegisterId} (id : RegisterId)
    (h : ids.Pairwise (·.index < ·.index)) : (insert id ids).Pairwise (·.index < ·.index) := by
  induction ids with
  | nil => simp [insert]
  | cons other rest ih =>
    obtain ⟨below, ascending⟩ := List.pairwise_cons.mp h
    unfold insert
    split
    · next less =>
      refine List.pairwise_cons.mpr ⟨fun a member => ?_, h⟩
      rcases List.mem_cons.mp member with same | inRest
      · exact same ▸ less
      · exact Nat.lt_trans less (below a inRest)
    · next notLess =>
      split
      · exact h
      · next differs =>
        refine List.pairwise_cons.mpr ⟨fun a member => ?_, ih ascending⟩
        rcases mem_insert.mp member with same | inRest
        · have : id.index ≠ other.index := fun equal => differs (by cases id; cases other; simp_all)
          subst same
          omega
        · exact below a inRest

end RegisterId

/-- The kind of physical storage a register lives in. -/
inductive StorageClass where
  | integer
  | sse
  | x87
deriving DecidableEq

namespace StorageClass

/-- Every storage class. -/
def all : List StorageClass :=
  [integer, sse, x87]

/-- The spelling of a class in target files. -/
def name : StorageClass → String
  | integer => "integer"
  | sse => "sse"
  | x87 => "x87"

/-- The class of a given name. -/
def ofName? (name : String) : Option StorageClass :=
  all.find? fun storage => storage.name == name

end StorageClass

/-- One register that a target can name. -/
structure Register where
  id : RegisterId
  name : String
  /-- Size in bytes. -/
  size : Nat
  storage : StorageClass
  /-- Whether a function that uses the register has to restore it. -/
  calleeSaved : Bool
  /-- Whether the register may be handed out at all. -/
  usable : Bool
  /-- Every register that shares storage with this one, itself included, ascending. -/
  overlaps : List RegisterId
deriving DecidableEq

end LinearScan
