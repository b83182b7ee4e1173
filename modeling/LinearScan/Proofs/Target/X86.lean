import LinearScan.Proofs.Plain.Crowd
import LinearScan.Proofs.Target.Modes

/-!
# How much room long mode has

The long mode target has fourteen general purpose registers to hand out, each under four names,
sixteen vector registers and the eight entries of the x87 stack.  `TargetDecl.hasRoom_x86_64` is
what this amounts to for a scan: a value of natural size finds room as long as fewer than
fourteen, sixteen or eight others of its class are alive, and values of the other classes are
never in its way.

Registers that share storage are in one block (`X86.block`): the four names of a general purpose
register, or a single register of the other kinds.  So a choice of one register from each block
is spread.  What has to be looked up in the table of declarations is stated once, about all its
rows, and everything else follows from `TargetDecl.Describes`.
-/

namespace LinearScan

namespace X86

/-- The block of a register: four names of one general purpose register, or one register. -/
def block (id : RegisterId) : Nat :=
  if id.index < 64 then id.index / 4 else id.index

/-- The class of values that a register of long mode is built for. -/
def kind (id : RegisterId) : ValueClass :=
  if id.index < 64 then .integer else if id.index < 80 then .floating else .extended

/-- The predicate of the registers for a class. -/
def predicate : ValueClass → TypePredicate
  | .integer => .integer
  | .floating => .sse
  | .extended => .extended

/-- A size that has room for every value of a class. -/
def width : ValueClass → Nat
  | .integer | .floating => 8
  | .extended => 10

/-- One register of each block for a class that may be handed out, the widest of its block. -/
def widest : ValueClass → Finset RegisterId
  | .integer => (Finset.range 14).image fun number => ⟨4 * number + 3⟩
  | .floating => (Finset.range 16).image fun number => ⟨64 + number⟩
  | .extended => (Finset.range 8).image fun number => ⟨80 + number⟩

theorem kind_eq_of_block_eq {a b : RegisterId} (same : block a = block b) : kind a = kind b := by
  unfold block at same
  unfold kind
  split at same <;> split at same <;> grind

theorem predicate_accepts (valueClass : ValueClass) (type : ValueType) :
    (predicate valueClass).accepts type = true ↔ type.valueClass = valueClass := by
  cases valueClass <;> cases type <;> decide

theorem ofName?_predicate (valueClass : ValueClass) :
    TypePredicate.ofName? (predicate valueClass).name = some (predicate valueClass) := by
  cases valueClass <;> rfl

theorem size_le_width (type : ValueType) : type.size ≤ width type.valueClass := by
  cases type <;> decide

/-- Different ones of the widest registers are in different blocks. -/
theorem eq_of_block_eq {valueClass : ValueClass} :
    ∀ a ∈ widest valueClass, ∀ b ∈ widest valueClass, block a = block b → a = b := by
  cases valueClass <;> decide

theorem kind_of_widest {valueClass : ValueClass} :
    ∀ id ∈ widest valueClass, kind id = valueClass := by
  cases valueClass <;> decide

end X86

namespace TargetDecl

open X86

/-! ## The table -/

/-- A row lists names of its own block. -/
theorem overlaps_x86_64 : ∀ row ∈ Mode.x86_64.decl.registers.zipIdx, ∀ name ∈ row.1.overlaps,
    row.2 < 64 ∧ ∃ view < 4,
      (Mode.x86_64.decl.registers[4 * (row.2 / 4) + view]?).map (·.name) = some name := by
  decide +kernel

/-- A row asks for values of its kind, if any. -/
theorem accepts_x86_64 : ∀ row ∈ Mode.x86_64.decl.registers.zipIdx,
    row.1.accepts = none ∨ row.1.accepts = some (predicate (kind ⟨row.2⟩)).name := by
  decide +kernel

/-- The rows that must not be handed out are the last two blocks of names. -/
theorem usable_x86_64 : ∀ row ∈ Mode.x86_64.decl.registers.zipIdx, row.1.usable = false →
    block ⟨row.2⟩ = 14 ∨ block ⟨row.2⟩ = 15 := by
  decide +kernel

/-- The widest registers are outside of these blocks, and serve the width of their class. -/
theorem widest_x86_64 {valueClass : ValueClass} : ∀ id ∈ widest valueClass,
    (block id ≠ 14 ∧ block id ≠ 15) ∧
      (Mode.x86_64.decl.registers[id.index]?).any (fun register =>
        register.accepts = some (predicate valueClass).name ∧
          width valueClass ∈ register.served) = true := by
  cases valueClass <;> decide +kernel

/-! ## What a scan finds -/

/-- A register lists others of its block. -/
theorem block_eq_of_lists {a b : RegisterId} (lists : Mode.x86_64.decl.Lists a b) :
    block a = block b := by
  obtain ⟨register, other, found, isOther, listed⟩ := lists
  obtain ⟨general, view, isView, named⟩ := overlaps_x86_64 (register, a.index)
    (List.mem_zipIdx_iff_getElem?.mpr found) other.name listed
  -- The name that is listed is in the block of the register, and there is only one of it.
  have same : ((Mode.x86_64.decl.registers.map (·.name))[4 * (a.index / 4) + view]?) =
      (Mode.x86_64.decl.registers.map (·.name))[b.index]? := by
    rw [List.getElem?_map, List.getElem?_map, named, isOther]
    rfl
  have inside : b.index < (Mode.x86_64.decl.registers.map (·.name)).length := by
    rw [List.length_map]
    exact (List.getElem?_eq_some_iff.mp isOther).1
  have atView : b.index = 4 * (a.index / 4) + view :=
    (List.getElem?_inj inside Mode.sound_x86_64.distinct).mp same.symm
  simp only at general
  unfold block
  rw [if_pos general, if_pos (by omega), atView]
  omega

section

variable {target : Target} (describes : Mode.x86_64.decl.Describes target)

include describes

/-- Registers that share storage are in one block. -/
theorem block_eq_of_intersects {a b : RegisterId}
    (shares : target.registers.intersects a b = true) : block a = block b := by
  rcases (describes.intersects a b).mp shares with rfl | lists | lists
  · rfl
  · exact block_eq_of_lists lists
  · exact (block_eq_of_lists lists).symm

theorem spread_widest (valueClass : ValueClass) :
    target.registers.Spread (widest valueClass) := by
  intro register _ a isWidest b isWidest' sharesA sharesB
  refine eq_of_block_eq a isWidest b isWidest' ?_
  rw [← block_eq_of_intersects describes sharesA, block_eq_of_intersects describes sharesB]

/-- An entry is for values of its register's kind. -/
theorem accepts_eq_of_entry {entry : Entry} (isEntry : entry ∈ target.entries) :
    entry.accepts = predicate (kind entry.register) := by
  rw [describes.entries] at isEntry
  obtain ⟨⟨register, index⟩, row, asked⟩ := List.mem_filterMap.mp isEntry
  obtain ⟨accepts, known, rfl⟩ := Option.map_eq_some_iff.mp asked
  rcases accepts_x86_64 (register, index) row with nothing | some
  · rw [nothing] at known
    cases known
  · rw [some, Option.bind_some, ofName?_predicate] at known
    exact (Option.some.inj known).symm

theorem agreeing_x86_64 : target.Agreeing := by
  refine Target.agreeing_of_builtin fun entry isEntry => ?_
  rw [accepts_eq_of_entry describes isEntry]
  cases kind entry.register <;> simp [predicate, TypePredicate.builtin]

/-- A widest register is usable, and its entry serves the width of its class. -/
theorem exists_entry_of_widest {valueClass : ValueClass} {id : RegisterId}
    (isWidest : id ∈ widest valueClass) :
    target.registers.isUsable id = true ∧ ∃ entry ∈ target.entries, entry.register = id ∧
      entry.accepts = predicate valueClass ∧ width valueClass ∈ entry.sizes := by
  obtain ⟨outside, row⟩ := widest_x86_64 id isWidest
  obtain ⟨register, found, asks⟩ := (Option.any_eq_true _ _).mp row
  obtain ⟨accepts, served⟩ := of_decide_eq_true asks
  constructor
  · refine (describes.usable id).mpr ⟨(List.getElem?_eq_some_iff.mp found).1, ?_⟩
    intro other unused atOther unusable
    rw [← Bool.not_eq_true]
    intro shares
    have reserved := usable_x86_64 (unused, other.index)
      (List.mem_zipIdx_iff_getElem?.mpr atOther) unusable
    rw [← block_eq_of_intersects describes shares] at reserved
    exact reserved.elim outside.1 outside.2
  · refine ⟨⟨id, register.served, predicate valueClass⟩, ?_, rfl, rfl, served⟩
    rw [describes.entries]
    refine List.mem_filterMap.mpr ⟨(register, id.index),
      List.mem_zipIdx_iff_getElem?.mpr found, ?_⟩
    show register.asked? id = _
    rw [RegisterDecl.asked?, accepts, Option.bind_some, ofName?_predicate]
    rfl

end

/-- Long mode has a catalog. -/
theorem exists_catalog_x86_64 : ∃ target catalog, Mode.x86_64.toTarget = .ok target ∧
    Catalog.build target = .ok catalog := by
  rw [Mode.toTarget_eq_toTarget_decl Mode.sound_x86_64]
  obtain ⟨target, made⟩ := exists_toTarget Mode.sound_x86_64
  obtain ⟨usable, entry, isEntry, same, -, served⟩ := exists_entry_of_widest
    (describes_of_toTarget made) (show ⟨3⟩ ∈ widest .integer by decide)
  rw [← same] at usable
  obtain ⟨catalog, built⟩ := Catalog.exists_build isEntry usable served
  exact ⟨target, catalog, made, built⟩

/-- **Room in long mode.**  A value of natural size finds room if there are fewer values of its
class around than registers for it. -/
theorem hasRoom_x86_64 {target : Target} {catalog : Catalog}
    (made : Mode.x86_64.toTarget = .ok target)
    (built : Catalog.build target = .ok catalog) {done : List Interval} {interval : Interval}
    (natural : interval.size = interval.type.size)
    (few : done.countP (fun other => interval.start ≤ other.stop ∧
      other.type.valueClass = interval.type.valueClass)
        < (widest interval.type.valueClass).card) :
    catalog.HasRoom done interval := by
  rw [Mode.toTarget_eq_toTarget_decl Mode.sound_x86_64] at made
  have describes := describes_of_toTarget made
  have reachable := toTarget_reachable made
  have agreeing := agreeing_x86_64 describes
  have sameFile : catalog.registers = target.registers := by
    rw [Catalog.eq_of_build built]
    rfl
  refine ⟨widest interval.type.valueClass, ?_, ?_, ?_⟩
  · rw [sameFile]
    exact spread_widest describes _
  · intro id isWidest
    obtain ⟨usable, entry, isEntry, rfl, accepts, served⟩ :=
      exists_entry_of_widest describes isWidest
    refine Catalog.offers_of_entry reachable agreeing built isEntry usable served ?_ ?_
    · rw [natural]
      exact size_le_width interval.type
    · rw [accepts, predicate_accepts]
  · -- What contends for these registers is of the same class.
    refine Nat.lt_of_le_of_lt (List.countP_mono_left ?_) few
    intro other _ counted
    obtain ⟨alive, contends⟩ := of_decide_eq_true counted
    obtain ⟨entry, isEntry, accepts, id, isWidest, shares⟩ :=
      Catalog.exists_entry_of_contends reachable agreeing built contends
    rw [accepts_eq_of_entry describes isEntry, predicate_accepts] at accepts
    rw [kind_eq_of_block_eq (block_eq_of_intersects describes shares),
      kind_of_widest id isWidest] at accepts
    exact decide_eq_true ⟨alive, accepts⟩

end TargetDecl

end LinearScan
