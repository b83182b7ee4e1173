import LinearScan.Proofs.Bank.Origin
import LinearScan.Proofs.Delimited
import LinearScan.Proofs.Register.Orderly

/-!
# What an identity tells apart

Catalogs are shared between targets of one identity, so an identity has to cover all that a
catalog is built from.  It does, as long as names stay clear of the marks that an identity is
put together with: the bars between its parts, the colons between the fields of a register
and the commas between overlapping names (`Target.Readable`).  Then a target is read back
from its identity in full (`Target.eq_of_identity_eq`).

Reading goes from the outside in.  Parts are cut at bars; those of registers contain a colon
and those of entries do not.  Fields are cut at colons.  The last field of a register lists
overlapping registers by name, in the order of the names, which is read back to a set of ids
only because no two registers share a name and because overlap sets are ascending.  An entry
is cut from its end, since its register may have brackets in its name.
-/

namespace LinearScan

open Register (Linked)

/-! ## Names of registers -/

namespace RegisterFile

variable {file : RegisterFile} {id : RegisterId} {ids : List RegisterId}

theorem mem_names {name : String} :
    name ∈ file.names ids ↔ ∃ id ∈ ids, ∃ register, file.get? id = some register ∧
      register.name = name := by
  simp [names]

/-- A register is among those named exactly if its name is. -/
theorem name_mem_names (orderly : Register.Orderly file.registers file.byName)
    {register : Register} (found : file.get? id = some register) :
    register.name ∈ file.names ids ↔ id ∈ ids := by
  rw [mem_names]
  constructor
  · rintro ⟨other, member, register', found', same⟩
    exact orderly.eq_of_name_eq found found' same.symm ▸ member
  · intro member
    exact ⟨id, member, register, found, rfl⟩

/-- The name of a single register of the file. -/
theorem names_singleton {register : Register} (found : file.get? id = some register) :
    file.names [id] = [register.name] := by
  simp [names, found]

/-- Overlap sets do not lead out of the file. -/
theorem Reachable.exists_of_mem_overlaps (reachable : file.Reachable) {register : Register}
    (found : file.get? id = some register) {other : RegisterId}
    (member : other ∈ register.overlaps) : ∃ register', file.get? other = some register' := by
  obtain ⟨register', found', -⟩ := reachable.linked_symm ⟨register, found, member⟩
  exact ⟨register', found'⟩

/-- The names that a register overlaps, as an identity lists them. -/
def overlapNames (file : RegisterFile) (register : Register) : List String :=
  (file.names register.overlaps).mergeSort fun a b => !(b < a)

theorem mem_overlapNames {register : Register} {name : String} :
    name ∈ file.overlapNames register ↔ name ∈ file.names register.overlaps := by
  simp [overlapNames]

/-- A register is listed among those it overlaps. -/
theorem Reachable.overlapNames_ne_nil (reachable : file.Reachable) {register : Register}
    (found : file.get? id = some register) : file.overlapNames register ≠ [] := by
  obtain ⟨register', found', member⟩ :=
    reachable.linked_self (Array.getElem?_eq_some_iff.mp found).1
  obtain rfl := Option.some.inj (found.symm.trans found')
  have listed := (name_mem_names reachable.orderly found).mpr member
  exact List.ne_nil_of_mem (mem_overlapNames.mpr listed)

/-- What one overlap set has, another of the same names has. -/
theorem Reachable.mem_overlaps_of_names {file' : RegisterFile} (reachable : file.Reachable)
    (sameNames : file.names = file'.names)
    {register register' : Register} (found : file.get? id = some register)
    (same : file.overlapNames register = file'.overlapNames register') {other : RegisterId}
    (member : other ∈ register.overlaps) : other ∈ register'.overlaps := by
  obtain ⟨overlapping, found'⟩ := reachable.exists_of_mem_overlaps found member
  have listed := (name_mem_names reachable.orderly found').mpr member
  rw [← mem_overlapNames, same, mem_overlapNames, ← sameNames] at listed
  exact (name_mem_names reachable.orderly found').mp listed

/-- **An overlap set is read back from the names in it**, by a file that gives the same names
to the same registers. -/
theorem Reachable.overlaps_eq {file' : RegisterFile} (reachable : file.Reachable)
    (reachable' : file'.Reachable) (sameNames : file.names = file'.names)
    {register register' : Register} (found : file.get? id = some register)
    (found' : file'.get? id = some register')
    (same : file.overlapNames register = file'.overlapNames register') :
    register.overlaps = register'.overlaps := by
  refine eq_of_ascending (reachable.orderly.ascending _ register found)
    (reachable'.orderly.ascending _ register' found') fun other => ⟨?_, ?_⟩
  · exact reachable.mem_overlaps_of_names sameNames found same
  · exact reachable'.mem_overlaps_of_names sameNames.symm found' same.symm

end RegisterFile

namespace Target

/-! ## The parts of an identity -/

/-- A name without the marks that an identity is put together with. -/
def IsPlain (name : String) : Prop :=
  '|' ∉ name.toList ∧ ':' ∉ name.toList ∧ ',' ∉ name.toList

instance (name : String) : Decidable (IsPlain name) :=
  inferInstanceAs (Decidable (_ ∧ _ ∧ _))

/-- **What it takes to read an identity back**: names are clear of marks, and predicates are
built-in ones, which their names tell apart.  Of the marks, only bars matter in the name of the
target, which comes first. -/
structure Readable (target : Target) : Prop where
  name : '|' ∉ target.name.toList
  registers : ∀ register ∈ target.registers.registers, IsPlain register.name
  predicates : ∀ entry ∈ target.entries, entry.accepts ∈ TypePredicate.builtin

/-- What follows the name of a register, field by field. -/
def registerFields (file : RegisterFile) (register : Register) : List (List Char) :=
  [register.size.repr.toList, register.storage.name.toList,
    (if register.usable then "u" else "-").toList,
    (if register.calleeSaved then "s" else "-").toList,
    (",".intercalate (file.overlapNames register)).toList]

/-- A register, as one part of an identity. -/
def registerPart (file : RegisterFile) (register : Register) : List Char :=
  register.name.toList ++ (registerFields file register).flatMap (':' :: ·)

theorem toList_registerKey (file : RegisterFile) (register : Register) :
    (registerKey file register).toList = '|' :: registerPart file register := by
  unfold registerKey
  simp [registerPart, registerFields, RegisterFile.overlapNames, toString]

/-- The sizes of an entry, without their brackets. -/
def sizesText (sizes : List Nat) : List Char :=
  [',', ' '].intercalate (sizes.map fun size => size.repr.toList)

/-- Sizes are written with digits, commas and blanks. -/
theorem notMem_sizesText {mark : Char} (notDigit : mark.isDigit = false)
    (notComma : mark ∉ [',', ' ']) (sizes : List Nat) : mark ∉ sizesText sizes := by
  refine Delimited.notMem_intercalate notComma ?_
  intro text isSize
  obtain ⟨size, -, rfl⟩ := List.mem_map.mp isSize
  exact Delimited.notMem_repr notDigit size

/-- An entry, as one part of an identity. -/
def entryPart (file : RegisterFile) (entry : Entry) : List Char :=
  (String.join (file.names [entry.register])).toList ++ '[' :: sizesText entry.sizes ++
    ']' :: entry.accepts.name.toList

theorem toList_entryKey (file : RegisterFile) (entry : Entry) :
    (entryKey file entry).toList = '|' :: entryPart file entry := by
  simp [entryKey, entryPart, bracketed, sizesText, Function.comp_def]

theorem toList_identity (target : Target) :
    target.identity.toList = target.name.toList ++
      (target.registers.registers.toList.map (registerPart target.registers) ++
        target.entries.map (entryPart target.registers)).flatMap ('|' :: ·) := by
  simp [identity, toList_registerKey, toList_entryKey, List.flatMap_map]

/-! ## Marks and names -/

theorem IsPlain.notMem {name : String} (plain : IsPlain name) {mark : Char}
    (isMark : mark = '|' ∨ mark = ':') : mark ∉ name.toList := by
  rcases isMark with rfl | rfl
  · exact plain.1
  · exact plain.2.1

theorem Readable.names {target : Target} (readable : target.Readable) {ids : List RegisterId} :
    ∀ name ∈ target.registers.names ids, IsPlain name := by
  intro name member
  obtain ⟨id, -, register, found, rfl⟩ := RegisterFile.mem_names.mp member
  exact readable.registers register (Array.mem_of_getElem? found)

/-- No field of a register contains a bar or a colon. -/
theorem Readable.notMem_registerFields {target : Target} (readable : target.Readable) {mark : Char}
    (isMark : mark = '|' ∨ mark = ':') (register : Register) :
    ∀ field ∈ registerFields target.registers register, mark ∉ field := by
  intro field member
  simp only [registerFields, List.mem_cons, List.not_mem_nil, or_false] at member
  rcases member with rfl | rfl | rfl | rfl | rfl
  · refine Delimited.notMem_repr ?_ register.size
    rcases isMark with rfl | rfl <;> rfl
  · rcases isMark with rfl | rfl <;> cases register.storage <;> decide
  · rcases isMark with rfl | rfl <;> cases register.usable <;> decide
  · rcases isMark with rfl | rfl <;> cases register.calleeSaved <;> decide
  · rw [String.toList_intercalate]
    refine Delimited.notMem_intercalate ?_ ?_
    · rcases isMark with rfl | rfl <;> decide
    · intro text isName
      obtain ⟨name, member, rfl⟩ := List.mem_map.mp isName
      exact (readable.names name (RegisterFile.mem_overlapNames.mp member)).notMem isMark

/-- A register contains no bar. -/
theorem Readable.notMem_registerPart {target : Target} (readable : target.Readable)
    {register : Register} (member : register ∈ target.registers.registers) :
    '|' ∉ registerPart target.registers register := by
  simp only [registerPart, List.mem_append, List.mem_flatMap, List.mem_cons, not_or]
  refine ⟨(readable.registers register member).1, ?_⟩
  rintro ⟨field, isField, isColon | inField⟩
  · cases isColon
  · exact readable.notMem_registerFields (Or.inl rfl) register field isField inField

/-- The names of built-in predicates are clear of all that their entries are cut at. -/
theorem notMem_name_of_builtin : ∀ predicate ∈ TypePredicate.builtin,
    '|' ∉ predicate.name.toList ∧ ':' ∉ predicate.name.toList ∧ ']' ∉ predicate.name.toList := by
  decide

/-- An entry contains no bar and no colon. -/
theorem Readable.notMem_entryPart {target : Target} (readable : target.Readable) {mark : Char}
    (isMark : mark = '|' ∨ mark = ':') {entry : Entry} (member : entry ∈ target.entries) :
    mark ∉ entryPart target.registers entry := by
  have notSpecial : mark ≠ '[' ∧ mark ≠ ']' ∧ mark ∉ [',', ' '] ∧ mark.isDigit = false := by
    rcases isMark with rfl | rfl <;> decide
  obtain ⟨notOpening, notClosing, notComma, notDigit⟩ := notSpecial
  have inName : mark ∉ (String.join (target.registers.names [entry.register])).toList := by
    intro inName
    rw [String.toList_join] at inName
    obtain ⟨name, isName, inName⟩ := List.mem_flatMap.mp inName
    exact (readable.names name isName).notMem isMark inName
  have inSizes := notMem_sizesText notDigit notComma entry.sizes
  have inPredicate : mark ∉ entry.accepts.name.toList := by
    obtain ⟨noBar, noColon, -⟩ := notMem_name_of_builtin _ (readable.predicates entry member)
    rcases isMark with rfl | rfl
    · exact noBar
    · exact noColon
  simp only [entryPart, List.mem_append, List.mem_cons, not_or]
  exact ⟨⟨inName, notOpening, inSizes⟩, notClosing, inPredicate⟩

/-! ## Reading an identity back -/

variable {a b : Target}

/-- Equal identities have equal parts. -/
theorem parts_eq (readable : a.Readable) (readable' : b.Readable)
    (same : a.identity = b.identity) :
    a.name = b.name ∧
      a.registers.registers.toList.map (registerPart a.registers) =
        b.registers.registers.toList.map (registerPart b.registers) ∧
      a.entries.map (entryPart a.registers) = b.entries.map (entryPart b.registers) := by
  have noBar : ∀ {target : Target}, target.Readable →
      ∀ part ∈ target.registers.registers.toList.map (registerPart target.registers) ++
        target.entries.map (entryPart target.registers), '|' ∉ part := by
    intro target readable part member
    rcases List.mem_append.mp member with isRegister | isEntry
    · obtain ⟨register, inFile, rfl⟩ := List.mem_map.mp isRegister
      exact readable.notMem_registerPart (Array.mem_toList_iff.mp inFile)
    · obtain ⟨entry, inEntries, rfl⟩ := List.mem_map.mp isEntry
      exact readable.notMem_entryPart (Or.inl rfl) inEntries
  have texts := congrArg String.toList same
  rw [toList_identity, toList_identity] at texts
  obtain ⟨sameName, sameParts⟩ := Delimited.eq_of_append_flatMap_eq [] readable.name
    readable'.name (noBar readable) (noBar readable') texts
  -- A colon tells the part of a register from that of an entry.
  have colon : ∀ target : Target, ∀ part ∈ target.registers.registers.toList.map
      (registerPart target.registers), part.contains ':' = true := by
    intro target part member
    obtain ⟨register, -, rfl⟩ := List.mem_map.mp member
    simp [registerPart, registerFields]
  have noColon : ∀ {target : Target}, target.Readable → ∀ part ∈ target.entries.map
      (entryPart target.registers), part.contains ':' = false := by
    intro target readable part member
    obtain ⟨entry, inEntries, rfl⟩ := List.mem_map.mp member
    simpa using readable.notMem_entryPart (Or.inr rfl) inEntries
  exact ⟨String.toList_injective sameName,
    Delimited.append_inj_of_forall _ (colon a) (colon b) (noColon readable) (noColon readable')
      sameParts⟩

/-- The part of a register tells all about it, if overlapping registers are taken by name. -/
theorem registerPart_inj (reachable : a.Reachable) (reachable' : b.Reachable)
    (readable : a.Readable) (readable' : b.Readable) {id : RegisterId}
    {register register' : Register} (found : a.registers.get? id = some register)
    (found' : b.registers.get? id = some register')
    (same : registerPart a.registers register = registerPart b.registers register') :
    register.name = register'.name ∧ register.size = register'.size ∧
      register.storage = register'.storage ∧ register.usable = register'.usable ∧
      register.calleeSaved = register'.calleeSaved ∧
      a.registers.overlapNames register = b.registers.overlapNames register' := by
  have noColon : ∀ {target : Target} {register : Register}, target.Readable →
      target.registers.get? id = some register → ':' ∉ register.name.toList := by
    intro target register readable found
    exact (readable.registers register (Array.mem_of_getElem? found)).2.1
  have noComma : ∀ {target : Target} (register : Register), target.Readable →
      ∀ text ∈ (target.registers.overlapNames register).map String.toList, ',' ∉ text := by
    intro target register readable text member
    obtain ⟨name, isName, rfl⟩ := List.mem_map.mp member
    exact (readable.names name (RegisterFile.mem_overlapNames.mp isName)).2.2
  obtain ⟨name, fields⟩ := Delimited.eq_of_append_flatMap_eq [] (noColon readable found)
    (noColon readable' found') (readable.notMem_registerFields (Or.inr rfl) register)
    (readable'.notMem_registerFields (Or.inr rfl) register') same
  simp only [registerFields, List.cons.injEq, and_true] at fields
  obtain ⟨size, storage, usable, saved, overlaps⟩ := fields
  refine ⟨String.toList_injective name, Delimited.repr_inj size, ?_, ?_, ?_, ?_⟩
  · revert storage
    cases register.storage <;> cases register'.storage <;> decide
  · revert usable
    cases register.usable <;> cases register'.usable <;> decide
  · revert saved
    cases register.calleeSaved <;> cases register'.calleeSaved <;> decide
  · rw [String.toList_intercalate, String.toList_intercalate] at overlaps
    have texts := Delimited.eq_of_intercalate_eq
      (by simpa using reachable.registers.overlapNames_ne_nil found)
      (by simpa using reachable'.registers.overlapNames_ne_nil found')
      (noComma register readable) (noComma register' readable') overlaps
    exact List.map_injective_iff.mpr (fun _ _ => String.toList_injective) texts

/-- Equal parts give the same names to the same registers. -/
theorem names_eq (reachable : a.Reachable) (reachable' : b.Reachable)
    (readable : a.Readable) (readable' : b.Readable)
    (same : a.registers.registers.toList.map (registerPart a.registers) =
      b.registers.registers.toList.map (registerPart b.registers)) :
    a.registers.names = b.registers.names := by
  have sameName : ∀ id, (a.registers.get? id).map (·.name) =
      (b.registers.get? id).map (·.name) := by
    intro id
    have part : (a.registers.get? id).map (registerPart a.registers) =
        (b.registers.get? id).map (registerPart b.registers) := by
      simpa [RegisterFile.get?] using congrArg (·[id.index]?) same
    cases found : a.registers.get? id with
    | none =>
      rw [found] at part
      rw [Option.map_eq_none_iff.mp part.symm]
    | some register =>
      rw [found] at part
      obtain ⟨register', found', samePart⟩ := Option.map_eq_some_iff.mp part.symm
      have told := registerPart_inj reachable reachable' readable readable' found found'
        samePart.symm
      rw [found', Option.map_some, Option.map_some, told.1]
  funext ids
  show ids.filterMap (fun id => (a.registers.get? id).map (·.name)) = _
  rw [funext sameName]
  rfl

/-- Equal parts are those of equal registers. -/
theorem registers_eq (reachable : a.Reachable) (reachable' : b.Reachable)
    (readable : a.Readable) (readable' : b.Readable)
    (same : a.registers.registers.toList.map (registerPart a.registers) =
      b.registers.registers.toList.map (registerPart b.registers)) :
    a.registers = b.registers := by
  have sameNames := names_eq reachable reachable' readable readable' same
  have sameRegisters : a.registers.registers = b.registers.registers := by
    refine Array.toList_inj.mp (Delimited.eq_of_map_eq same ?_)
    intro place register register' found found' samePart
    rw [Array.getElem?_toList] at found found'
    have atPlace : a.registers.get? ⟨place⟩ = some register := found
    have atPlace' : b.registers.get? ⟨place⟩ = some register' := found'
    obtain ⟨name, size, storage, usable, saved, overlaps⟩ :=
      registerPart_inj reachable reachable' readable readable' atPlace atPlace' samePart
    have sameOverlaps := reachable.registers.overlaps_eq reachable'.registers sameNames atPlace
      atPlace' overlaps
    have sameId : register.id = register'.id := by
      rw [reachable.registers.orderly.id_eq place register found,
        reachable'.registers.orderly.id_eq place register' found']
    cases register
    cases register'
    simp_all
  have sameIndex : a.registers.byName = b.registers.byName := by
    rw [reachable.registers.orderly.index, reachable'.registers.orderly.index, sameRegisters]
  cases h : a.registers
  cases h' : b.registers
  simp_all

/-- The part of an entry tells all about it. -/
theorem entryPart_inj {file : RegisterFile} {target target' : String} {entry entry' : Entry}
    (orderly : Register.Orderly file.registers file.byName)
    (passed : Entry.check target file entry = .ok ())
    (passed' : Entry.check target' file entry' = .ok ())
    (builtin : entry.accepts ∈ TypePredicate.builtin)
    (builtin' : entry'.accepts ∈ TypePredicate.builtin)
    (same : entryPart file entry = entryPart file entry') : entry = entry' := by
  have inFile : ∀ {target : String} {entry : Entry}, Entry.check target file entry = .ok () →
      ∃ register, file.get? entry.register = some register := by
    intro target entry passed
    exact ⟨_, Array.getElem?_eq_getElem (Entry.register_lt_of_check passed)⟩
  obtain ⟨register, found⟩ := inFile passed
  obtain ⟨register', found'⟩ := inFile passed'
  have noBracket : ∀ sizes : List Nat, '[' ∉ sizesText sizes :=
    notMem_sizesText (by decide) (by decide)
  obtain ⟨front, accepts⟩ := Delimited.append_cons_inj_last
    (notMem_name_of_builtin entry.accepts builtin).2.2
    (notMem_name_of_builtin entry'.accepts builtin').2.2 same
  obtain ⟨name, sizes⟩ :=
    Delimited.append_cons_inj_last (noBracket entry.sizes) (noBracket entry'.sizes) front
  have sameRegister : entry.register = entry'.register := by
    rw [RegisterFile.names_singleton found, RegisterFile.names_singleton found'] at name
    have sameName : register.name = register'.name := by
      simpa using String.toList_injective name
    exact orderly.eq_of_name_eq found found' sameName
  have sameSizes : entry.sizes = entry'.sizes := by
    have noComma : ∀ sizes : List Nat, ∀ text ∈ sizes.map fun size => size.repr.toList,
        ',' ∉ text := by
      intro sizes text isSize
      obtain ⟨size, -, rfl⟩ := List.mem_map.mp isSize
      exact Delimited.notMem_repr (by decide) size
    have digits := Delimited.eq_of_intercalate_eq
      (by simpa using Entry.sizes_ne_nil_of_check passed)
      (by simpa using Entry.sizes_ne_nil_of_check passed') (noComma entry.sizes)
      (noComma entry'.sizes) sizes
    exact List.map_injective_iff.mpr (fun _ _ => Delimited.repr_inj) digits
  have sameAccepts : entry.accepts = entry'.accepts :=
    TypePredicate.eq_of_name_eq builtin builtin' (String.toList_injective accepts)
  cases entry
  cases entry'
  simp_all

/-- **A target is read back from its identity.** -/
theorem eq_of_identity_eq (reachable : a.Reachable) (reachable' : b.Reachable)
    (readable : a.Readable) (readable' : b.Readable) (same : a.identity = b.identity) : a = b := by
  obtain ⟨sameName, registerParts, entryParts⟩ := parts_eq readable readable' same
  have sameFile := registers_eq reachable reachable' readable readable' registerParts
  have sameEntries : a.entries = b.entries := by
    rw [← sameFile] at entryParts
    refine Delimited.eq_of_map_eq entryParts ?_
    intro place entry entry' found found' part
    have member := List.mem_of_getElem? found
    have member' := List.mem_of_getElem? found'
    have passed' := reachable'.checked entry' member'
    rw [← sameFile] at passed'
    exact entryPart_inj reachable.registers.orderly (reachable.checked entry member) passed'
      (readable.predicates entry member) (readable'.predicates entry' member') part
  cases a
  cases b
  simp_all

end Target

/-- **Sharing by identity is safe**: targets whose identities are one fail to have a catalog
alike, or have one and the same. -/
theorem Catalog.build_eq_of_identity_eq {a b : Target} (reachable : a.Reachable)
    (reachable' : b.Reachable) (readable : a.Readable) (readable' : b.Readable)
    (same : a.identity = b.identity) : Catalog.build a = Catalog.build b := by
  rw [Target.eq_of_identity_eq reachable reachable' readable readable' same]

/-- Two registers, and a part of the first. -/
def RegisterBuilder.parted : RegisterBuilder :=
  (((empty.add "a" 8 .integer false).add "b" 4 .integer false).add "c" 8 .integer false).link
    ⟨0⟩ ⟨1⟩

theorem RegisterBuilder.reachable_parted : RegisterBuilder.parted.Reachable := by
  have declared := Reachable.addAll_empty [("a", 8, false), ("b", 4, false), ("c", 8, false)]
    (by decide) (by decide) (by decide)
  exact declared.link (by decide) (by decide)

namespace Target

/-- Each register serves its own size. -/
def whole : Target :=
  ⟨"parted", .ofBuilder .parted,
    [⟨⟨0⟩, [8], .integer⟩, ⟨⟨1⟩, [4], .integer⟩, ⟨⟨2⟩, [8], .integer⟩]⟩

theorem reachable_whole : whole.Reachable := by
  have made : Target.make "parted" (.ofBuilder .parted) whole.entries = .ok whole := rfl
  exact .make (.build RegisterBuilder.reachable_parted) made

/-- The target whose part of a register, and with it that register, is taken out of use. -/
def halved : Target :=
  { whole with
    registers := ⟨RegisterFile.reserve (RegisterFile.ofBuilder .parted).registers [⟨0⟩, ⟨1⟩],
      RegisterBuilder.parted.byName⟩ }

theorem reachable_halved : halved.Reachable := by
  have found : whole.registers.lookup? "b" = some ⟨1⟩ := by
    show RegisterBuilder.parted.byName["b"]? = some ⟨1⟩
    simp [RegisterBuilder.parted, RegisterBuilder.add, RegisterBuilder.link,
      RegisterBuilder.addOverlap, RegisterBuilder.update, RegisterBuilder.nextId,
      RegisterBuilder.empty, Std.HashMap.getElem_insert]
  have disabled : whole.disable "b" = .ok halved := by
    rw [Target.disable, RegisterFile.disable_of_some found]
    rfl
  exact .disable reachable_whole disabled

/-- The target where that part is flagged before the file is frozen. -/
def flagged : Target :=
  { whole with registers := .ofBuilder (RegisterBuilder.parted.flag ⟨1⟩ false) }

end Target

/-- Flagging a register early and disabling it late come to one catalog. -/
theorem Catalog.build_halved_eq_build_flagged :
    Target.halved.Reachable ∧ Target.flagged.Reachable ∧ Target.halved.Readable ∧
      Target.flagged.Readable ∧ Target.halved.identity = Target.flagged.identity ∧
      Catalog.build Target.halved = Catalog.build Target.flagged := by
  have declared : (RegisterBuilder.parted.flag ⟨1⟩ false).Reachable :=
    RegisterBuilder.reachable_parted.flag (by decide) false
  have made : Target.make "parted" (.ofBuilder (RegisterBuilder.parted.flag ⟨1⟩ false))
      Target.flagged.entries = .ok Target.flagged := rfl
  have reachable : Target.flagged.Reachable := .make (.build declared) made
  have sameFile : Target.halved.registers = Target.flagged.registers := rfl
  have readable : Target.flagged.Readable := by
    refine ⟨by decide, by decide, ?_⟩
    simp [Target.flagged, Target.whole, TypePredicate.builtin]
  have readable' : Target.halved.Readable :=
    ⟨readable.name, sameFile ▸ readable.registers, readable.predicates⟩
  have same : Target.halved.identity = Target.flagged.identity := by
    rw [Target.identity, sameFile]
    rfl
  exact ⟨Target.reachable_halved, reachable, readable', readable, same,
    build_eq_of_identity_eq Target.reachable_halved reachable readable' readable same⟩

namespace Target

/-- Two registers, the second of which is allocated. -/
def pair : Target :=
  ⟨"m", .ofBuilder ((RegisterBuilder.empty.add "a" 8 .integer false).add "b" 8 .integer false),
    [⟨⟨1⟩, [8], .integer⟩]⟩

/-- A single register, in a target whose name spells out another. -/
def single : Target :=
  ⟨"m|a:8:integer:u:-:a", .ofBuilder (RegisterBuilder.empty.add "b" 8 .integer false),
    [⟨⟨0⟩, [8], .integer⟩]⟩

/-- **A bar in a name is enough to confuse targets**: one identity, and two catalogs that differ
in their names, in the registers behind them and in what their banks hand out. -/
theorem exists_identity_eq_build_ne :
    pair.Reachable ∧ single.Reachable ∧
      (∀ entry ∈ pair.entries ++ single.entries, entry.accepts ∈ TypePredicate.builtin) ∧
      pair.identity = single.identity ∧
      ∃ catalog catalog', Catalog.build pair = .ok catalog ∧
        Catalog.build single = .ok catalog' ∧ catalog.name ≠ catalog'.name ∧
        catalog.registers.size ≠ catalog'.registers.size ∧
        catalog.banks.map (·.registers) ≠ catalog'.banks.map (·.registers) := by
  have same : pair.identity = single.identity := by
    refine String.toList_injective ?_
    rw [toList_identity, toList_identity]
    simp [pair, single, RegisterFile.ofBuilder, RegisterFile.reserve, RegisterBuilder.add,
      RegisterBuilder.empty, RegisterBuilder.nextId, registerPart, registerFields,
      RegisterFile.overlapNames, RegisterFile.names, RegisterFile.get?, entryPart]
    decide
  have made : Target.make pair.name pair.registers pair.entries = .ok pair := rfl
  have made' : Target.make single.name single.registers single.entries = .ok single := rfl
  refine ⟨.make (.build ?_) made, .make (.build ?_) made', ?_, same, ?_⟩
  · exact RegisterBuilder.Reachable.addAll_empty [("a", 8, false), ("b", 8, false)]
      (by decide) (by decide) (by decide)
  · exact RegisterBuilder.Reachable.addAll_empty [("b", 8, false)]
      (by decide) (by decide) (by decide)
  · simp [pair, single, TypePredicate.builtin]
  · exact ⟨_, _, rfl, rfl, by decide, by decide, by decide⟩

end Target

end LinearScan
