import LinearScan.Proofs.Bank.Supplier
import Mathlib.Data.List.DropRight

/-!
# Suppliers and their history

A supplier keeps one flag per register and forgets how it came about.  Here the calls on a supplier
are data (`Supplier.Call`), and so is what occurred at each of them, so that the flags can be
compared with the history that led to them.

`Supplier.FreeBy` reads off a history whether a register should be free: it was not handed out since
the last reset, or it was given back after it was last handed out.  It looks at the history as a
whole, from its end, while a supplier goes through it call by call.  The two meet in what one more
occurrence does to the answer (`Supplier.freeBy_concat`) and what one more call does to the flags
(`Supplier.Step`).

`Supplier.Lawful` is the comparison, and what the next call may rely on.  Returning a register that
is free is the only way for a sequence of calls to end early (`Supplier.lawful_of_calls`).
-/

namespace LinearScan

/-! ## Banks -/

/-- A bank to which registers are added one after the other. -/
def Bank.ofPushes (size : Nat) (predicate : TypePredicate) (registers : List RegisterId) : Bank :=
  registers.foldl Bank.push (.empty size predicate)

/-- However often a register is added, the bank holds it once. -/
theorem Bank.nodup_ofPushes (size : Nat) (predicate : TypePredicate)
    (registers : List RegisterId) : (ofPushes size predicate registers).registers.Nodup := by
  have run : ∀ bank : Bank, bank.registers.Nodup →
      (registers.foldl Bank.push bank).registers.Nodup := by
    induction registers with
    | nil => exact fun _ nodup => nodup
    | cons register rest ih => exact fun bank nodup => ih _ (nodup_registers_push nodup register)
  exact run _ List.nodup_nil

namespace Supplier

variable {supplier supplier' : Supplier} {register other : RegisterId} {bank : Bank}

/-! ## Calls and what occurs -/

/-- A call on a supplier. -/
inductive Call where
  | next (admissible : RegisterId → Bool)
  | giveBack (register : RegisterId)
  | reset

/-- What occurs at a call. -/
inductive Occurrence where
  | handedOut (register : RegisterId)
  /-- A register was asked for, and there was none to hand out. -/
  | ranOut
  /-- A register was given back, be it one of the bank or not. -/
  | givenBack (register : RegisterId)
  | reset
deriving DecidableEq

/-- What occurs at a call, and the supplier behind it. -/
def Call.on (supplier : Supplier) : Call → Except Fault (Occurrence × Supplier)
  | next admissible =>
    match supplier.next? admissible with
    | some (register, supplier) => .ok (.handedOut register, supplier)
    | none => .ok (.ranOut, supplier)
  | giveBack register => do return (.givenBack register, ← supplier.giveBack register)
  | reset => .ok (.reset, supplier.reset)

/-- A supplier with its history, the latest occurrence last. -/
structure Record where
  history : List Occurrence
  supplier : Supplier

/-- One more call, and its place in the history. -/
def Record.call (record : Record) (call : Call) : Except Fault Record := do
  let made ← call.on record.supplier
  return ⟨record.history ++ [made.1], made.2⟩

/-- Calls on a supplier without a history, made one after the other. -/
def afterAll (supplier : Supplier) (calls : List Call) : Except Fault Record :=
  calls.foldlM Record.call ⟨[], supplier⟩

theorem afterAll_concat (supplier : Supplier) (calls : List Call) (call : Call) :
    supplier.afterAll (calls ++ [call]) = supplier.afterAll calls >>= (·.call call) := by
  simp [afterAll, List.foldlM_append]

/-! ## What the history says -/

/-- What occurred since the last reset. -/
def sinceReset (history : List Occurrence) : List Occurrence :=
  history.rtakeWhile (· != .reset)

/-- A register was given back after it was last handed out. -/
def IsReturned (history : List Occurrence) (register : RegisterId) : Prop :=
  ∃ before after, history = before ++ .handedOut register :: after ∧
    .handedOut register ∉ after ∧ .givenBack register ∈ after

/-- **A register should be free**, by what occurred. -/
def FreeBy (history : List Occurrence) (register : RegisterId) : Prop :=
  .handedOut register ∉ sinceReset history ∨ IsReturned history register

section FreeBy

variable {history : List Occurrence} {occurrence : Occurrence}

theorem sinceReset_concat (ordinary : occurrence ≠ .reset) :
    sinceReset (history ++ [occurrence]) = sinceReset history ++ [occurrence] :=
  List.rtakeWhile_concat_pos _ _ _ (bne_iff_ne.mpr ordinary)

theorem mem_of_mem_sinceReset (member : occurrence ∈ sinceReset history) :
    occurrence ∈ history :=
  (List.rtakeWhile_suffix _ _).subset member

/-- A register that was handed out was so a last time. -/
theorem exists_last_of_mem (member : occurrence ∈ history) :
    ∃ before after, history = before ++ occurrence :: after ∧ occurrence ∉ after := by
  obtain ⟨after, before, whole, absent⟩ :=
    List.eq_append_cons_of_mem (List.mem_reverse.mpr member)
  refine ⟨before.reverse, after.reverse, ?_, mt List.mem_reverse.mp absent⟩
  rw [← List.reverse_reverse history, whole]
  simp

/-- The return of a register comes later than the last time that it was handed out, so that is not
what occurred last of all. -/
theorem IsReturned.exists_of_concat (returned : IsReturned (history ++ [occurrence]) register) :
    ∃ before after, history = before ++ .handedOut register :: after ∧
      .handedOut register ∉ after ++ [occurrence] ∧
      .givenBack register ∈ after ++ [occurrence] := by
  obtain ⟨before, after, whole, last, later⟩ := returned
  rcases List.eq_nil_or_concat' after with rfl | ⟨after, latest, rfl⟩
  · cases later
  · rw [← List.cons_append, ← List.append_assoc, List.append_singleton_inj] at whole
    obtain ⟨rfl, rfl⟩ := whole
    exact ⟨before, after, rfl, last, later⟩

/-- Whatever occurs after a register was last handed out leaves that the last time, unless it is
handed out again. -/
theorem isReturned_concat (notOut : occurrence ≠ .handedOut register) :
    IsReturned (history ++ [occurrence]) register ↔
      IsReturned history register ∨
        occurrence = .givenBack register ∧ .handedOut register ∈ history := by
  constructor
  · intro returned
    obtain ⟨before, after, rfl, last, later⟩ := returned.exists_of_concat
    rcases List.mem_append.mp later with earlier | now
    · exact Or.inl ⟨before, after, rfl, mt (List.mem_append_left _) last, earlier⟩
    · exact Or.inr ⟨(List.mem_singleton.mp now).symm, by simp⟩
  · rintro (⟨before, after, rfl, last, returned⟩ | ⟨rfl, member⟩)
    · refine ⟨before, after ++ [occurrence], by simp, ?_, List.mem_append_left _ returned⟩
      rw [List.mem_append, List.mem_singleton]
      exact not_or.mpr ⟨last, notOut.symm⟩
    · obtain ⟨before, after, rfl, last⟩ := exists_last_of_mem member
      exact ⟨before, after ++ [.givenBack register], by simp, by simpa using last, by simp⟩

/-- Apart from a reset and from handing it out, nothing matters to a register but its return. -/
theorem freeBy_concat (ordinary : occurrence ≠ .reset) (notOut : occurrence ≠ .handedOut register) :
    FreeBy (history ++ [occurrence]) register ↔
      FreeBy history register ∨ occurrence = .givenBack register := by
  have outSince : .handedOut register ∈ sinceReset (history ++ [occurrence]) ↔
      .handedOut register ∈ sinceReset history := by
    rw [sinceReset_concat ordinary, List.mem_append, List.mem_singleton, or_iff_left notOut.symm]
  rw [FreeBy, FreeBy, outSince, isReturned_concat notOut]
  constructor
  · rintro (notSince | returned | ⟨now, -⟩)
    · exact Or.inl (Or.inl notSince)
    · exact Or.inl (Or.inr returned)
    · exact Or.inr now
  · rintro ((notSince | returned) | now)
    · exact Or.inl notSince
    · exact Or.inr (Or.inl returned)
    · -- if it is out at all, there is a last time to which this return belongs
      by_cases out : .handedOut register ∈ sinceReset history
      · exact Or.inr (Or.inr ⟨now, mem_of_mem_sinceReset out⟩)
      · exact Or.inl out

/-- A register that was just handed out is not free. -/
theorem not_freeBy_concat_handedOut :
    ¬ FreeBy (history ++ [.handedOut register]) register := by
  rintro (notSince | returned)
  · rw [sinceReset_concat (by simp)] at notSince
    exact notSince (by simp)
  · obtain ⟨before, after, -, last, -⟩ := returned.exists_of_concat
    exact last (by simp)

/-- A reset makes every register free. -/
theorem freeBy_concat_reset : FreeBy (history ++ [.reset]) register := by
  refine Or.inl ?_
  rw [sinceReset, List.rtakeWhile_concat_neg _ _ _ (by simp)]
  exact List.not_mem_nil

theorem freeBy_nil : FreeBy [] register :=
  Or.inl (by simp [sinceReset])

end FreeBy

/-! ## What a call can do -/

/-- **All that a call can do**, unless it meets a fault. -/
inductive Step (supplier : Supplier) : Call → Occurrence → Supplier → Prop
  /-- The first register is handed out that is free and admissible. -/
  | handOut {admissible : RegisterId → Bool} {register : RegisterId}
      (first : supplier.bank.registers.find? (fun register =>
        supplier.isFree register && admissible register) = some register) :
      Step supplier (.next admissible) (.handedOut register) (supplier.mark register false)
  /-- There is no such register. -/
  | runOut {admissible : RegisterId → Bool}
      (nothing : supplier.bank.registers.find? (fun register =>
        supplier.isFree register && admissible register) = none) :
      Step supplier (.next admissible) .ranOut supplier
  /-- A register of the bank is taken back. -/
  | takeBack {register : RegisterId} (member : register ∈ supplier.bank.registers)
      (taken : supplier.isFree register = false) :
      Step supplier (.giveBack register) (.givenBack register) (supplier.mark register true)
  /-- A register of another bank is ignored. -/
  | ignore {register : RegisterId} (foreign : register ∉ supplier.bank.registers) :
      Step supplier (.giveBack register) (.givenBack register) supplier
  | reset : Step supplier .reset .reset (ofBank supplier.bank)

/-- A call makes a step, or it returns a register that is free. -/
theorem step_or_fault (nodup : supplier.bank.registers.Nodup) (call : Call) :
    (∃ occurrence supplier', call.on supplier = .ok (occurrence, supplier') ∧
        Step supplier call occurrence supplier') ∨
      ∃ register ∈ supplier.bank.registers, call = .giveBack register ∧
        supplier.isFree register = true ∧ call.on supplier = .error (.returnedTwice register) := by
  cases call with
  | next admissible =>
    left
    rw [Call.on, next?_eq nodup]
    cases first : supplier.bank.registers.find? fun register =>
        supplier.isFree register && admissible register with
    | none => exact ⟨_, _, rfl, .runOut first⟩
    | some register => exact ⟨_, _, rfl, .handOut first⟩
  | giveBack register =>
    rw [Call.on]
    cases returned : supplier.giveBack register with
    | error fault =>
      obtain ⟨member, free, rfl⟩ := giveBack_eq_error_iff.mp returned
      exact Or.inr ⟨register, member, rfl, free, rfl⟩
    | ok after =>
      left
      refine ⟨_, _, rfl, ?_⟩
      by_cases member : register ∈ supplier.bank.registers
      · obtain ⟨taken, rfl⟩ := eq_mark_of_giveBack member returned
        exact .takeBack member taken
      · rw [giveBack_of_notMem member] at returned
        obtain rfl := Except.ok.inj returned
        exact .ignore member
  | reset =>
    refine Or.inl ⟨_, _, rfl, ?_⟩
    rw [reset_eq]
    exact .reset

/-! ## Flags and history -/

/-- **The flags are those of the history.** -/
structure Record.Kept (bank : Bank) (record : Record) : Prop where
  bank_eq : record.supplier.bank = bank
  nodup : bank.registers.Nodup
  free_iff : ∀ register ∈ bank.registers,
    (record.supplier.isFree register = true ↔ FreeBy record.history register)

theorem Record.kept_start (nodup : bank.registers.Nodup) : Kept bank ⟨[], ofBank bank⟩ :=
  ⟨rfl, nodup, fun _ member => iff_of_true (isFree_ofBank nodup member) freeBy_nil⟩

/-- **A step keeps flags and history together.** -/
theorem Record.Kept.step {record : Record} {call : Call} {occurrence : Occurrence}
    (kept : Kept bank record) (step : Step record.supplier call occurrence supplier') :
    Kept bank ⟨record.history ++ [occurrence], supplier'⟩ := by
  obtain ⟨rfl, nodup, free_iff⟩ := kept
  cases step with
  | @handOut _ chosen first =>
    have isMember := List.mem_of_find?_eq_some first
    refine ⟨bank_mark .., nodup, ?_⟩
    intro register member
    rw [isFree_mark nodup isMember]
    by_cases same : register = chosen
    · rw [if_pos same, same]
      exact iff_of_false Bool.false_ne_true not_freeBy_concat_handedOut
    · rw [if_neg same, free_iff register member, freeBy_concat (by simp) (by simp [Ne.symm same])]
      simp
  | runOut nothing =>
    refine ⟨rfl, nodup, ?_⟩
    intro register member
    rw [free_iff register member, freeBy_concat (by simp) (by simp)]
    simp
  | @takeBack returned isMember taken =>
    refine ⟨bank_mark .., nodup, ?_⟩
    intro register member
    rw [isFree_mark nodup isMember, freeBy_concat (by simp) (by simp)]
    by_cases same : register = returned
    · rw [if_pos same, same]
      exact iff_of_true rfl (Or.inr rfl)
    · rw [if_neg same, free_iff register member]
      simp [Ne.symm same]
  | @ignore returned foreign =>
    refine ⟨rfl, nodup, ?_⟩
    intro register member
    have differs : returned ≠ register := fun same => foreign (same ▸ member)
    rw [free_iff register member, freeBy_concat (by simp) (by simp)]
    simp [differs]
  | reset =>
    refine ⟨rfl, nodup, ?_⟩
    intro register member
    exact iff_of_true (isFree_ofBank nodup member) freeBy_concat_reset

/-! ## The law -/

/-- **One register changes its state**, and no other. -/
structure ChangesOnly (register : RegisterId) (free : Bool) (supplier supplier' : Supplier) :
    Prop where
  bank_eq : supplier'.bank = supplier.bank
  changed : supplier'.isFree register = free
  others : ∀ other, other ≠ register → supplier'.isFree other = supplier.isFree other

theorem changesOnly_mark (nodup : supplier.bank.registers.Nodup)
    (member : register ∈ supplier.bank.registers) (free : Bool) :
    ChangesOnly register free supplier (supplier.mark register free) where
  bank_eq := bank_mark ..
  changed := by rw [isFree_mark nodup member, if_pos rfl]
  others other differs := by rw [isFree_mark nodup member, if_neg differs]

/-- **The law of suppliers**, for a supplier of a bank and the history that led to it. -/
structure Lawful (bank : Bank) (record : Record) : Prop where
  /-- A register of the bank is free exactly if the history says so. -/
  free_iff : ∀ register ∈ bank.registers,
    (record.supplier.isFree register = true ↔ FreeBy record.history register)
  /-- Other registers are not free. -/
  foreign : ∀ register ∉ bank.registers, record.supplier.isFree register = false
  /-- Each place has the flag of the register that is there. -/
  flags : record.supplier.free = bank.registers.map record.supplier.isFree
  /-- The next register is the first, in the order of the bank, that is free and admissible. -/
  next : ∀ admissible, (record.supplier.next? admissible).map Prod.fst =
    bank.registers.find? fun register => record.supplier.isFree register && admissible register
  next_only : ∀ admissible register supplier',
    record.supplier.next? admissible = some (register, supplier') →
      ChangesOnly register false record.supplier supplier'
  /-- A return fails exactly if the register is one of the bank and free. -/
  giveBack_fault : ∀ register fault, record.supplier.giveBack register = .error fault ↔
    register ∈ bank.registers ∧ record.supplier.isFree register = true ∧
      fault = .returnedTwice register
  giveBack_only : ∀ register ∈ bank.registers, ∀ supplier',
    record.supplier.giveBack register = .ok supplier' →
      ChangesOnly register true record.supplier supplier'
  giveBack_foreign : ∀ register ∉ bank.registers,
    record.supplier.giveBack register = .ok record.supplier

/-- Flags that are those of the history are all that the law needs. -/
theorem Record.Kept.lawful {record : Record} (kept : Kept bank record) : Lawful bank record := by
  obtain ⟨rfl, nodup, free_iff⟩ := kept
  refine ⟨free_iff, ?_, ?_, ?_, ?_, fun _ _ => giveBack_eq_error_iff, ?_, ?_⟩
  · intro register foreign
    rw [isFree, slot?_eq_none_iff.mpr foreign]
  · exact free_eq nodup
  · intro admissible
    rw [next?_eq nodup, Option.map_map]
    exact congrFun Option.map_id _
  · intro admissible register supplier' found
    rw [next?_eq nodup, Option.map_eq_some_iff] at found
    obtain ⟨_, first, same⟩ := found
    obtain ⟨rfl, rfl⟩ := Prod.mk.inj same
    exact changesOnly_mark nodup (List.mem_of_find?_eq_some first) false
  · intro register member supplier' returned
    obtain ⟨-, rfl⟩ := eq_mark_of_giveBack member returned
    exact changesOnly_mark nodup member true
  · intro register foreign
    exact giveBack_of_notMem foreign

/-- **A sequence of calls** is made to its end, or up to the return of a register that is free. -/
theorem kept_or_fault (nodup : bank.registers.Nodup) (calls : List Call) :
    (∃ record, (ofBank bank).afterAll calls = .ok record ∧ record.Kept bank) ∨
      ∃ made register rest record, calls = made ++ .giveBack register :: rest ∧
        (ofBank bank).afterAll made = .ok record ∧ record.Kept bank ∧
        register ∈ bank.registers ∧ record.supplier.isFree register = true ∧
        (ofBank bank).afterAll calls = .error (.returnedTwice register) := by
  induction calls using List.reverseRecOn with
  | nil => exact Or.inl ⟨_, rfl, Record.kept_start nodup⟩
  | append_singleton calls call ih =>
    rw [afterAll_concat]
    rcases ih with ⟨record, done, kept⟩ | ⟨made, register, rest, record, rfl, before, kept, member,
      free, fault⟩
    · rw [done]
      rcases step_or_fault (kept.bank_eq ▸ kept.nodup) call with ⟨occurrence, after, on, step⟩ |
        ⟨register, member, rfl, free, fault⟩
      · refine Or.inl ⟨_, ?_, kept.step step⟩
        show record.call call = _
        rw [Record.call, on]
        rfl
      · refine Or.inr ⟨calls, register, [], record, rfl, done, kept, kept.bank_eq ▸ member, free, ?_⟩
        show record.call _ = _
        rw [Record.call, fault]
        rfl
    · refine Or.inr ⟨made, register, rest ++ [call], record, by simp, before, kept, member, free, ?_⟩
      rw [fault]
      rfl

/-- **Suppliers obey their history.**  For every bank and every sequence of calls, the law holds
where the calls lead to.  They lead to their end, or to the return of a register that is free, which
is a fault. -/
theorem lawful_of_calls (size : Nat) (predicate : TypePredicate) (registers : List RegisterId)
    (calls : List Call) :
    (∃ record, (ofBank (.ofPushes size predicate registers)).afterAll calls = .ok record ∧
        Lawful (.ofPushes size predicate registers) record) ∨
      ∃ made register rest record, calls = made ++ .giveBack register :: rest ∧
        (ofBank (.ofPushes size predicate registers)).afterAll made = .ok record ∧
        Lawful (.ofPushes size predicate registers) record ∧
        register ∈ (Bank.ofPushes size predicate registers).registers ∧
        record.supplier.isFree register = true ∧
        (ofBank (.ofPushes size predicate registers)).afterAll calls
          = .error (.returnedTwice register) := by
  rcases kept_or_fault (Bank.nodup_ofPushes size predicate registers) calls with
    ⟨record, done, kept⟩ | ⟨made, register, rest, record, split, before, kept, others⟩
  · exact Or.inl ⟨record, done, kept.lawful⟩
  · exact Or.inr ⟨made, register, rest, record, split, before, kept.lawful, others⟩

-- The first register is skipped and stays free, a register of another bank is ignored, and the
-- second return of the same register ends the sequence.
example : (ofBank (.ofPushes 4 .integer [⟨2⟩, ⟨0⟩, ⟨2⟩])).afterAll
    [.next (· != ⟨2⟩), .giveBack ⟨7⟩, .next fun _ => true, .giveBack ⟨2⟩, .giveBack ⟨2⟩, .reset]
      = .error (.returnedTwice ⟨2⟩) := rfl

end Supplier

end LinearScan
