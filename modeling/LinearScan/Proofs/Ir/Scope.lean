import LinearScan.Ir.Program
import LinearScan.Proofs.Liveness
import LinearScan.Proofs.Outcome

/-!
# Programs from text are scoped

A text is read line by line, and each line sees the temps that earlier lines define.  So in
a program that was read, what an instruction reads or frees has been defined before, with
the type and size that it has there, and nothing is defined twice (`Scoped`).

The scope is a list of temps.  `Scope.Extends` is all that a line can do to it, and
`Scoped.concat` carries that over from scopes to positions in a program.
-/

namespace LinearScan

open Outcome

/-- An operation at a position defines a temp. -/
def DefinedAt (operations : List Operation) (position : Nat) (temp : Temp) : Prop :=
  ∃ operation, operations[position]? = some operation ∧ operation.defined = some temp

theorem definedAt_concat {operations : List Operation} {operation : Operation} {position : Nat}
    {temp : Temp} :
    DefinedAt (operations ++ [operation]) position temp ↔
      DefinedAt operations position temp ∨
        position = operations.length ∧ operation.defined = some temp :=
  exists_getElem?_concat

/-- A definition has the position of an operation. -/
theorem DefinedAt.lt {operations : List Operation} {position : Nat} {temp : Temp}
    (defined : DefinedAt operations position temp) : position < operations.length := by
  obtain ⟨operation, found, -⟩ := defined
  exact (List.getElem?_eq_some_iff.mp found).1

/-- One position defines one temp. -/
theorem DefinedAt.unique {operations : List Operation} {position : Nat} {temp temp' : Temp}
    (defined : DefinedAt operations position temp)
    (defined' : DefinedAt operations position temp') : temp = temp' := by
  obtain ⟨operation, found, isDefined⟩ := defined
  obtain ⟨operation', found', isDefined'⟩ := defined'
  rw [found] at found'
  obtain rfl := Option.some.inj found'
  exact Option.some.inj (isDefined.symm.trans isDefined')

/-- What a beginning of a program defines, the program defines. -/
theorem DefinedAt.of_beginning {operations done : List Operation} {position : Nat} {temp : Temp}
    (defined : DefinedAt done position temp) (beginning : done <+: operations) :
    DefinedAt operations position temp := by
  obtain ⟨operation, found, isDefined⟩ := defined
  exact ⟨operation, getElem?_of_beginning beginning found, isDefined⟩

/-- **The scoping of a program**: temps are defined once, before they are read or freed, and
their values take up room. -/
structure Scoped (operations : List Operation) : Prop where
  known : ∀ position operation, operations[position]? = some operation →
    ∀ temp ∈ operation.used ++ operation.freed.toList,
      ∃ earlier < position, DefinedAt operations earlier temp
  once : ∀ position position' temp temp', DefinedAt operations position temp →
    DefinedAt operations position' temp' → temp.id = temp'.id → position = position'
  sized : ∀ position temp, DefinedAt operations position temp → 0 < temp.size

namespace Scope

variable {scope scope' : Scope} {id : TempId} {temp : Temp}

/-! ## What a line does to the scope -/

/-- The temps that an operation reads and frees are in scope, and what it defines is new. -/
structure Extends (scope : Scope) (operation : Operation) (scope' : Scope) : Prop where
  known : ∀ temp ∈ operation.used ++ operation.freed.toList, temp ∈ scope.temps
  fresh : ∀ temp, operation.defined = some temp →
    (∀ old ∈ scope.temps, old.id ≠ temp.id) ∧ 0 < temp.size
  grown : scope'.temps = operation.defined.toList ++ scope.temps

/-- A temp that is found is in scope. -/
theorem mem_of_lookup (found : scope.lookup id = .ok temp) : temp ∈ scope.temps := by
  unfold lookup at found
  split at found
  · next defined =>
    obtain rfl := Except.ok.inj found
    exact List.mem_of_find?_eq_some defined
  · cases found

/-- Values of every type take up room. -/
theorem size_pos (type : ValueType) : 0 < type.size := by
  cases type <;> decide

/-- A declared temp is new, and is all that is new. -/
theorem eq_of_declare {typeName : String} (done : scope.declare id typeName = .ok (temp, scope')) :
    ((∀ old ∈ scope.temps, old.id ≠ temp.id) ∧ 0 < temp.size) ∧
      scope'.temps = temp :: scope.temps := by
  unfold declare at done
  split at done
  · cases done
  · next type _ =>
    split at done
    · cases done
    · next unknown =>
      obtain ⟨rfl, rfl⟩ := Prod.mk.inj (Except.ok.inj done)
      refine ⟨⟨?_, size_pos type⟩, rfl⟩
      intro old member same
      apply unknown
      rw [get?, List.find?_isSome]
      exact ⟨old, member, beq_iff_eq.mpr same⟩

/-- An operand that is a temp is in scope. -/
theorem mem_of_operand {token : Token} {operand : Operand}
    (read : scope.operand token = .ok operand) (isTemp : operand.temp? = some temp) :
    temp ∈ scope.temps := by
  unfold Scope.operand at read
  split at read
  · next index =>
    cases found : scope.lookup ⟨index⟩ with
    | error cause =>
      rw [found] at read
      cases read
    | ok source =>
      rw [found] at read
      obtain rfl := Except.ok.inj read
      obtain rfl := Option.some.inj isTemp
      exact mem_of_lookup found
  · obtain rfl := Except.ok.inj read
    cases isTemp
  · cases read

/-- Every operand is read from a token. -/
theorem exists_token_of_operands : ∀ {tokens : List Token} {operands : List Operand},
    scope.operands tokens = .ok operands →
      ∀ operand ∈ operands, ∃ token ∈ tokens, scope.operand token = .ok operand := by
  intro tokens
  induction tokens using Scope.operands.induct with
  | case1 =>
    intro operands read operand member
    obtain rfl := Except.ok.inj read
    cases member
  | case2 token =>
    intro operands read operand member
    obtain ⟨one, first, done⟩ := bind_eq_ok.mp read
    obtain rfl := pure_eq_ok.mp done
    obtain rfl := List.mem_singleton.mp member
    exact ⟨token, List.mem_cons_self, first⟩
  | case3 token separator =>
    intro operands read operand member
    obtain ⟨one, first, done⟩ := bind_eq_ok.mp read
    split at done <;> cases done
  | case4 token separator next rest ih =>
    intro operands read operand member
    obtain ⟨one, first, done⟩ := bind_eq_ok.mp read
    split at done
    · obtain ⟨others, readOthers, done⟩ := bind_eq_ok.mp done
      obtain rfl := pure_eq_ok.mp done
      rcases List.mem_cons.mp member with rfl | later
      · exact ⟨token, List.mem_cons_self, first⟩
      · obtain ⟨source, isToken, fromSource⟩ := ih readOthers operand later
        exact ⟨source, List.mem_cons_of_mem _ (List.mem_cons_of_mem _ isToken), fromSource⟩
    · cases done

/-- Operands that are temps are in scope. -/
theorem mem_of_operands {tokens : List Token} {operands : List Operand}
    (read : scope.operands tokens = .ok operands) :
    ∀ temp ∈ operands.filterMap Operand.temp?, temp ∈ scope.temps := by
  intro temp member
  obtain ⟨operand, isOperand, isTemp⟩ := List.mem_filterMap.mp member
  obtain ⟨token, -, fromToken⟩ := exists_token_of_operands read operand isOperand
  exact mem_of_operand fromToken isTemp

/-- **A line** that holds an instruction extends the scope by what the instruction defines;
an empty one leaves it. -/
theorem extends_of_instr {line : List Token} {instr? : Option Instr}
    (read : scope.instr line = .ok (instr?, scope')) :
    match instr? with
    | some instr => scope.Extends instr.operation scope'
    | none => scope' = scope := by
  unfold Scope.instr at read
  split at read
  · -- An empty line.
    obtain ⟨rfl, rfl⟩ := Prod.mk.inj (Except.ok.inj read)
    rfl
  · -- A parameter.
    obtain ⟨⟨dest, grown⟩, declared, done⟩ := bind_eq_ok.mp read
    obtain ⟨rfl, rfl⟩ := Prod.mk.inj (pure_eq_ok.mp done)
    obtain ⟨fresh, temps⟩ := eq_of_declare declared
    refine ⟨?_, ?_, temps⟩
    · intro temp member
      cases member
    · intro temp isDest
      obtain rfl := Option.some.inj isDest
      exact fresh
  · -- A free marker.
    obtain ⟨temp, found, done⟩ := bind_eq_ok.mp read
    obtain ⟨rfl, rfl⟩ := Prod.mk.inj (pure_eq_ok.mp done)
    refine ⟨?_, ?_, rfl⟩
    · intro other member
      obtain rfl := List.mem_singleton.mp member
      exact mem_of_lookup found
    · intro other isDest
      cases isDest
  · -- A result is declared behind its sources, so it cannot be one of them.
    obtain ⟨srcs, sources, done⟩ := bind_eq_ok.mp read
    obtain ⟨⟨dest, grown⟩, declared, done⟩ := bind_eq_ok.mp done
    obtain ⟨rfl, rfl⟩ := Prod.mk.inj (pure_eq_ok.mp done)
    obtain ⟨fresh, temps⟩ := eq_of_declare declared
    refine ⟨?_, ?_, temps⟩
    · intro temp member
      exact mem_of_operands sources temp (by simpa [Instr.operation] using member)
    · intro temp isDest
      obtain rfl := Option.some.inj isDest
      exact fresh
  · -- An operation without a result.
    obtain ⟨srcs, sources, done⟩ := bind_eq_ok.mp read
    obtain ⟨rfl, rfl⟩ := Prod.mk.inj (pure_eq_ok.mp done)
    refine ⟨?_, ?_, rfl⟩
    · intro temp member
      exact mem_of_operands sources temp (by simpa [Instr.operation] using member)
    · intro temp isDest
      cases isDest
  · cases read

end Scope

/-! ## What lines do to a program -/

section Program

variable {done : List Operation} {operation : Operation} {scope scope' : Scope}

/-- A scope holds what the operations so far define. -/
def Scope.Agrees (scope : Scope) (operations : List Operation) : Prop :=
  ∀ temp, temp ∈ scope.temps ↔ ∃ position, DefinedAt operations position temp

/-- Scopes and programs grow together. -/
theorem Scope.Agrees.concat (agrees : scope.Agrees done)
    (line : scope.Extends operation scope') : scope'.Agrees (done ++ [operation]) := by
  intro temp
  rw [line.grown, List.mem_append, agrees temp]
  constructor
  · rintro (new | ⟨position, defined⟩)
    · rw [Option.mem_toList] at new
      exact ⟨done.length, definedAt_concat.mpr (Or.inr ⟨rfl, new⟩)⟩
    · exact ⟨position, definedAt_concat.mpr (Or.inl defined)⟩
  · rintro ⟨position, defined⟩
    rcases definedAt_concat.mp defined with old | ⟨-, new⟩
    · exact Or.inr ⟨position, old⟩
    · exact Or.inl (Option.mem_toList.mpr new)

/-- **One line** keeps a program scoped. -/
theorem Scoped.concat (inScope : Scoped done) (agrees : scope.Agrees done)
    (line : scope.Extends operation scope') : Scoped (done ++ [operation]) where
  known := by
    intro position other found temp member
    rcases exists_getElem?_concat.mp ⟨other, found, rfl⟩ with ⟨_, found, rfl⟩ | ⟨rfl, rfl⟩
    · obtain ⟨earlier, before, defined⟩ := inScope.known position other found temp member
      exact ⟨earlier, before, definedAt_concat.mpr (Or.inl defined)⟩
    · obtain ⟨earlier, defined⟩ := (agrees temp).mp (line.known temp member)
      exact ⟨earlier, defined.lt, definedAt_concat.mpr (Or.inl defined)⟩
  once := by
    intro position position' temp temp' defined defined' same
    rcases definedAt_concat.mp defined with old | ⟨rfl, new⟩
    · rcases definedAt_concat.mp defined' with old' | ⟨rfl, new'⟩
      · exact inScope.once position position' temp temp' old old' same
      · exact absurd same ((line.fresh temp' new').1 temp ((agrees temp).mpr ⟨_, old⟩))
    · rcases definedAt_concat.mp defined' with old' | ⟨rfl, new'⟩
      · exact absurd same.symm ((line.fresh temp new).1 temp' ((agrees temp').mpr ⟨_, old'⟩))
      · rfl
  sized := by
    intro position temp defined
    rcases definedAt_concat.mp defined with old | ⟨-, new⟩
    · exact inScope.sized position temp old
    · exact (line.fresh temp new).2

/-- Nothing is in scope before a program. -/
theorem Scope.agrees_empty : Scope.empty.Agrees [] := by
  intro temp
  simp [Scope.empty, DefinedAt]

theorem scoped_nil : Scoped [] where
  known := nofun
  once := by
    rintro position position' temp temp' ⟨operation, found, -⟩
    cases found
  sized := by
    rintro position temp ⟨operation, found, -⟩
    cases found

/-- **All lines** keep a program scoped. -/
theorem scoped_ofLines (lines : List (List Token)) :
    ∀ {done : List Operation} {scope : Scope} {number : Nat} {instrs : List Instr},
      Program.ofLines scope number lines = .ok instrs → Scoped done → scope.Agrees done →
      Scoped (done ++ instrs.map Instr.operation) := by
  induction lines with
  | nil =>
    intro done scope number instrs read inScope agrees
    obtain rfl := Except.ok.inj read
    rw [List.map_nil, List.append_nil]
    exact inScope
  | cons line rest ih =>
    intro done scope number instrs read inScope agrees
    rw [Program.ofLines] at read
    cases first : scope.instr line with
    | error cause =>
      rw [first] at read
      cases read
    | ok result =>
      obtain ⟨instr?, scope'⟩ := result
      rw [first] at read
      obtain ⟨others, readOthers, whole⟩ := bind_eq_ok.mp read
      obtain rfl := pure_eq_ok.mp whole
      have step := Scope.extends_of_instr first
      cases instr? with
      | none =>
        have same : scope' = scope := step
        rw [same] at readOthers
        exact ih readOthers inScope agrees
      | some instr =>
        have inScope' := ih readOthers (inScope.concat agrees step) (agrees.concat step)
        rw [List.append_assoc] at inScope'
        exact inScope'

/-- **A program that was read is scoped.** -/
theorem scoped_of_ofText {source : String} {program : List Instr}
    (read : Program.ofText source = .ok program) : Scoped (program.map Instr.operation) := by
  unfold Program.ofText at read
  dsimp only at read
  split at read
  · cases read
  · rw [← List.nil_append (program.map Instr.operation)]
    exact scoped_ofLines _ read scoped_nil Scope.agrees_empty

end Program

end LinearScan
