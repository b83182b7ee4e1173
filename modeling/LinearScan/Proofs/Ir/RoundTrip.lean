import LinearScan.Proofs.Delimited
import LinearScan.Proofs.Ir.Lexing
import LinearScan.Proofs.Ir.Scope

/-!
# Programs are read back as they are written

A program is written one instruction a line, and the types and sizes of operands are left out.
Reading it back has to cut every line where it was put together, and to recover what was left out
from the definitions further up.

`Program.WellFormed` says which programs can be written so: each instruction can be spelled on
its own (`Instr.Spelled`), and the whole is scoped.  These are exactly the programs that some text
is read as.
-/

namespace LinearScan

open Outcome

open Token (Spells Stops)

/-- A temp of its type's natural size, with a number that can be written. -/
structure Temp.IsNatural (temp : Temp) : Prop where
  size_eq : temp.size = temp.type.size
  inRange : temp.id.index ≤ Token.maxTemp

/-- **An instruction that can be spelled**: its name is one, its constants are in range, and what
it defines is natural. -/
structure Instr.Spelled (instr : Instr) : Prop where
  name : ∀ name dest srcs, instr = .op name dest srcs → Token.IsName name
  constants : ∀ name dest srcs, instr = .op name dest srcs → ∀ value, .const value ∈ srcs →
    Token.minNumber ≤ value ∧ value ≤ Token.maxNumber
  defined : ∀ temp, instr.operation.defined = some temp → temp.IsNatural

/-- **A program that can be written**: each instruction can be spelled, and each temp is defined
once, before it is read or freed. -/
structure Program.WellFormed (instrs : List Instr) : Prop where
  spelled : ∀ instr ∈ instrs, instr.Spelled
  inScope : Scoped (instrs.map Instr.operation)

/-! ## The tokens of a line -/

/-- The token that an operand is written as. -/
def Operand.token : Operand → Token
  | const value => .number value
  | temp source => .temp source.id.index

/-- The tokens of a definition. -/
def Temp.tokens (temp : Temp) : List Token :=
  [.temp temp.id.index, .colon, .ident temp.type.name]

namespace Instr

/-- The tokens of operands. -/
def operandTokens (srcs : List Operand) : List Token :=
  [Token.comma].intercalate (srcs.map fun operand => [operand.token])

theorem operandTokens_cons_cons (operand next : Operand) (rest : List Operand) :
    operandTokens (operand :: next :: rest) =
      operand.token :: .comma :: operandTokens (next :: rest) := by
  simp [operandTokens, List.intercalate_cons_cons]

/-- The tokens of the line that spells an instruction. -/
def tokens : Instr → List Token
  | param dest => .param :: dest.tokens
  | op name none srcs => .ident name :: operandTokens srcs
  | op name (some dest) srcs => dest.tokens ++ .assign :: .ident name :: operandTokens srcs
  | free temp => [.free, .temp temp.id.index]

end Instr

/-! ## Lines are cut as they are put together -/

theorem TempId.toList_text (id : TempId) : id.text.toList = 't' :: id.index.repr.toList := by
  simp [TempId.text, toString]

theorem Temp.toList_text (temp : Temp) :
    temp.text.toList = temp.id.text.toList ++ ':' :: temp.type.name.toList := by
  simp [Temp.text, toString]

theorem ValueType.spells_name (type : ValueType) : Spells type.name.toList [.ident type.name] := by
  cases type <;> exact Token.spells_word (by decide) (List.all_eq_true.mp rfl)

theorem TempId.spells_text {id : TempId} (inRange : id.index ≤ Token.maxTemp) :
    Spells id.text.toList [.temp id.index] := by
  rw [TempId.toList_text]
  exact Token.spells_temp inRange

theorem Temp.spells_text {temp : Temp} (inRange : temp.id.index ≤ Token.maxTemp) :
    Spells temp.text.toList temp.tokens := by
  rw [Temp.toList_text]
  exact (TempId.spells_text inRange).append (Token.stops_cons rfl)
    (temp.type.spells_name.behind ':' .colon fun _ => rfl)

/-- An operand that can be written. -/
def Operand.InRange : Operand → Prop
  | const value => Token.minNumber ≤ value ∧ value ≤ Token.maxNumber
  | temp source => source.id.index ≤ Token.maxTemp

theorem Operand.spells_text {operand : Operand} (inRange : operand.InRange) :
    Spells operand.text.toList [operand.token] := by
  cases operand with
  | const value => exact Token.spells_number inRange
  | temp source => exact TempId.spells_text inRange

namespace Instr

variable {srcs : List Operand} {name : String}

theorem toList_operandsText (srcs : List Operand) (some : srcs ≠ []) :
    (operandsText srcs).toList =
      ' ' :: [',', ' '].intercalate (srcs.map fun operand => operand.text.toList) := by
  cases srcs with
  | nil => exact absurd rfl some
  | cons operand rest => simp [operandsText, String.toList_intercalate, Function.comp_def]

/-- Operands are set off from the name before them. -/
theorem stops_operandsText (srcs : List Operand) : Stops (operandsText srcs).toList := by
  cases srcs with
  | nil => exact Token.stops_nil
  | cons operand rest =>
    rw [toList_operandsText _ (by simp)]
    exact Token.stops_cons rfl

theorem spells_operandsText (inRange : ∀ operand ∈ srcs, operand.InRange) :
    Spells (operandsText srcs).toList (operandTokens srcs) := by
  cases srcs with
  | nil => exact Token.spells_nil
  | cons operand rest =>
    rw [toList_operandsText _ (by simp)]
    refine (Spells.intercalate ?_ ?_ ?_).indent rfl
    · exact fun text => Token.stops_cons rfl
    · intro text tokens spells
      exact (spells.indent rfl).behind ',' .comma fun _ => rfl
    · exact fun operand member => Operand.spells_text (inRange operand member)

/-- The name of an operation with its operands. -/
theorem spells_call (isName : Token.IsName name) (inRange : ∀ operand ∈ srcs, operand.InRange) :
    Spells (name.toList ++ (operandsText srcs).toList) (.ident name :: operandTokens srcs) :=
  (Token.spells_name isName).append (stops_operandsText srcs) (spells_operandsText inRange)

/-- **A line is cut into the tokens of its instruction.** -/
theorem spells_text {instr : Instr} (spelled : instr.Spelled)
    (known : ∀ temp ∈ instr.operation.used ++ instr.operation.freed.toList,
      temp.id.index ≤ Token.maxTemp) : Spells instr.text.toList instr.tokens := by
  cases instr with
  | param dest =>
    have text : (Instr.param dest).text.toList = "param".toList ++ ' ' :: dest.text.toList := by
      simp [Instr.text, toString]
    have keyword : Spells "param".toList [.param] :=
      Token.spells_word (by decide) (List.all_eq_true.mp rfl)
    rw [text]
    exact keyword.append (Token.stops_cons rfl)
      ((Temp.spells_text (spelled.defined dest rfl).inRange).indent rfl)
  | free temp =>
    have text : (Instr.free temp).text.toList = "free".toList ++ ' ' :: temp.id.text.toList := by
      simp [Instr.text, toString]
    have keyword : Spells "free".toList [.free] :=
      Token.spells_word (by decide) (List.all_eq_true.mp rfl)
    rw [text]
    exact keyword.append (Token.stops_cons rfl)
      ((TempId.spells_text (known temp List.mem_cons_self)).indent rfl)
  | op name dest srcs =>
    have inRange : ∀ operand ∈ srcs, operand.InRange := by
      intro operand member
      cases operand with
      | const value => exact spelled.constants name dest srcs rfl value member
      | temp source =>
        exact known source (List.mem_append_left _ (List.mem_filterMap.mpr ⟨_, member, rfl⟩))
    have call := spells_call (spelled.name name dest srcs rfl) inRange
    cases dest with
    | none =>
      have text : (Instr.op name none srcs).text.toList
          = name.toList ++ (operandsText srcs).toList := by
        simp [Instr.text]
      rw [text]
      exact call
    | some dest =>
      have text : (Instr.op name (some dest) srcs).text.toList
          = dest.text.toList ++ ' ' :: '=' :: ' ' :: (name.toList ++ (operandsText srcs).toList) := by
        simp [Instr.text, toString]
      rw [text]
      refine (Temp.spells_text (spelled.defined dest rfl).inRange).append (Token.stops_cons rfl) ?_
      exact ((call.indent rfl).behind '=' .assign fun _ => rfl).indent rfl

end Instr

namespace Program

/-! ## Lines are told apart -/

theorem tokenLines_cons {token : Token} (inLine : token ≠ .newline) (rest : List Token) :
    tokenLines (token :: rest) =
      match tokenLines rest with
      | [] => [[token]]
      | line :: lines => (token :: line) :: lines := by
  cases token with
  | newline => exact absurd rfl inLine
  | _ => rfl

/-- The tokens before the first newline are the first line. -/
theorem tokenLines_append {line : List Token} (inLine : ∀ token ∈ line, token ≠ .newline)
    (rest : List Token) : tokenLines (line ++ .newline :: rest) = line :: tokenLines rest := by
  induction line with
  | nil => rfl
  | cons token line ih =>
    obtain ⟨first, others⟩ := List.forall_mem_cons.mp inLine
    rw [List.cons_append, tokenLines_cons first, ih others]

theorem tokenLines_of_forall {line : List Token} (inLine : ∀ token ∈ line, token ≠ .newline) :
    tokenLines line = [line] := by
  induction line with
  | nil => rfl
  | cons token line ih =>
    obtain ⟨first, others⟩ := List.forall_mem_cons.mp inLine
    rw [tokenLines_cons first, ih others]

/-- Lines that are put together with newlines are told apart. -/
theorem tokenLines_intercalate {lines : List (List Token)} (some : lines ≠ [])
    (inLine : ∀ line ∈ lines, ∀ token ∈ line, token ≠ .newline) :
    tokenLines ([Token.newline].intercalate lines) = lines := by
  induction lines with
  | nil => exact absurd rfl some
  | cons line lines ih =>
    obtain ⟨first, others⟩ := List.forall_mem_cons.mp inLine
    cases lines with
    | nil => simpa using tokenLines_of_forall first
    | cons next lines =>
      rw [List.intercalate_cons_cons, List.append_assoc, List.singleton_append,
        tokenLines_append first, ih (by simp) others]

/-- Telling lines apart makes up no tokens. -/
theorem mem_of_mem_tokenLines (tokens : List Token) :
    ∀ line ∈ tokenLines tokens, ∀ token ∈ line, token ∈ tokens := by
  fun_induction tokenLines tokens with
  | case1 => simp
  | case2 rest ih => grind
  | case3 token rest isToken nothing ih => grind
  | case4 token rest isToken line lines split ih => grind

end Program

/-! ## Lines are read back -/

namespace Scope

variable {scope : Scope} {instr : Instr} {srcs : List Operand}

/-- Operands are read back if their temps are known. -/
theorem operands_tokens
    (known : ∀ temp ∈ srcs.filterMap Operand.temp?, scope.lookup temp.id = .ok temp) :
    scope.operands (Instr.operandTokens srcs) = .ok srcs := by
  have one : ∀ operand ∈ srcs, scope.operand operand.token = .ok operand := by
    intro operand member
    cases operand with
    | const value => rfl
    | temp source =>
      have found := known source (List.mem_filterMap.mpr ⟨_, member, rfl⟩)
      show (scope.lookup source.id).map Operand.temp = _
      rw [found]
      rfl
  -- the induction is on operands that are read back one by one, whatever their temps
  clear known
  induction srcs with
  | nil => rfl
  | cons operand rest ih =>
    obtain ⟨first, others⟩ := List.forall_mem_cons.mp one
    cases rest with
    | nil =>
      show scope.operands [operand.token] = _
      rw [operands, first]
      rfl
    | cons next rest =>
      obtain ⟨token, more, split⟩ : ∃ token more,
          Instr.operandTokens (next :: rest) = token :: more := by
        cases rest with
        | nil => exact ⟨_, _, rfl⟩
        | cons another rest => exact ⟨_, _, Instr.operandTokens_cons_cons next another rest⟩
      have read := ih others
      rw [split] at read
      rw [Instr.operandTokens_cons_cons, split, operands, first]
      show (do
        let operands ← scope.operands (token :: more)
        return operand :: operands) = _
      rw [read]
      rfl

/-- A temp of a new number is declared as it is. -/
theorem declare_natural {temp : Temp} (natural : temp.size = temp.type.size)
    (fresh : scope.get? temp.id = none) :
    scope.declare temp.id temp.type.name = .ok (temp, ⟨temp :: scope.temps⟩) := by
  have same : Temp.ofType temp.id temp.type = temp := by
    rw [Temp.ofType, ← natural]
  rw [declare, ValueType.ofName?_name]
  simp [fresh, same]

/-- **A line is read back** if what it reads and frees is known and what it defines is new. -/
theorem exists_instr_tokens
    (natural : ∀ temp, instr.operation.defined = some temp → temp.size = temp.type.size)
    (known : ∀ temp ∈ instr.operation.used ++ instr.operation.freed.toList,
      scope.lookup temp.id = .ok temp)
    (fresh : ∀ temp, instr.operation.defined = some temp → scope.get? temp.id = none) :
    ∃ scope', scope.instr instr.tokens = .ok (some instr, scope') := by
  cases instr with
  | param dest =>
    have declared := declare_natural (natural dest rfl) (fresh dest rfl)
    exact ⟨_, bind_eq_ok.mpr ⟨_, declared, rfl⟩⟩
  | free temp =>
    have found := known temp List.mem_cons_self
    exact ⟨_, bind_eq_ok.mpr ⟨_, found, rfl⟩⟩
  | op name dest srcs =>
    have read : scope.operands (Instr.operandTokens srcs) = .ok srcs :=
      operands_tokens fun temp member => known temp (List.mem_append_left _ member)
    cases dest with
    | none => exact ⟨_, bind_eq_ok.mpr ⟨_, read, rfl⟩⟩
    | some dest =>
      have declared := declare_natural (natural dest rfl) (fresh dest rfl)
      exact ⟨_, bind_eq_ok.mpr ⟨_, read, bind_eq_ok.mpr ⟨_, declared, rfl⟩⟩⟩

end Scope

/-! ## Programs are read back -/

section

variable {operations done : List Operation} {scope : Scope} {temp : Temp}

/-- What is found by a number has it. -/
theorem Scope.mem_of_get? {id : TempId} (found : scope.get? id = some temp) :
    temp ∈ scope.temps ∧ temp.id = id := by
  have same := List.find?_some found
  exact ⟨List.mem_of_find?_eq_some found, beq_iff_eq.mp same⟩

/-- What is in scope was defined by the program. -/
theorem Scope.Agrees.exists_definedAt (agrees : scope.Agrees done)
    (beginning : done <+: operations) (member : temp ∈ scope.temps) :
    ∃ position < done.length, DefinedAt operations position temp := by
  obtain ⟨position, defined⟩ := (agrees temp).mp member
  exact ⟨position, defined.lt, defined.of_beginning beginning⟩

/-- A temp in scope is found by its number, since no other that is defined has it. -/
theorem Scope.Agrees.lookup_eq (agrees : scope.Agrees done) (inScope : Scoped operations)
    (beginning : done <+: operations) (member : temp ∈ scope.temps) :
    scope.lookup temp.id = .ok temp := by
  have isSome : (scope.get? temp.id).isSome = true :=
    List.find?_isSome.mpr ⟨temp, member, beq_iff_eq.mpr rfl⟩
  obtain ⟨other, found⟩ := Option.isSome_iff_exists.mp isSome
  -- the temp that is found could be another one of that number
  obtain ⟨isKnown, sameId⟩ := mem_of_get? found
  obtain ⟨position, -, defined⟩ := agrees.exists_definedAt beginning isKnown
  obtain ⟨position', -, defined'⟩ := agrees.exists_definedAt beginning member
  obtain rfl := inScope.once position position' other temp defined defined' sameId
  rw [lookup, found, defined.unique defined']

/-- A temp that is defined next is not in scope. -/
theorem Scope.Agrees.get?_eq_none (agrees : scope.Agrees done) (inScope : Scoped operations)
    (beginning : done <+: operations) (next : DefinedAt operations done.length temp) :
    scope.get? temp.id = none := by
  rw [Option.eq_none_iff_forall_ne_some]
  intro other found
  obtain ⟨isKnown, sameId⟩ := mem_of_get? found
  obtain ⟨position, earlier, defined⟩ := agrees.exists_definedAt beginning isKnown
  have := inScope.once position done.length other temp defined next sameId
  omega

end

namespace Program

variable {instrs : List Instr}

/-- All that a program mentions can be written. -/
theorem WellFormed.inRange (wellFormed : WellFormed instrs) {instr : Instr}
    (member : instr ∈ instrs) : ∀ temp ∈ instr.operation.used ++ instr.operation.freed.toList,
      temp.id.index ≤ Token.maxTemp := by
  intro temp mentioned
  obtain ⟨position, found⟩ := List.mem_iff_getElem?.mp member
  obtain ⟨earlier, -, operation, isOperation, isDefined⟩ := wellFormed.inScope.known position
    instr.operation (by rw [List.getElem?_map, found]; rfl) temp mentioned
  rw [List.getElem?_map] at isOperation
  obtain ⟨definition, atEarlier, rfl⟩ := Option.map_eq_some_iff.mp isOperation
  exact ((wellFormed.spelled definition (List.mem_of_getElem? atEarlier)).defined temp
    isDefined).inRange

/-- **Lines of tokens are read back**, one after the other. -/
theorem ofLines_tokens (inScope : Scoped (instrs.map Instr.operation))
    (natural : ∀ instr ∈ instrs, ∀ temp, instr.operation.defined = some temp →
      temp.size = temp.type.size) (rest : List Instr) :
    ∀ {done : List Instr} {scope : Scope} {number : Nat}, done ++ rest = instrs →
      scope.Agrees (done.map Instr.operation) →
      ofLines scope number (rest.map Instr.tokens) = .ok rest := by
  induction rest with
  | nil =>
    intro done scope number _ _
    rfl
  | cons instr rest ih =>
    intro done scope number whole agrees
    have beginning : done.map Instr.operation <+: instrs.map Instr.operation :=
      (show done <+: instrs from ⟨_, whole⟩).map _
    have here : (instrs.map Instr.operation)[(done.map Instr.operation).length]?
        = some instr.operation := by
      rw [← whole]
      simp
    have member : instr ∈ instrs := by
      rw [← whole]
      simp
    -- what the line mentions is defined further up, and so it is in scope
    have known : ∀ temp ∈ instr.operation.used ++ instr.operation.freed.toList,
        scope.lookup temp.id = .ok temp := by
      intro temp mentioned
      obtain ⟨earlier, before, operation, found, isDefined⟩ :=
        inScope.known _ _ here temp mentioned
      refine agrees.lookup_eq inScope beginning ((agrees temp).mpr ⟨earlier, operation,
        ?_, isDefined⟩)
      obtain ⟨more, same⟩ := beginning
      rw [← same, List.getElem?_append_left before] at found
      exact found
    obtain ⟨scope', read⟩ := Scope.exists_instr_tokens (natural instr member)
      known fun temp isDefined =>
        agrees.get?_eq_none inScope beginning ⟨_, here, isDefined⟩
    have grown := agrees.concat (Scope.extends_of_instr read)
    have others : ofLines scope' (number + 1) (rest.map Instr.tokens) = .ok rest :=
      ih (show done ++ [instr] ++ rest = instrs by simpa using whole) (by simpa using grown)
    rw [List.map_cons, ofLines, read]
    exact bind_eq_ok.mpr ⟨rest, others, rfl⟩

/-- Nothing is reported if no lexeme is invalid. -/
theorem firstInvalid?_eq_none_iff (lexemes : List Lexeme) :
    ∀ line, firstInvalid? line lexemes = none ↔
      ∀ token ∈ lexemes.map (·.token), token ≠ .invalid := by
  induction lexemes with
  | nil => simp [firstInvalid?]
  | cons lexeme rest ih =>
    intro line
    rw [List.map_cons, List.forall_mem_cons, firstInvalid?]
    split
    · next invalid => simp [invalid]
    · next newline => simp [newline, ih]
    · next _ notInvalid _ =>
      rw [ih]
      exact ⟨fun others => ⟨notInvalid, others⟩, And.right⟩

/-- **What reading a text amounts to**: no token is invalid, and the lines of tokens are read one
after the other. -/
theorem ofText_eq_ok_iff {source : String} :
    ofText source = .ok instrs ↔ (∀ token ∈ Token.read source.toList, token ≠ .invalid) ∧
      ofLines .empty 1 (tokenLines (Token.read source.toList)) = .ok instrs := by
  rw [ofText, Lexeme.ofText, Token.read, ← firstInvalid?_eq_none_iff _ 1]
  cases firstInvalid? 1 (Lexeme.scan 0 source.toList) with
  | none => simp
  | some error => simp

/-- The tokens of an instruction are on one line, and none is invalid. -/
theorem notMem_tokens {token : Token} (outside : token = .newline ∨ token = .invalid)
    (instr : Instr) : token ∉ instr.tokens := by
  have noOperand : ∀ srcs, token ∉ Instr.operandTokens srcs := by
    intro srcs
    refine Delimited.notMem_intercalate ?_ ?_
    · rcases outside with rfl | rfl <;> simp
    · intro piece member
      obtain ⟨operand, -, rfl⟩ := List.mem_map.mp member
      rcases outside with rfl | rfl <;> cases operand <;> simp [Operand.token]
  cases instr with
  | param dest => rcases outside with rfl | rfl <;> simp [Instr.tokens, Temp.tokens]
  | free temp => rcases outside with rfl | rfl <;> simp [Instr.tokens]
  | op name dest srcs =>
    cases dest with
    | none => rcases outside with rfl | rfl <;> simp [Instr.tokens, noOperand]
    | some dest => rcases outside with rfl | rfl <;> simp [Instr.tokens, Temp.tokens, noOperand]

theorem toList_text (instrs : List Instr) :
    (text instrs).toList = ['\n'].intercalate (instrs.map fun instr => instr.text.toList) := by
  simp [text, String.toList_intercalate, Function.comp_def]

/-- A program is cut into the tokens of its instructions, one line each. -/
theorem WellFormed.read_text (wellFormed : WellFormed instrs) :
    Token.read (text instrs).toList = [Token.newline].intercalate (instrs.map Instr.tokens) := by
  rw [toList_text]
  refine (Spells.intercalate ?_ ?_ ?_).read_eq
  · exact fun text => Token.stops_cons rfl
  · exact fun spells => spells.behind '\n' .newline fun _ => rfl
  · exact fun instr member =>
      Instr.spells_text (wellFormed.spelled instr member) (wellFormed.inRange member)

/-- **A program that can be written is read back as it is.** -/
theorem WellFormed.ofText_text (wellFormed : WellFormed instrs) :
    ofText (text instrs) = .ok instrs := by
  rw [ofText_eq_ok_iff, wellFormed.read_text]
  constructor
  · rintro token member rfl
    refine Delimited.notMem_intercalate ?_ ?_ member
    · simp
    · intro line isLine
      obtain ⟨instr, -, rfl⟩ := List.mem_map.mp isLine
      exact notMem_tokens (Or.inr rfl) instr
  · cases instrs with
    | nil => rfl
    | cons instr rest =>
      rw [tokenLines_intercalate (by simp)]
      · refine ofLines_tokens wellFormed.inScope ?_ _ (List.nil_append _) Scope.agrees_empty
        exact fun instr member temp isDefined =>
          ((wellFormed.spelled instr member).defined temp isDefined).size_eq
      · rintro line isLine token member rfl
        obtain ⟨instr, -, rfl⟩ := List.mem_map.mp isLine
        exact notMem_tokens (Or.inl rfl) instr member

end Program

/-! ## What is read can be written -/

namespace Scope

variable {scope scope' : Scope} {instr : Instr}

/-- What is declared is natural. -/
theorem isNatural_of_declare {id : TempId} {typeName : String} {temp : Temp}
    (inRange : id.index ≤ Token.maxTemp)
    (done : scope.declare id typeName = .ok (temp, scope')) : temp.IsNatural := by
  unfold declare at done
  split at done
  · cases done
  · split at done
    · cases done
    · obtain ⟨rfl, -⟩ := Prod.mk.inj (Except.ok.inj done)
      exact ⟨rfl, inRange⟩

/-- Constants are read from numbers, which are in range. -/
theorem inRange_of_operands {tokens : List Token} {srcs : List Operand}
    (valid : ∀ token ∈ tokens, token.Valid) (read : scope.operands tokens = .ok srcs) :
    ∀ value, .const value ∈ srcs → Token.minNumber ≤ value ∧ value ≤ Token.maxNumber := by
  intro value member
  obtain ⟨token, isToken, fromToken⟩ := exists_token_of_operands read _ member
  unfold Scope.operand at fromToken
  split at fromToken
  · next index =>
    cases found : scope.lookup ⟨index⟩ with
    | error cause =>
      rw [found] at fromToken
      cases fromToken
    | ok temp =>
      rw [found] at fromToken
      cases fromToken
  · obtain rfl := Operand.const.inj (Except.ok.inj fromToken)
    exact valid _ isToken
  · cases fromToken

/-- **An instruction that is read can be spelled.** -/
theorem spelled_of_instr {line : List Token} (valid : ∀ token ∈ line, token.Valid)
    (read : scope.instr line = .ok (some instr, scope')) : instr.Spelled := by
  unfold Scope.instr at read
  split at read
  · cases read
  · -- A parameter.
    next index typeName =>
    obtain ⟨⟨dest, grown⟩, declared, done⟩ := bind_eq_ok.mp read
    obtain ⟨same, -⟩ := Prod.mk.inj (pure_eq_ok.mp done)
    obtain rfl := Option.some.inj same
    refine ⟨nofun, nofun, ?_⟩
    rintro temp isDest
    obtain rfl := Option.some.inj isDest
    exact isNatural_of_declare (valid (.temp index) (by simp)) declared
  · -- A free marker.
    obtain ⟨temp, found, done⟩ := bind_eq_ok.mp read
    obtain ⟨same, -⟩ := Prod.mk.inj (pure_eq_ok.mp done)
    obtain rfl := Option.some.inj same
    exact ⟨nofun, nofun, nofun⟩
  · -- An operation with a result.
    next index typeName name rest =>
    obtain ⟨srcs, sources, done⟩ := bind_eq_ok.mp read
    obtain ⟨⟨dest, grown⟩, declared, done⟩ := bind_eq_ok.mp done
    obtain ⟨same, -⟩ := Prod.mk.inj (pure_eq_ok.mp done)
    obtain rfl := Option.some.inj same
    refine ⟨?_, ?_, ?_⟩
    · rintro _ _ _ ⟨rfl, rfl, rfl⟩
      exact valid (.ident name) (by simp)
    · rintro _ _ _ ⟨rfl, rfl, rfl⟩
      exact inRange_of_operands (fun token member => valid token (by simp [member])) sources
    · rintro temp isDest
      obtain rfl := Option.some.inj isDest
      exact isNatural_of_declare (valid (.temp index) (by simp)) declared
  · -- An operation without a result.
    next _ name rest =>
    obtain ⟨srcs, sources, done⟩ := bind_eq_ok.mp read
    obtain ⟨same, -⟩ := Prod.mk.inj (pure_eq_ok.mp done)
    obtain rfl := Option.some.inj same
    refine ⟨?_, ?_, nofun⟩
    · rintro _ _ _ ⟨rfl, rfl, rfl⟩
      exact valid (.ident name) (by simp)
    · rintro _ _ _ ⟨rfl, rfl, rfl⟩
      exact inRange_of_operands (fun token member => valid token (by simp [member])) sources
  · cases read

end Scope

namespace Program

variable {instrs : List Instr}

/-- Instructions that are read can be spelled. -/
theorem spelled_of_ofLines (lines : List (List Token)) :
    ∀ {scope : Scope} {number : Nat} {instrs : List Instr},
      (∀ line ∈ lines, ∀ token ∈ line, token.Valid) →
      ofLines scope number lines = .ok instrs → ∀ instr ∈ instrs, instr.Spelled := by
  induction lines with
  | nil =>
    intro scope number instrs _ read
    obtain rfl := Except.ok.inj read
    simp
  | cons line rest ih =>
    intro scope number instrs valid read
    obtain ⟨first, others⟩ := List.forall_mem_cons.mp valid
    rw [ofLines] at read
    cases fromLine : scope.instr line with
    | error cause =>
      rw [fromLine] at read
      cases read
    | ok result =>
      obtain ⟨instr?, scope'⟩ := result
      rw [fromLine] at read
      obtain ⟨more, readMore, whole⟩ := bind_eq_ok.mp read
      obtain rfl := pure_eq_ok.mp whole
      intro instr member
      rcases List.mem_append.mp member with here | later
      · obtain rfl := Option.mem_toList.mp here
        exact Scope.spelled_of_instr first fromLine
      · exact ih others readMore instr later

/-- A program that is read from lines of tokens can be written. -/
theorem wellFormed_of_ofLines {lines : List (List Token)}
    (valid : ∀ line ∈ lines, ∀ token ∈ line, token.Valid)
    (read : ofLines .empty 1 lines = .ok instrs) : WellFormed instrs where
  spelled := spelled_of_ofLines lines valid read
  inScope := by
    rw [← List.nil_append (instrs.map Instr.operation)]
    exact scoped_ofLines lines read scoped_nil Scope.agrees_empty

/-- **A program that is read can be written.** -/
theorem wellFormed_of_ofText {source : String} (read : ofText source = .ok instrs) :
    WellFormed instrs := by
  obtain ⟨-, fromLines⟩ := ofText_eq_ok_iff.mp read
  refine wellFormed_of_ofLines ?_ fromLines
  intro line isLine token member
  exact Token.valid_of_mem_read _ token (mem_of_mem_tokenLines _ line isLine token member)

/-- **Programs are read back as they are written.**  Those that can be written are read back from
their text, and are those that some text is read as; so reading, writing and reading again
changes nothing. -/
theorem roundTrip (instrs : List Instr) :
    (WellFormed instrs → ofText (text instrs) = .ok instrs) ∧
      ∀ source, ofText source = .ok instrs →
        WellFormed instrs ∧ ofText (text instrs) = ofText source := by
  refine ⟨WellFormed.ofText_text, ?_⟩
  intro source read
  have wellFormed := wellFormed_of_ofText read
  exact ⟨wellFormed, wellFormed.ofText_text.trans read.symm⟩

/-- Names that look like temps and numbers, and a constant at the end of its range. -/
def sample : List Instr :=
  [.param ⟨⟨0⟩, 8, .i64⟩,
    .op "t0.x" (some ⟨⟨4294967295⟩, 4, .f32⟩) [.temp ⟨⟨0⟩, 8, .i64⟩, .const (-9223372036854775808)],
    .op "t" none [],
    .free ⟨⟨0⟩, 8, .i64⟩]

theorem roundTrip_sample : WellFormed sample ∧ ofText (text sample) = .ok sample ∧
    text sample = "param t0:i64\nt4294967295:f32 = t0.x t0, -9223372036854775808\nt\nfree t0" := by
  have names : Token.IsName "i64" ∧ Token.IsName "f32" ∧ Token.IsName "t0.x" ∧
      Token.IsName "t" := by
    refine ⟨?_, ?_, ?_, ?_⟩ <;>
      exact Token.isName_of_ofWord rfl rfl (List.all_eq_true.mp rfl) rfl
  have valid : ∀ line ∈ sample.map Instr.tokens, ∀ token ∈ line, token.Valid := by
    simp [sample, Instr.tokens, Temp.tokens, Instr.operandTokens, Operand.token, Token.Valid,
      ValueType.name, names, Token.maxTemp, Token.minNumber, Token.maxNumber]
  -- that the sample is scoped is found out by reading its lines
  have wellFormed : WellFormed sample := wellFormed_of_ofLines valid rfl
  exact ⟨wellFormed, (roundTrip sample).1 wellFormed, by decide⟩

end Program

end LinearScan
