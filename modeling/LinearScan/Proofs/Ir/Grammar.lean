import LinearScan.Proofs.Ir.RoundTrip

/-!
# The language of program text

Which texts are read, and as what, said without the reader.  A line that is not empty is derived
from what it says (`Grammar.Line`), and there temps are bare numbers.  Scoping is about all lines
together, and needs their numbers only (`Statement.InScope`).  What a statement means depends on
other lines through the types of the temps that it mentions (`Statement.elaborate`).

The reader does all three at once: it looks temps up while it takes a line apart, and brings the
result of a line into scope behind its operands.  The two descriptions meet at the tokens of
instructions.  A line that is read consists of the tokens of its instruction
(`Scope.eq_tokens_of_instr`), and the tokens of scoped instructions are read back.  Empty lines
are skipped (`Program.ofLines_filter`), so lines are counted without them here.
-/

namespace LinearScan

open Outcome

/-! ## Statements -/

/-- An operand as a line gives it. -/
inductive Source where
  | temp (id : TempId)
  | number (value : Int)

/-- What a line says, before any temp is looked up. -/
inductive Statement where
  | param (dest : TempId) (type : ValueType)
  | free (temp : TempId)
  | op (name : String) (dest : Option (TempId × ValueType)) (sources : List Source)

/-- The temp that an operand names. -/
def Source.temp? : Source → Option TempId
  | temp id => some id
  | number _ => none

/-- An operand, given the types of the temps. -/
def Source.elaborate (types : TempId → ValueType) : Source → Operand
  | temp id => .temp (.ofType id (types id))
  | number value => .const value

namespace Statement

/-- The temps that a statement uses or frees. -/
def mentions : Statement → List TempId
  | param .. => []
  | free temp => [temp]
  | op _ _ sources => sources.filterMap Source.temp?

/-- The temp that a statement defines, with its type. -/
def defines : Statement → Option (TempId × ValueType)
  | param dest type => some (dest, type)
  | free _ => none
  | op _ dest _ => dest

/-- The instruction that a statement stands for, given the types of the temps. -/
def elaborate (types : TempId → ValueType) : Statement → Instr
  | param dest type => .param (.ofType dest type)
  | free temp => .free (.ofType temp (types temp))
  | op name dest sources =>
    .op name (dest.map fun (id, type) => .ofType id type) (sources.map (Source.elaborate types))

/-- The statement at a position defines a temp. -/
def DefinesAt (statements : List Statement) (position : Nat) (id : TempId) (type : ValueType) :
    Prop :=
  ∃ statement, statements[position]? = some statement ∧ statement.defines = some (id, type)

/-- **The scoping of statements**: what is used or freed was defined by an earlier one, and no two
define the same temp. -/
structure InScope (statements : List Statement) : Prop where
  known : ∀ position statement, statements[position]? = some statement →
    ∀ id ∈ statement.mentions, ∃ earlier < position, ∃ type, DefinesAt statements earlier id type
  once : ∀ position position' id type type', DefinesAt statements position id type →
    DefinesAt statements position' id type' → position = position'

/-- The types of temps are those that they are defined with. -/
def HasTypes (statements : List Statement) (types : TempId → ValueType) : Prop :=
  ∀ position id type, DefinesAt statements position id type → types id = type

end Statement

/-! ## The grammar -/

namespace Grammar

/-- An operand is a temp or a number. -/
inductive IsOperand : Token → Source → Prop
  | temp (index : Nat) : IsOperand (.temp index) (.temp ⟨index⟩)
  | number (value : Int) : IsOperand (.number value) (.number value)

/-- One operand, or several with commas between them. -/
inductive OperandList : List Token → List Source → Prop
  | single {token : Token} {source : Source} :
      IsOperand token source → OperandList [token] [source]
  | cons {token : Token} {source : Source} {tokens : List Token} {sources : List Source} :
      IsOperand token source → OperandList tokens sources →
      OperandList (token :: .comma :: tokens) (source :: sources)

/-- The operands of an operation, of which there may be none. -/
inductive Operands : List Token → List Source → Prop
  | none : Operands [] []
  | some {tokens : List Token} {sources : List Source} :
      OperandList tokens sources → Operands tokens sources

/-- **A line that is not empty.** -/
inductive Line : List Token → Statement → Prop
  | param (index : Nat) (type : ValueType) :
      Line [.param, .temp index, .colon, .ident type.name] (.param ⟨index⟩ type)
  | free (index : Nat) :
      Line [.free, .temp index] (.free ⟨index⟩)
  | result (index : Nat) (type : ValueType) (name : String) {tokens : List Token}
      {sources : List Source} : Operands tokens sources →
      Line (.temp index :: .colon :: .ident type.name :: .assign :: .ident name :: tokens)
        (.op name (Option.some (⟨index⟩, type)) sources)
  | call (name : String) {tokens : List Token} {sources : List Source} :
      Operands tokens sources →
      Line (.ident name :: tokens) (.op name Option.none sources)

end Grammar

/-- **A text of the language**, with what its lines say: no token is invalid, the lines between
newlines are empty or derived from the statements, and these are scoped. -/
structure Program.Derivation (source : String) (statements : List Statement) : Prop where
  valid : Token.invalid ∉ Token.read source.toList
  lines : List.Forall₂ Grammar.Line
    (((Token.read source.toList).splitOn .newline).filter (· ≠ [])) statements
  inScope : Statement.InScope statements

/-! ## Statements and instructions -/

/-- What is left of an operand without its type. -/
def Operand.source : Operand → Source
  | const value => .number value
  | temp source => .temp source.id

/-- What is left of an instruction without the types of what it mentions. -/
def Instr.statement : Instr → Statement
  | param dest => .param dest.id dest.type
  | free temp => .free temp.id
  | op name dest srcs =>
    .op name (dest.map fun temp => (temp.id, temp.type)) (srcs.map Operand.source)

theorem Instr.tokens_ne_nil (instr : Instr) : instr.tokens ≠ [] := by
  cases instr with
  | param dest => exact nofun
  | free temp => exact nofun
  | op name dest srcs => cases dest <;> exact nofun

theorem Instr.defines_statement (instr : Instr) :
    instr.statement.defines = instr.operation.defined.map fun temp => (temp.id, temp.type) := by
  cases instr <;> rfl

theorem Instr.mentions_statement (instr : Instr) :
    instr.statement.mentions
      = (instr.operation.used ++ instr.operation.freed.toList).map (·.id) := by
  cases instr with
  | param dest => rfl
  | free temp => rfl
  | op name dest srcs =>
    have sameTemp : ∀ operand : Operand,
        operand.source.temp? = operand.temp?.map (·.id) := by
      intro operand
      cases operand <;> rfl
    simp [Instr.statement, Statement.mentions, Instr.operation, List.filterMap_map,
      List.map_filterMap, sameTemp]

namespace Statement

variable {statements : List Statement} {types : TempId → ValueType}

theorem defined_elaborate (types : TempId → ValueType) (statement : Statement) :
    (statement.elaborate types).operation.defined
      = statement.defines.map fun (id, type) => .ofType id type := by
  cases statement <;> rfl

theorem mentioned_elaborate (types : TempId → ValueType) (statement : Statement) :
    (statement.elaborate types).operation.used ++ (statement.elaborate types).operation.freed.toList
      = statement.mentions.map fun id => .ofType id (types id) := by
  cases statement with
  | param dest type => rfl
  | free temp => rfl
  | op name dest sources =>
    have sameTemp : ∀ source : Source, (source.elaborate types).temp?
        = source.temp?.map fun id => .ofType id (types id) := by
      intro source
      cases source <;> rfl
    simp [elaborate, mentions, Instr.operation, List.filterMap_map, List.map_filterMap,
      sameTemp]

/-- One position defines one temp. -/
theorem DefinesAt.unique {position : Nat} {id id' : TempId} {type type' : ValueType}
    (defines : DefinesAt statements position id type)
    (defines' : DefinesAt statements position id' type') : id = id' ∧ type = type' := by
  obtain ⟨statement, found, isDefined⟩ := defines
  obtain ⟨statement', found', isDefined'⟩ := defines'
  obtain rfl := Option.some.inj (found.symm.trans found')
  exact Prod.mk.inj (Option.some.inj (isDefined.symm.trans isDefined'))

/-- Temps that are defined once have types. -/
theorem InScope.exists_hasTypes (inScope : InScope statements) :
    ∃ types, HasTypes statements types := by
  have : Nonempty ValueType := ⟨.i8⟩
  refine ⟨fun id => Classical.epsilon fun type => ∃ position, DefinesAt statements position id type,
    ?_⟩
  intro position id type defines
  obtain ⟨position', defines'⟩ := Classical.epsilon_spec
    (p := fun type => ∃ position, DefinesAt statements position id type) ⟨type, position, defines⟩
  obtain rfl := inScope.once position position' _ _ _ defines defines'
  exact (defines'.unique defines).2

/-- What statements define, instructions define without it. -/
theorem definesAt_map_statement {instrs : List Instr} {position : Nat} {id : TempId}
    {type : ValueType} :
    DefinesAt (instrs.map Instr.statement) position id type ↔
      ∃ temp, DefinedAt (instrs.map Instr.operation) position temp ∧
        temp.id = id ∧ temp.type = type := by
  unfold DefinesAt DefinedAt
  rw [List.getElem?_map, List.getElem?_map]
  cases instrs[position]? with
  | none => simp
  | some instr => simp [Instr.defines_statement]

/-- Scoped instructions are scoped without the types of what they mention. -/
theorem inScope_of_scoped {instrs : List Instr} (inScope : Scoped (instrs.map Instr.operation)) :
    InScope (instrs.map Instr.statement) where
  known := by
    intro position statement found id mentioned
    rw [List.getElem?_map] at found
    obtain ⟨instr, atPosition, rfl⟩ := Option.map_eq_some_iff.mp found
    rw [Instr.mentions_statement] at mentioned
    obtain ⟨temp, isMentioned, rfl⟩ := List.mem_map.mp mentioned
    obtain ⟨earlier, before, defined⟩ := inScope.known position instr.operation
      (by rw [List.getElem?_map, atPosition]; rfl) temp isMentioned
    exact ⟨earlier, before, temp.type, definesAt_map_statement.mpr ⟨temp, defined, rfl, rfl⟩⟩
  once := by
    intro position position' id type type' defines defines'
    obtain ⟨temp, defined, rfl, -⟩ := definesAt_map_statement.mp defines
    obtain ⟨temp', defined', sameId, -⟩ := definesAt_map_statement.mp defines'
    exact inScope.once position position' temp temp' defined defined' sameId.symm

/-- What statements define, their instructions define. -/
theorem definedAt_elaborate {position : Nat} {temp : Temp} :
    DefinedAt ((statements.map (elaborate types)).map Instr.operation) position temp ↔
      ∃ id type, DefinesAt statements position id type ∧ Temp.ofType id type = temp := by
  unfold DefinesAt DefinedAt
  rw [List.getElem?_map, List.getElem?_map]
  cases statements[position]? with
  | none => simp
  | some statement => simp [defined_elaborate]

/-- Scoped statements stand for scoped instructions, if temps have the types that they are defined
with. -/
theorem InScope.scoped_elaborate (inScope : InScope statements)
    (hasTypes : HasTypes statements types) :
    Scoped ((statements.map (elaborate types)).map Instr.operation) where
  known := by
    intro position operation found temp mentioned
    rw [List.map_map, List.getElem?_map] at found
    obtain ⟨statement, atPosition, rfl⟩ := Option.map_eq_some_iff.mp found
    rw [Function.comp_apply, mentioned_elaborate] at mentioned
    obtain ⟨id, isMentioned, rfl⟩ := List.mem_map.mp mentioned
    obtain ⟨earlier, before, type, defines⟩ :=
      inScope.known position statement atPosition id isMentioned
    obtain rfl := hasTypes earlier id type defines
    exact ⟨earlier, before, definedAt_elaborate.mpr ⟨id, _, defines, rfl⟩⟩
  once := by
    intro position position' temp temp' defined defined' sameId
    obtain ⟨id, type, defines, rfl⟩ := definedAt_elaborate.mp defined
    obtain ⟨id', type', defines', rfl⟩ := definedAt_elaborate.mp defined'
    obtain rfl : id = id' := sameId
    exact inScope.once position position' id type type' defines defines'
  sized := by
    intro position temp defined
    obtain ⟨id, type, -, rfl⟩ := definedAt_elaborate.mp defined
    exact Scope.size_pos type

end Statement

/-! ## Derivations and tokens -/

namespace Grammar

variable {line tokens : List Token} {statement : Statement} {sources : List Source}

/-- Operands are derived from their tokens. -/
theorem operands_operandTokens (srcs : List Operand) :
    Operands (Instr.operandTokens srcs) (srcs.map Operand.source) := by
  have one : ∀ operand : Operand, IsOperand operand.token operand.source := by
    intro operand
    cases operand with
    | const value => exact .number value
    | temp source => exact .temp source.id.index
  have several : ∀ (rest : List Operand) (operand : Operand),
      OperandList (Instr.operandTokens (operand :: rest))
        ((operand :: rest).map Operand.source) := by
    intro rest
    induction rest with
    | nil => exact fun operand => .single (one operand)
    | cons next rest ih =>
      intro operand
      rw [Instr.operandTokens_cons_cons]
      exact .cons (one operand) (ih next)
  cases srcs with
  | nil => exact .none
  | cons operand rest => exact .some (several rest operand)

/-- The tokens of an instruction are a line. -/
theorem line_tokens (instr : Instr) : Line instr.tokens instr.statement := by
  cases instr with
  | param dest => exact .param dest.id.index dest.type
  | free temp => exact .free temp.id.index
  | op name dest srcs =>
    cases dest with
    | none => exact .call name (operands_operandTokens srcs)
    | some dest => exact .result dest.id.index dest.type name (operands_operandTokens srcs)

theorem IsOperand.token_elaborate {token : Token} {source : Source}
    (derives : IsOperand token source) (types : TempId → ValueType) :
    (source.elaborate types).token = token := by
  cases derives <;> rfl

theorem OperandList.operandTokens_elaborate (derives : OperandList tokens sources)
    (types : TempId → ValueType) :
    Instr.operandTokens (sources.map (Source.elaborate types)) = tokens := by
  induction derives with
  | single operand => exact congrArg (fun token => [token]) (operand.token_elaborate types)
  | @cons token source tokens sources operand others ih =>
    -- behind a comma there is always another operand
    obtain ⟨next, rest, rfl⟩ : ∃ next rest, sources = next :: rest := by
      cases others with
      | single => exact ⟨_, _, rfl⟩
      | cons => exact ⟨_, _, rfl⟩
    rw [List.map_cons, List.map_cons, Instr.operandTokens_cons_cons, ← List.map_cons, ih,
      operand.token_elaborate]

theorem Operands.operandTokens_elaborate (derives : Operands tokens sources)
    (types : TempId → ValueType) :
    Instr.operandTokens (sources.map (Source.elaborate types)) = tokens := by
  cases derives with
  | none => rfl
  | some several => exact several.operandTokens_elaborate types

/-- A line consists of the tokens of the instruction that its statement stands for. -/
theorem Line.tokens_elaborate (derives : Line line statement) (types : TempId → ValueType) :
    (statement.elaborate types).tokens = line := by
  cases derives with
  | param index type => rfl
  | free index => rfl
  | result index type name operands =>
    exact congrArg (fun tokens => Token.temp index :: .colon :: .ident type.name :: .assign ::
      .ident name :: tokens) (operands.operandTokens_elaborate types)
  | call name operands =>
    exact congrArg (Token.ident name :: ·) (operands.operandTokens_elaborate types)

theorem map_tokens_elaborate {lines : List (List Token)} {statements : List Statement}
    (derives : List.Forall₂ Line lines statements) (types : TempId → ValueType) :
    (statements.map (Statement.elaborate types)).map Instr.tokens = lines := by
  induction derives with
  | nil => rfl
  | cons line others ih => rw [List.map_cons, List.map_cons, line.tokens_elaborate, ih]

end Grammar

/-! ## What is read consists of tokens -/

namespace ValueType

/-- A type that is found has the name. -/
theorem name_of_ofName? {name : String} {type : ValueType} (found : ofName? name = some type) :
    type.name = name := by
  have same := List.find?_some found
  exact beq_iff_eq.mp same

end ValueType

namespace Scope

variable {scope scope' : Scope} {id : TempId} {temp : Temp} {tokens line : List Token}

theorem id_of_lookup (found : scope.lookup id = .ok temp) : temp.id = id := by
  unfold lookup at found
  split at found
  · next defined =>
    obtain rfl := Except.ok.inj found
    exact (mem_of_get? defined).2
  · cases found

/-- What is declared has the tokens of its definition. -/
theorem tokens_of_declare {typeName : String}
    (done : scope.declare id typeName = .ok (temp, scope')) :
    temp.tokens = [.temp id.index, .colon, .ident typeName] := by
  unfold declare at done
  split at done
  · cases done
  · next type found =>
    split at done
    · cases done
    · obtain ⟨rfl, -⟩ := Prod.mk.inj (Except.ok.inj done)
      rw [← ValueType.name_of_ofName? found]
      rfl

theorem token_of_operand {token : Token} {operand : Operand}
    (read : scope.operand token = .ok operand) : operand.token = token := by
  unfold Scope.operand at read
  split at read
  · next index =>
    cases found : scope.lookup ⟨index⟩ with
    | error cause =>
      rw [found] at read
      cases read
    | ok source =>
      rw [found] at read
      obtain rfl := Except.ok.inj read
      exact congrArg (fun id : TempId => Token.temp id.index) (id_of_lookup found)
  · obtain rfl := Except.ok.inj read
    rfl
  · cases read

/-- Operands are read from their tokens alone. -/
theorem operandTokens_of_operands : ∀ {tokens : List Token} {srcs : List Operand},
    scope.operands tokens = .ok srcs → Instr.operandTokens srcs = tokens := by
  intro tokens
  induction tokens using Scope.operands.induct with
  | case1 =>
    intro srcs read
    obtain rfl := Except.ok.inj read
    rfl
  | case2 token =>
    intro srcs read
    obtain ⟨operand, first, done⟩ := bind_eq_ok.mp read
    obtain rfl := pure_eq_ok.mp done
    exact congrArg (fun token => [token]) (token_of_operand first)
  | case3 token separator =>
    intro srcs read
    obtain ⟨operand, first, done⟩ := bind_eq_ok.mp read
    split at done <;> cases done
  | case4 token separator next rest ih =>
    intro srcs read
    obtain ⟨operand, first, done⟩ := bind_eq_ok.mp read
    split at done
    · next isComma =>
      obtain ⟨others, readOthers, done⟩ := bind_eq_ok.mp done
      obtain rfl := pure_eq_ok.mp done
      have behind := ih readOthers
      cases others with
      | nil => cases behind
      | cons another more =>
        rw [Instr.operandTokens_cons_cons, behind, token_of_operand first, isComma]
    · cases done

/-- **A line that is read** consists of the tokens of its instruction, or is empty. -/
theorem eq_tokens_of_instr {instr? : Option Instr}
    (read : scope.instr line = .ok (instr?, scope')) : line = instr?.elim [] Instr.tokens := by
  unfold Scope.instr at read
  split at read
  · obtain ⟨rfl, -⟩ := Prod.mk.inj (Except.ok.inj read)
    rfl
  · -- A parameter.
    obtain ⟨⟨dest, grown⟩, declared, done⟩ := bind_eq_ok.mp read
    obtain ⟨rfl, -⟩ := Prod.mk.inj (pure_eq_ok.mp done)
    exact congrArg (Token.param :: ·) (tokens_of_declare declared).symm
  · -- A free marker.
    obtain ⟨temp, found, done⟩ := bind_eq_ok.mp read
    obtain ⟨rfl, -⟩ := Prod.mk.inj (pure_eq_ok.mp done)
    exact congrArg (fun id : TempId => [Token.free, .temp id.index]) (id_of_lookup found).symm
  · -- An operation with a result.
    next index typeName name rest =>
    obtain ⟨srcs, sources, done⟩ := bind_eq_ok.mp read
    obtain ⟨⟨dest, grown⟩, declared, done⟩ := bind_eq_ok.mp done
    obtain ⟨rfl, -⟩ := Prod.mk.inj (pure_eq_ok.mp done)
    show _ = dest.tokens ++ .assign :: .ident name :: Instr.operandTokens srcs
    rw [tokens_of_declare declared, operandTokens_of_operands sources]
    rfl
  · -- An operation without a result.
    obtain ⟨srcs, sources, done⟩ := bind_eq_ok.mp read
    obtain ⟨rfl, -⟩ := Prod.mk.inj (pure_eq_ok.mp done)
    exact congrArg (Token.ident _ :: ·) (operandTokens_of_operands sources).symm
  · cases read

end Scope

/-! ## Texts of the language -/

namespace Program

/-- The tokens of each line are those between newlines. -/
theorem tokenLines_eq_splitOn (tokens : List Token) :
    tokenLines tokens = tokens.splitOn .newline := by
  unfold List.splitOn
  fun_induction tokenLines tokens with
  | case1 => rfl
  | case2 rest ih =>
    rw [List.splitOnP_cons_eq_if_modifyHead, ih]
    rfl
  | case3 token rest isToken nothing ih =>
    rw [nothing] at ih
    exact absurd ih.symm (List.splitOnP_ne_nil _ rest)
  | case4 token rest isToken line lines split ih =>
    rw [List.splitOnP_cons_eq_if_modifyHead, if_neg (by simpa using isToken), ← ih, split]
    rfl

theorem ofLines_nil_cons (scope : Scope) (number : Nat) (lines : List (List Token)) :
    ofLines scope number ([] :: lines) = ofLines scope (number + 1) lines := by
  rw [ofLines]
  exact bind_pure _

/-- **Empty lines are skipped.**  What is read does not depend on the numbers of lines either, an
error apart. -/
theorem ofLines_filter (lines : List (List Token)) :
    ∀ (scope : Scope) (number number' : Nat) {instrs : List Instr},
      ofLines scope number lines = .ok instrs ↔
        ofLines scope number' (lines.filter (· ≠ [])) = .ok instrs := by
  induction lines with
  | nil => exact fun _ _ _ _ => Iff.rfl
  | cons line rest ih =>
    intro scope number number' instrs
    by_cases isEmpty : line = []
    · rw [List.filter_cons_of_neg (by simpa using isEmpty), isEmpty, ofLines_nil_cons]
      exact ih scope (number + 1) number'
    · rw [List.filter_cons_of_pos (by simpa using isEmpty), ofLines, ofLines]
      cases scope.instr line with
      | error cause => simp
      | ok result =>
        simp only [bind_eq_ok]
        exact exists_congr fun more => and_congr_left' (ih _ _ _)

/-- **Lines that are read** are the tokens of the instructions, one line each, and empty lines. -/
theorem filter_eq_map_tokens (lines : List (List Token)) :
    ∀ {scope : Scope} {number : Nat} {instrs : List Instr},
      ofLines scope number lines = .ok instrs →
        lines.filter (· ≠ []) = instrs.map Instr.tokens := by
  induction lines with
  | nil =>
    intro scope number instrs read
    obtain rfl := Except.ok.inj read
    rfl
  | cons line rest ih =>
    intro scope number instrs read
    rw [ofLines] at read
    cases fromLine : scope.instr line with
    | error cause =>
      rw [fromLine] at read
      cases read
    | ok result =>
      obtain ⟨instr?, scope'⟩ := result
      rw [fromLine] at read
      obtain ⟨more, readMore, whole⟩ := bind_eq_ok.mp read
      obtain rfl := pure_eq_ok.mp whole
      have isLine := Scope.eq_tokens_of_instr fromLine
      cases instr? with
      | none =>
        rw [isLine]
        exact ih readMore
      | some instr =>
        have isSome : line ≠ [] := by
          rw [isLine]
          exact instr.tokens_ne_nil
        rw [List.filter_cons_of_pos (by simpa using isSome), ih readMore, isLine]
        rfl

/-- **Derivations are read**: each statement becomes the instruction that it stands for. -/
theorem Derivation.ofText_eq {source : String} {statements : List Statement}
    (derivation : Derivation source statements) {types : TempId → ValueType}
    (hasTypes : Statement.HasTypes statements types) :
    ofText source = .ok (statements.map (Statement.elaborate types)) := by
  have tokens := Grammar.map_tokens_elaborate derivation.lines types
  refine ofText_eq_ok_iff.mpr ⟨fun token member isInvalid => ?_, ?_⟩
  · exact derivation.valid (isInvalid ▸ member)
  · rw [tokenLines_eq_splitOn, ofLines_filter _ _ 1 1, ← tokens]
    refine ofLines_tokens (derivation.inScope.scoped_elaborate hasTypes) ?_ _ (List.nil_append _)
      Scope.agrees_empty
    intro instr member temp isDefined
    obtain ⟨statement, -, rfl⟩ := List.mem_map.mp member
    rw [Statement.defined_elaborate] at isDefined
    obtain ⟨definition, -, rfl⟩ := Option.map_eq_some_iff.mp isDefined
    rfl

/-- **What is read is derived** from its own statements. -/
theorem derivation_of_ofText {source : String} {instrs : List Instr}
    (read : ofText source = .ok instrs) : Derivation source (instrs.map Instr.statement) := by
  obtain ⟨valid, fromLines⟩ := ofText_eq_ok_iff.mp read
  refine ⟨fun member => valid _ member rfl, ?_, Statement.inScope_of_scoped (scoped_of_ofText read)⟩
  rw [← tokenLines_eq_splitOn, filter_eq_map_tokens _ fromLines, List.forall₂_map_left_iff,
    List.forall₂_map_right_iff, List.forall₂_same]
  exact fun instr _ => Grammar.line_tokens instr

/-- **The language of program text.**  A text is read exactly if it is derived from some statements.
What is read is one instruction for each line that is not empty, in their order: the one that the
statement of the line stands for, every temp with the type of the line that defines it. -/
theorem ofText_exactly_derivations (source : String) :
    ((∃ instrs, ofText source = .ok instrs) ↔ ∃ statements, Derivation source statements) ∧
      ∀ instrs, ofText source = .ok instrs ↔
        ∃ statements types, Derivation source statements ∧ Statement.HasTypes statements types ∧
          statements.map (Statement.elaborate types) = instrs := by
  refine ⟨⟨?_, ?_⟩, fun instrs => ⟨?_, ?_⟩⟩
  · rintro ⟨instrs, read⟩
    exact ⟨_, derivation_of_ofText read⟩
  · rintro ⟨statements, derivation⟩
    obtain ⟨types, hasTypes⟩ := derivation.inScope.exists_hasTypes
    exact ⟨_, derivation.ofText_eq hasTypes⟩
  · intro read
    have derivation := derivation_of_ofText read
    obtain ⟨types, hasTypes⟩ := derivation.inScope.exists_hasTypes
    exact ⟨_, types, derivation, hasTypes,
      Except.ok.inj ((derivation.ofText_eq hasTypes).symm.trans read)⟩
  · rintro ⟨statements, types, derivation, hasTypes, rfl⟩
    exact derivation.ofText_eq hasTypes

/-- A text with a comment, an empty line, blanks, and a name that starts like a temp. -/
def scribble : String :=
  "; setup\nparam t0:i64\n\nt7:f32 = t.x t0,-4 , t0 ; use\n\tt\nfree t0\n"

/-- What the lines of `scribble` say. -/
def scribbled : List Statement :=
  [.param ⟨0⟩ .i64, .op "t.x" (some (⟨7⟩, .f32)) [.temp ⟨0⟩, .number (-4), .temp ⟨0⟩],
    .op "t" none [], .free ⟨0⟩]

theorem ofText_exactly_derivations_scribble :
    Derivation scribble scribbled ∧
      ofText scribble = .ok [.param ⟨⟨0⟩, 8, .i64⟩,
        .op "t.x" (some ⟨⟨7⟩, 4, .f32⟩) [.temp ⟨⟨0⟩, 8, .i64⟩, .const (-4), .temp ⟨⟨0⟩, 8, .i64⟩],
        .op "t" none [], .free ⟨⟨0⟩, 8, .i64⟩] := by
  have tokens : Token.read scribble.toList = [.newline, .param, .temp 0, .colon, .ident "i64",
      .newline, .newline, .temp 7, .colon, .ident "f32", .assign, .ident "t.x", .temp 0, .comma,
      .number (-4), .comma, .temp 0, .newline, .ident "t", .newline, .free, .temp 0, .newline] := by
    decide +kernel
  have definition : ∀ position id type, Statement.DefinesAt scribbled position id type →
      position = (if id = ⟨0⟩ then 0 else 1) ∧ type = if id = ⟨0⟩ then .i64 else .f32 := by
    rintro (_ | _ | _ | _ | position) id type ⟨statement, found, isDefined⟩ <;> cases found <;>
      cases isDefined <;> exact ⟨rfl, rfl⟩
  have derivation : Derivation scribble scribbled := by
    refine ⟨?_, ?_, ?_, ?_⟩
    · rw [tokens]
      decide
    · rw [tokens]
      exact .cons (.param 0 .i64) (.cons (.result 7 .f32 "t.x" (.some
        (.cons (.temp 0) (.cons (.number (-4)) (.single (.temp 0))))))
        (.cons (.call "t" .none) (.cons (.free 0) .nil)))
    · have first : Statement.DefinesAt scribbled 0 ⟨0⟩ .i64 := ⟨_, rfl, rfl⟩
      rintro (_ | _ | _ | _ | position) statement found id mentioned <;> cases found
      · cases mentioned
      · obtain rfl := or_self_iff.mp (List.mem_pair.mp mentioned)
        exact ⟨0, Nat.zero_lt_one, .i64, first⟩
      · cases mentioned
      · obtain rfl := List.mem_singleton.mp mentioned
        exact ⟨0, by decide, .i64, first⟩
    · intro position position' id type type' defines defines'
      exact (definition _ _ _ defines).1.trans (definition _ _ _ defines').1.symm
  refine ⟨derivation, ((ofText_exactly_derivations scribble).2 _).mpr
    ⟨scribbled, fun id => if id = ⟨0⟩ then .i64 else .f32, derivation, ?_, rfl⟩⟩
  exact fun position id type defines => (definition position id type defines).2.symm

end Program

end LinearScan
