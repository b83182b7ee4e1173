import LinearScan.Proofs.Ir.Lines

/-!
# Errors are where they are said to be

A text that is not read has an error with the number of a line.  Lines are counted in two ways: an
invalid lexeme is on the line that newlines before it lead to, and a line that is not read has its
number from the list of all lines.  Both are the line of the text in which the fault is.

* An invalid lexeme is reported before any line is read, so the first one decides, whatever the
  lines above it are like (`Program.exists_firstInvalid`).
* Without one, the lines above the reported one are read, and that line makes the difference:
  the text up to it fails alike, whatever comes behind it (`Program.exists_take_of_ofLines`).
-/

namespace LinearScan

open Outcome

namespace Program

variable {source : String} {error : ParseError}

/-! ## Invalid lexemes -/

/-- **The first invalid lexeme of a text**, with the characters in front of it. -/
structure FirstInvalid (source : String) (front : List Char) (lexeme : Lexeme) : Prop where
  invalid : lexeme.token = .invalid
  /-- The lexemes before it are valid. -/
  first : ∃ before after, Lexeme.ofText source = before ++ lexeme :: after ∧
    ∀ other ∈ before, other.token ≠ .invalid
  /-- It stands behind the given characters. -/
  place : ∃ back, source.toList = front ++ lexeme.text ++ back ∧ lexeme.start = utf8Length front

/-- What is reported is the first invalid lexeme, on the line that the newlines before it lead
to. -/
theorem exists_of_firstInvalid? (lexemes : List Lexeme) :
    ∀ {line : Nat}, firstInvalid? line lexemes = some error →
      ∃ before lexeme after, lexemes = before ++ lexeme :: after ∧ lexeme.token = .invalid ∧
        (∀ other ∈ before, other.token ≠ .invalid) ∧
        error = ⟨line + (before.map (·.token)).count .newline,
          .unexpectedInput (String.ofList lexeme.text)⟩ := by
  induction lexemes with
  | nil =>
    intro line found
    cases found
  | cons lexeme rest ih =>
    intro line found
    unfold firstInvalid? at found
    split at found
    · next invalid =>
      obtain rfl := Option.some.inj found
      exact ⟨[], lexeme, rest, rfl, invalid, by simp, rfl⟩
    · next newline =>
      obtain ⟨before, first, after, rfl, invalid, valid, rfl⟩ := ih found
      refine ⟨lexeme :: before, first, after, rfl, invalid, ?_, ?_⟩
      · exact List.forall_mem_cons.mpr ⟨by simp [newline], valid⟩
      · rw [List.map_cons, newline, List.count_cons_self, Nat.add_right_comm, Nat.add_assoc]
    · next _ notInvalid notNewline =>
      obtain ⟨before, first, after, rfl, invalid, valid, rfl⟩ := ih found
      refine ⟨lexeme :: before, first, after, rfl, invalid, ?_, ?_⟩
      · exact List.forall_mem_cons.mpr ⟨notInvalid, valid⟩
      · rw [List.map_cons, List.count_cons_of_ne notNewline]

/-- **An invalid lexeme** is reported by its text, and by the newlines in front of it. -/
theorem exists_firstInvalid (found : firstInvalid? 1 (Lexeme.ofText source) = some error) :
    ∃ front lexeme, FirstInvalid source front lexeme ∧
      error = ⟨1 + front.count '\n', .unexpectedInput (String.ofList lexeme.text)⟩ := by
  obtain ⟨before, lexeme, after, cut, invalid, valid, rfl⟩ := exists_of_firstInvalid? _ found
  obtain ⟨front, back, whole, start, counted⟩ := Lexeme.exists_front_of_scan _ cut
  rw [Nat.zero_add] at start
  exact ⟨front, lexeme, ⟨invalid, ⟨before, after, cut, valid⟩, back, whole, start⟩,
    by rw [counted]⟩

/-! ## Lines that are not read -/

/-- A line that is read goes before what the lines behind it are read as. -/
theorem ofLines_cons_of_ok {scope scope' : Scope} {line : List Token} {instr? : Option Instr}
    (read : scope.instr line = .ok (instr?, scope')) (number : Nat) (rest : List (List Token)) :
    ofLines scope number (line :: rest) =
      (ofLines scope' (number + 1) rest).map (instr?.toList ++ ·) := by
  rw [ofLines, read]
  show (ofLines scope' (number + 1) rest >>= fun instrs => pure (instr?.toList ++ instrs)) = _
  cases ofLines scope' (number + 1) rest <;> rfl

/-- **The line that is not read.**  The lines before it are read, and with it there is the same
error, whatever comes behind. -/
theorem exists_take_of_ofLines (lines : List (List Token)) :
    ∀ {scope : Scope} {number : Nat}, ofLines scope number lines = .error error →
      ∃ index < lines.length, error.line = number + index ∧
        (∃ instrs, ofLines scope number (lines.take index) = .ok instrs) ∧
        ofLines scope number (lines.take (index + 1)) = .error error := by
  induction lines with
  | nil =>
    intro scope number failed
    cases failed
  | cons line rest ih =>
    intro scope number failed
    cases fromLine : scope.instr line with
    | error cause =>
      rw [ofLines, fromLine] at failed
      obtain rfl := Except.error.inj failed
      refine ⟨0, Nat.zero_lt_succ _, rfl, ⟨[], rfl⟩, ?_⟩
      rw [List.take_succ_cons, ofLines, fromLine]
    | ok result =>
      obtain ⟨instr?, scope'⟩ := result
      rw [ofLines_cons_of_ok fromLine] at failed
      cases others : ofLines scope' (number + 1) rest with
      | ok instrs =>
        rw [others] at failed
        cases failed
      | error other =>
        rw [others] at failed
        obtain rfl := Except.error.inj failed
        obtain ⟨index, inside, line, ⟨instrs, read⟩, fails⟩ := ih others
        refine ⟨index + 1, Nat.succ_lt_succ inside, ?_, ⟨instr?.toList ++ instrs, ?_⟩, ?_⟩
        · rw [line, Nat.add_right_comm, Nat.add_assoc]
        · rw [List.take_succ_cons, ofLines_cons_of_ok fromLine, read]
          rfl
        · rw [List.take_succ_cons, ofLines_cons_of_ok fromLine, fails]
          rfl

/-- Empty lines at the end change nothing. -/
theorem ofLines_append_replicate (lines : List (List Token)) (count : Nat) :
    ∀ (scope : Scope) (number : Nat),
      ofLines scope number (lines ++ List.replicate count []) = ofLines scope number lines := by
  induction lines with
  | nil =>
    induction count with
    | zero => exact fun _ _ => rfl
    | succ count ih =>
      intro scope number
      rw [List.replicate_succ, List.nil_append, ofLines_cons_of_ok rfl,
        ← List.nil_append (.replicate ..), ih]
      rfl
  | cons line rest ih =>
    intro scope number
    rw [List.cons_append, ofLines, ofLines]
    cases scope.instr line with
    | error cause => rfl
    | ok result => simp only [ih]

/-- What is read of lines that are put together, none of them with an invalid lexeme. -/
theorem ofText_joined {lines : List (List Char)} (some : lines ≠ [])
    (oneLine : ∀ line ∈ lines, '\n' ∉ line)
    (valid : ∀ line ∈ lines, Token.invalid ∉ Token.read line) :
    ofText (joined lines) = ofLines .empty 1 (lines.map Token.read) := by
  have allValid : firstInvalid? 1 (Lexeme.ofText (joined lines)) = none := by
    rw [firstInvalid?_eq_none_iff]
    rintro _ member rfl
    change Token.invalid ∈ Token.read (joined lines).toList at member
    rw [joined, String.toList_ofList, Token.read_intercalate] at member
    revert member
    refine Delimited.notMem_intercalate (by decide) ?_
    intro tokens member
    obtain ⟨line, isLine, rfl⟩ := List.mem_map.mp member
    exact valid line isLine
  rw [ofText, allValid, ← tokenLines_read some oneLine]
  rfl

/-- A newline behind lines that are put together is the beginning of another one. -/
theorem joined_append_newline {lines : List (List Char)} (some : lines ≠ []) :
    joined lines ++ "\n" = joined (lines ++ [[]]) := by
  have ended : ['\n'].intercalate (lines ++ [[]]) = ['\n'].intercalate lines ++ ['\n'] := by
    induction lines with
    | nil => exact absurd rfl some
    | cons line lines ih =>
      cases lines with
      | nil => simp
      | cons next lines =>
        rw [List.cons_append, List.cons_append, List.intercalate_cons_cons, ← List.cons_append,
          ih (List.cons_ne_nil _ _), List.intercalate_cons_cons, List.append_assoc _ _ ['\n']]
  rw [joined, joined, ended, String.ofList_append]

/-- Lines that are put together are the beginning of a text, with or without a newline behind
them. -/
theorem ofText_joined_append {lines : List (List Char)} (oneLine : ∀ line ∈ lines, '\n' ∉ line)
    (valid : ∀ line ∈ lines, Token.invalid ∉ Token.read line) {ending : String}
    (ends : ending = "" ∨ ending = "\n") :
    ofText (joined lines ++ ending) = ofLines .empty 1 (lines.map Token.read) := by
  obtain ⟨count, some, same⟩ : ∃ count, lines ++ List.replicate count [] ≠ [] ∧
      joined lines ++ ending = joined (lines ++ List.replicate count []) := by
    rcases eq_or_ne lines [] with rfl | some
    · rcases ends with rfl | rfl
      · exact ⟨1, List.cons_ne_nil _ _, rfl⟩
      · exact ⟨2, List.cons_ne_nil _ _, rfl⟩
    · rcases ends with rfl | rfl
      · exact ⟨0, by simpa using some, by simp⟩
      · exact ⟨1, by simp, joined_append_newline some⟩
  have inLines : ∀ line ∈ lines ++ List.replicate count [], line ∈ lines ∨ line = [] := by
    intro line member
    exact (List.mem_append.mp member).imp_right List.eq_of_mem_replicate
  rw [same, ofText_joined some, List.map_append, List.map_replicate, Token.read_nil,
    ofLines_append_replicate]
  · intro line member
    rcases inLines line member with old | rfl
    · exact oneLine line old
    · exact List.not_mem_nil
  · intro line member
    rcases inLines line member with old | rfl
    · exact valid line old
    · rw [Token.read_nil]
      exact List.not_mem_nil

/-! ## The reported line -/

/-- The lines of a text, without the newlines. -/
def lines (source : String) : List (List Char) :=
  source.toList.splitOn '\n'

theorem lines_ne_nil (source : String) : lines source ≠ [] :=
  List.splitOn_ne_nil _ _

/-- A text consists of its lines. -/
theorem joined_lines (source : String) : joined (lines source) = source := by
  rw [joined, lines, List.intercalate_splitOn, String.ofList_toList]

/-- A line holds no newline. -/
theorem newline_notMem_of_mem_lines {line : List Char} (isLine : line ∈ lines source) :
    '\n' ∉ line := by
  rw [lines] at isLine
  generalize source.toList = cs at isLine
  induction cs generalizing line with
  | nil =>
    rw [List.splitOn_nil, List.mem_singleton] at isLine
    rw [isLine]
    exact List.not_mem_nil
  | cons c cs ih =>
    rw [List.splitOn_cons_eq_if_modifyHead] at isLine
    split at isLine
    · rcases List.mem_cons.mp isLine with rfl | later
      · exact List.not_mem_nil
      · exact ih later
    · next other =>
      obtain ⟨first, others, split⟩ := List.exists_cons_of_ne_nil (List.splitOn_ne_nil '\n' cs)
      rw [split, List.modifyHead_cons] at isLine
      rw [split] at ih
      rcases List.mem_cons.mp isLine with rfl | later
      · refine List.not_mem_cons_of_ne_of_not_mem ?_ (ih List.mem_cons_self)
        simpa using Ne.symm (ne_of_beq_false (Bool.eq_false_iff.mpr other))
      · exact ih (List.mem_cons_of_mem _ later)

/-- What is read of the first lines of a text without invalid lexemes, with or without a newline
behind them. -/
theorem ofText_take_lines (valid : ∀ lexeme ∈ Lexeme.ofText source, lexeme.token ≠ .invalid)
    (count : Nat) {ending : String} (ends : ending = "" ∨ ending = "\n") :
    ofText (joined ((lines source).take count) ++ ending)
      = ofLines .empty 1 (((lines source).map Token.read).take count) := by
  have oneLine : ∀ line ∈ lines source, '\n' ∉ line := fun _ => newline_notMem_of_mem_lines
  have validLine : ∀ line ∈ lines source, Token.invalid ∉ Token.read line := by
    intro line isLine member
    have split := tokenLines_read (lines_ne_nil source) oneLine
    rw [joined_lines] at split
    have inText := mem_of_mem_tokenLines (Token.read source.toList) (Token.read line)
      (split ▸ List.mem_map_of_mem isLine) _ member
    obtain ⟨lexeme, isLexeme, isInvalid⟩ := List.mem_map.mp inText
    exact valid lexeme isLexeme isInvalid
  rw [ofText_joined_append _ _ ends, List.map_take]
  · exact fun line member => oneLine line (List.mem_of_mem_take member)
  · exact fun line member => validLine line (List.mem_of_mem_take member)

/-- **A line that is not read** is the reported one: the lines before it are read, and the text up
to it fails like the whole. -/
theorem located_line (valid : ∀ lexeme ∈ Lexeme.ofText source, lexeme.token ≠ .invalid)
    (failed : ofText source = .error error) :
    0 < error.line ∧ error.line ≤ (lines source).length ∧
      ∀ ending, ending = "" ∨ ending = "\n" →
        (∃ instrs, ofText (joined ((lines source).take (error.line - 1)) ++ ending)
          = .ok instrs) ∧
        ofText (joined ((lines source).take error.line) ++ ending) = .error error := by
  have whole := ofText_take_lines valid (lines source).length (Or.inl rfl)
  rw [List.take_length, joined_lines, String.append_empty, failed, List.take_of_length_le (by simp)]
    at whole
  obtain ⟨index, inside, number, ⟨instrs, read⟩, fails⟩ := exists_take_of_ofLines _ whole.symm
  rw [List.length_map] at inside
  refine ⟨by omega, by omega, ?_⟩
  intro ending ends
  rw [ofText_take_lines valid _ ends, ofText_take_lines valid _ ends, number,
    Nat.add_sub_cancel_left, Nat.add_comm 1]
  exact ⟨⟨instrs, read⟩, fails⟩

/-- **Errors are located.**  An invalid lexeme, if there is one, is on the reported line, and the
message quotes it.  Otherwise the lines before the reported one are read, and the text up to that
line has the very same error, with or without a newline at its end. -/
theorem ofText_located (failed : ofText source = .error error) :
    error.message = s!"line {error.line}: {error.cause.message}" ∧
      ((∃ lexeme ∈ Lexeme.ofText source, lexeme.token = .invalid) →
        ∃ front lexeme, FirstInvalid source front lexeme ∧
          error.line = 1 + front.count '\n' ∧
          error.cause.message
            = s!"unexpected input {Text.quote (String.ofList lexeme.text)}") ∧
      ((∀ lexeme ∈ Lexeme.ofText source, lexeme.token ≠ .invalid) →
        0 < error.line ∧ error.line ≤ (lines source).length ∧
        ∀ ending, ending = "" ∨ ending = "\n" →
          (∃ instrs, ofText (joined ((lines source).take (error.line - 1)) ++ ending)
            = .ok instrs) ∧
          ofText (joined ((lines source).take error.line) ++ ending) = .error error) := by
  refine ⟨rfl, ?_, fun valid => located_line valid failed⟩
  rintro ⟨lexeme, member, invalid⟩
  cases found : firstInvalid? 1 (Lexeme.ofText source) with
  | none =>
    have valid := (firstInvalid?_eq_none_iff _ 1).mp found
    exact absurd invalid (valid _ (List.mem_map_of_mem member))
  | some reported =>
    rw [ofText, found] at failed
    obtain rfl := Except.error.inj failed
    obtain ⟨front, first, isFirst, rfl⟩ := exists_firstInvalid found
    exact ⟨front, first, isFirst, rfl, rfl⟩

/-- A quote below a line that is malformed and a comment that is not looked at. -/
def blotted : String :=
  "free\nx ; $\ny \" é"

/-- A line that uses a temp which only a later line defines, and a worse one at the end. -/
def hasty : String :=
  "param t0:i64\n\nuse t0, t1\nt1:i64 = neg t0\nfree"

theorem ofText_located_blotted_hasty :
    ofText blotted = .error ⟨3, .unexpectedInput "\""⟩ ∧
      (∃ front lexeme, FirstInvalid blotted front lexeme ∧ 3 = 1 + front.count '\n' ∧
        "unexpected input \"\\\"\""
          = s!"unexpected input {Text.quote (String.ofList lexeme.text)}") ∧
      ofText hasty = .error ⟨3, .usedBeforeDefinition ⟨1⟩⟩ ∧
      (∃ instrs, ofText (joined ((lines hasty).take 2) ++ "\n") = .ok instrs) ∧
      ofText (joined ((lines hasty).take 3) ++ "\n") = .error ⟨3, .usedBeforeDefinition ⟨1⟩⟩ := by
  have first : ofText blotted = .error ⟨3, .unexpectedInput "\""⟩ := by decide +kernel
  have second : ofText hasty = .error ⟨3, .usedBeforeDefinition ⟨1⟩⟩ := by decide +kernel
  have said : (ParseCause.unexpectedInput "\"").message = "unexpected input \"\\\"\"" := by
    decide +kernel
  obtain ⟨-, quoted, -⟩ := ofText_located first
  rw [said] at quoted
  obtain ⟨-, -, upTo⟩ := ofText_located second
  obtain ⟨-, -, beginnings⟩ := upTo (by decide +kernel)
  exact ⟨first, quoted (by decide +kernel), second, beginnings "\n" (Or.inr rfl)⟩

end Program

end LinearScan
