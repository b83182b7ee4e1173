import LinearScan.Proofs.Ir.RoundTrip

/-!
# Cutting goes line by line

Lexemes are as long as they can be, and yet none reaches over the end of its line.  A newline is
a piece of its own wherever it stands, and everything that could swallow one stops in front of it:
words, numbers, and comments too.  So the lexemes of a text are those of its lines, with the
newlines between them (`Lexeme.scan_append_newline`), and lines can be counted by characters or by
tokens (`Lexeme.exists_front_of_scan`, `Program.tokenLines_read`).
-/

namespace LinearScan

open Token (Stops stops_cons)

/-! ## Pieces and what follows them -/

namespace Piece

variable {c : Char} {cs behind : List Char}

/-- A piece that goes on as long as a test passes does not reach into a text that fails it. -/
theorem span_behind {p : Char → Bool} (stops : ∀ d ∈ behind.head?, p d = false)
    (cs : List Char) (token? : List Char → Option Token) :
    Piece.span p (cs ++ behind) token? =
      ⟨token? (cs.takeWhile p), cs.takeWhile p, cs.dropWhile p ++ behind⟩ := by
  have stops' : ∀ d ∈ (cs.dropWhile p ++ behind).head?, p d = false := by
    have ends := List.head?_dropWhile_not p cs
    cases left : cs.dropWhile p with
    | nil => exact stops
    | cons d rest =>
      rw [left] at ends
      rintro _ ⟨⟩
      exact ends
  have passes : ∀ d ∈ cs.takeWhile p, p d = true := List.all_eq_true.mp List.all_takeWhile
  have whole := span_append passes stops' token?
  rwa [← List.append_assoc, List.takeWhile_append_dropWhile] at whole

/-- **The first piece of a text** is not changed by what comes behind the text, if that goes on
with neither a word nor blanks nor a comment. -/
theorem ofText_behind (stops : Stops behind) (apart : isBlank c = true → ∀ d ∈ behind.head?,
    isBlank d = false) (ends : c = ';' → ∀ d ∈ behind.head?, d = '\n') :
    ofText c (cs ++ behind) = { ofText c cs with rest := (ofText c cs).rest ++ behind } := by
  -- a minus looks one character ahead
  have ahead : (cs ++ behind).head?.any Char.isDigit = cs.head?.any Char.isDigit := by
    cases cs with
    | nil =>
      rw [List.nil_append, List.head?_nil, Option.any_none, Option.any_eq_false]
      simpa using stops.notDigit
    | cons d rest => rfl
  unfold ofText
  rw [ahead]
  by_cases blank : isBlank c = true
  · rw [if_pos blank, if_pos blank]
    exact span_behind (apart blank) cs _
  rw [if_neg blank, if_neg blank]
  by_cases comment : c = ';'
  · rw [if_pos comment, if_pos comment]
    exact span_behind (fun d first => by simp [ends comment d first]) cs _
  rw [if_neg comment, if_neg comment]
  by_cases newline : c = '\n'
  · rw [if_pos newline, if_pos newline]
    rfl
  rw [if_neg newline, if_neg newline]
  by_cases colon : c = ':'
  · rw [if_pos colon, if_pos colon]
    rfl
  rw [if_neg colon, if_neg colon]
  by_cases assign : c = '='
  · rw [if_pos assign, if_pos assign]
    rfl
  rw [if_neg assign, if_neg assign]
  by_cases comma : c = ','
  · rw [if_pos comma, if_pos comma]
    rfl
  rw [if_neg comma, if_neg comma]
  by_cases digit : c.isDigit = true
  · rw [if_pos digit, if_pos digit]
    exact span_behind stops.notDigit cs _
  rw [if_neg digit, if_neg digit]
  by_cases minus : c = '-' ∧ cs.head?.any Char.isDigit = true
  · rw [if_pos minus, if_pos minus]
    exact span_behind stops.notDigit cs _
  rw [if_neg minus, if_neg minus]
  by_cases word : isWordStart c = true
  · rw [if_pos word, if_pos word]
    exact span_behind stops cs _
  rw [if_neg word, if_neg word]
  rfl

theorem ofText_newline (cs : List Char) : ofText '\n' cs = .single (some .newline) cs := rfl

/-- A piece that starts with the given character lies within a line. -/
def InLine (c : Char) (piece : Piece) : Prop :=
  '\n' ∉ c :: piece.tail ∧ piece.token? ≠ some .newline

theorem inLine_single (other : c ≠ '\n') {token? : Option Token}
    (noNewline : token? ≠ some .newline) (cs : List Char) : InLine c (.single token? cs) :=
  ⟨List.not_mem_cons_of_ne_of_not_mem (Ne.symm other) List.not_mem_nil, noNewline⟩

theorem inLine_span (other : c ≠ '\n') {p : Char → Bool} (stops : p '\n' = false)
    {token? : List Char → Option Token} (noNewline : ∀ word, token? word ≠ some .newline)
    (cs : List Char) : InLine c (.span p cs token?) := by
  refine ⟨List.not_mem_cons_of_ne_of_not_mem (Ne.symm other) ?_, noNewline _⟩
  intro member
  have passes := List.all_eq_true.mp (List.all_takeWhile (p := p)) _ member
  rw [stops] at passes
  cases passes

end Piece

namespace Token

theorem ofNumber_ne_newline (value : Int) : ofNumber value ≠ .newline := by
  unfold ofNumber
  split <;> simp

theorem ofWord_ne_newline (word : List Char) : ofWord word ≠ .newline := by
  unfold ofWord ofTempDigits
  dsimp only
  repeat' split
  all_goals simp

end Token

namespace Piece

/-- **Only a newline is one**, and no other piece goes beyond it. -/
theorem inLine_ofText {c : Char} (other : c ≠ '\n') (cs : List Char) : InLine c (ofText c cs) := by
  have sign : ∀ token : Token, token ≠ .newline → InLine c (.single (some token) cs) :=
    fun token differs => inLine_single other (mt Option.some.inj differs) cs
  have skipped : (none : Option Token) ≠ some .newline := (Option.some_ne_none _).symm
  unfold ofText
  refine iteInduction (fun _ => inLine_span other rfl (fun _ => skipped) cs) fun _ => ?_
  refine iteInduction (fun _ => inLine_span other rfl (fun _ => skipped) cs) fun _ => ?_
  refine iteInduction (fun newline => absurd newline other) fun _ => ?_
  refine iteInduction (fun _ => sign .colon (by decide)) fun _ => ?_
  refine iteInduction (fun _ => sign .assign (by decide)) fun _ => ?_
  refine iteInduction (fun _ => sign .comma (by decide)) fun _ => ?_
  refine iteInduction (fun _ => inLine_span other rfl ?_ cs) fun _ => ?_
  · exact fun digits => mt Option.some.inj (Token.ofNumber_ne_newline _)
  refine iteInduction (fun _ => inLine_span other rfl ?_ cs) fun _ => ?_
  · exact fun digits => mt Option.some.inj (Token.ofNumber_ne_newline _)
  refine iteInduction (fun _ => inLine_span other rfl ?_ cs) fun _ => ?_
  · exact fun word => mt Option.some.inj (Token.ofWord_ne_newline _)
  exact sign .invalid (by decide)

end Piece

/-- Newlines are counted by characters or by tokens. -/
theorem Piece.count_newline (c : Char) (cs : List Char) :
    (c :: (ofText c cs).tail).count '\n' = (ofText c cs).token?.toList.count .newline := by
  by_cases newline : c = '\n'
  · rw [newline, ofText_newline]
    rfl
  · obtain ⟨noCharacter, noToken⟩ := inLine_ofText newline cs
    rw [List.count_eq_zero.mpr noCharacter, eq_comm, List.count_eq_zero]
    exact mt Option.mem_toList.mp noToken

theorem utf8Length_append (cs cs' : List Char) :
    utf8Length (cs ++ cs') = utf8Length cs + utf8Length cs' := by
  induction cs with
  | nil => exact (Nat.zero_add _).symm
  | cons c cs ih => rw [List.cons_append, utf8Length, utf8Length, ih, Nat.add_assoc]

namespace Lexeme

/-- **A newline cuts a text in two**, and is a lexeme of its own in its place. -/
theorem scan_append_newline (cs rest : List Char) :
    ∀ offset, scan offset (cs ++ '\n' :: rest) = scan offset cs ++
      ⟨.newline, ['\n'], offset + utf8Length cs⟩ :: scan (offset + utf8Length cs + 1) rest := by
  induction cs using Piece.induction with
  | nil =>
    intro offset
    rw [List.nil_append, scan, scan, Piece.ofText_newline]
    rfl
  | cons c cs ih =>
    intro offset
    have first : Piece.ofText c (cs ++ '\n' :: rest) = { Piece.ofText c cs with
        rest := (Piece.ofText c cs).rest ++ '\n' :: rest } := by
      refine Piece.ofText_behind (stops_cons rfl) (fun _ => ?_) fun _ d isFirst => ?_
      · rintro _ ⟨⟩
        rfl
      · exact (Option.some.inj isFirst).symm
    have whole : utf8Length (c :: cs) = utf8Length (c :: (Piece.ofText c cs).tail)
        + utf8Length (Piece.ofText c cs).rest := by
      rw [← utf8Length_append, List.cons_append, Piece.ofText_append]
    rw [List.cons_append, scan, first, scan, whole, ← Nat.add_assoc]
    cases (Piece.ofText c cs).token? with
    | none => exact ih _
    | some token => exact congrArg (_ :: ·) (ih _)

theorem cut_append_newline (cs rest : List Char) :
    cut (cs ++ '\n' :: rest) = cut cs ++ (.newline, ['\n']) :: cut rest := by
  rw [cut, scan_append_newline, List.map_append, List.map_cons, map_mark_scan, map_mark_scan]
  rfl

/-- **The place of a lexeme.**  The characters before a lexeme hold as many newlines as there are
newlines among the lexemes before it. -/
theorem exists_front_of_scan (cs : List Char) :
    ∀ {offset : Nat} {before after : List Lexeme} {lexeme : Lexeme},
      scan offset cs = before ++ lexeme :: after →
      ∃ front back, cs = front ++ lexeme.text ++ back ∧
        lexeme.start = offset + utf8Length front ∧
        front.count '\n' = (before.map (·.token)).count .newline := by
  induction cs using Piece.induction with
  | nil =>
    intro offset before after lexeme found
    rw [scan] at found
    simp at found
  | cons c cs ih =>
    intro offset before after lexeme found
    have whole := Piece.ofText_append c cs
    -- behind the first piece, all of it belongs to the front
    have later : ∀ before', (before.map (·.token)) =
          (Piece.ofText c cs).token?.toList ++ before'.map (·.token) →
        scan (offset + utf8Length (c :: (Piece.ofText c cs).tail)) (Piece.ofText c cs).rest
          = before' ++ lexeme :: after →
        ∃ front back, c :: cs = front ++ lexeme.text ++ back ∧
          lexeme.start = offset + utf8Length front ∧
          front.count '\n' = (before.map (·.token)).count .newline := by
      intro before' tokens found'
      obtain ⟨front, back, rest, start, counted⟩ := ih found'
      refine ⟨c :: (Piece.ofText c cs).tail ++ front, back, ?_, ?_, ?_⟩
      · rw [List.append_assoc, List.append_assoc, ← List.append_assoc front, ← rest,
          List.cons_append, whole]
      · rw [start, utf8Length_append, Nat.add_assoc]
      · rw [List.count_append, Piece.count_newline, counted, tokens, List.count_append]
    rw [scan] at found
    cases isToken : (Piece.ofText c cs).token? with
    | none =>
      rw [isToken] at found
      exact later before (by rw [isToken]; rfl) found
    | some token =>
      rw [isToken] at found
      cases before with
      | nil =>
        obtain ⟨rfl, -⟩ := List.cons.inj found
        exact ⟨[], (Piece.ofText c cs).rest, by simp [whole], rfl, rfl⟩
      | cons first before' =>
        obtain ⟨rfl, found'⟩ := List.cons.inj found
        exact later before' (by rw [isToken]; rfl) found'

end Lexeme

namespace Token

/-- The tokens on both sides of a newline. -/
theorem read_append_newline (cs rest : List Char) :
    read (cs ++ '\n' :: rest) = read cs ++ .newline :: read rest := by
  rw [read_eq_map_cut, Lexeme.cut_append_newline, List.map_append, List.map_cons,
    ← read_eq_map_cut, ← read_eq_map_cut]

/-- The tokens of lines with newlines between them. -/
theorem read_intercalate (lines : List (List Char)) :
    read (['\n'].intercalate lines) = [.newline].intercalate (lines.map read) := by
  induction lines with
  | nil => exact read_nil
  | cons line lines ih =>
    cases lines with
    | nil => simp
    | cons next lines =>
      rw [List.map_cons, List.map_cons, List.intercalate_cons_cons, List.intercalate_cons_cons,
        List.append_assoc, List.append_assoc, List.singleton_append, read_append_newline, ih]
      rfl

/-- The tokens of a line are on one line. -/
theorem newline_notMem_read {line : List Char} (oneLine : '\n' ∉ line) : .newline ∉ read line := by
  induction line using Piece.induction with
  | nil => simp
  | cons c cs ih =>
    obtain ⟨other, rest⟩ := List.ne_and_not_mem_of_not_mem_cons oneLine
    have whole := Piece.ofText_append c cs
    rw [← whole] at rest
    rw [read_cons]
    intro member
    rcases List.mem_append.mp member with first | later
    · exact (Piece.inLine_ofText (Ne.symm other) cs).2 (Option.mem_toList.mp first)
    · exact ih (fun inRest => rest (List.mem_append_right _ inRest)) later

end Token

namespace Program

/-- The text of lines, with newlines between them. -/
def joined (lines : List (List Char)) : String :=
  String.ofList (['\n'].intercalate lines)

/-- **The lines of tokens are the tokens of the lines.** -/
theorem tokenLines_read {lines : List (List Char)} (some : lines ≠ [])
    (oneLine : ∀ line ∈ lines, '\n' ∉ line) :
    tokenLines (Token.read (joined lines).toList) = lines.map Token.read := by
  rw [joined, String.toList_ofList, Token.read_intercalate]
  refine tokenLines_intercalate (by simpa using some) ?_
  intro tokens member token isToken isNewline
  obtain ⟨line, isLine, rfl⟩ := List.mem_map.mp member
  exact Token.newline_notMem_read (oneLine line isLine) (isNewline ▸ isToken)

end Program

end LinearScan
