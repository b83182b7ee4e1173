import LinearScan.Proofs.Ir.Lines
import Mathlib.Logic.Relation

/-!
# Layout does not matter

Blanks in front of a line and behind it, comments behind it, and the kind of line ends have no
part in what a text is read as.  `Layout.Edit` lists these changes.  None of them changes what a
text is cut into (`Lexeme.cut_of_edit`), so that any number of them leaves the outcome as it is,
the line number and the quoted text of an error included.

Since pieces are as long as they can be, putting something in could make a piece longer, or
swallow what stands behind.  Neither happens at the end of a line.  What is put in starts with a
blank, where every word and number ends, and a comment that is already there takes it in up to the
newline, where it would have ended anyway (`Lexeme.cut_idle`).
-/

namespace LinearScan

open Token (Stops stops_cons)

namespace Layout

/-- All characters are blanks. -/
def Blanks (cs : List Char) : Prop :=
  ∀ c ∈ cs, isBlank c = true

/-- A line begins behind a text. -/
def AtLineStart (before : List Char) : Prop :=
  ∀ c ∈ before.getLast?, c = '\n'

/-- A line ends before a text. -/
def AtLineEnd (after : List Char) : Prop :=
  ∀ c ∈ after.head?, c = '\n'

/-- **A change of the layout** of one line. -/
inductive Edit : List Char → List Char → Prop
  /-- Blanks in front of a line. -/
  | indent {before after blanks : List Char} (start : AtLineStart before) (blank : Blanks blanks) :
      Edit (before ++ after) (before ++ blanks ++ after)
  /-- Blanks behind a line. -/
  | trail {before after blanks : List Char} (stop : AtLineEnd after) (blank : Blanks blanks) :
      Edit (before ++ after) (before ++ blanks ++ after)
  /-- A comment behind a line, set off by a blank. -/
  | comment {before after text : List Char} {c : Char} (stop : AtLineEnd after)
      (blank : isBlank c = true) (oneLine : '\n' ∉ text) :
      Edit (before ++ after) (before ++ c :: ';' :: text ++ after)
  /-- A line that ends with a carriage return and a newline. -/
  | lineEnd {before after : List Char} :
      Edit (before ++ '\n' :: after) (before ++ '\r' :: '\n' :: after)

end Layout

namespace Lexeme

open Layout

variable {before after blanks text : List Char} {c : Char}

/-- Blanks in front of a text are dropped. -/
theorem cut_blanks (blank : Blanks blanks) (cs : List Char) : cut (blanks ++ cs) = cut cs := by
  induction blanks with
  | nil => rfl
  | cons c blanks ih =>
    obtain ⟨first, others⟩ := List.forall_mem_cons.mp blank
    rw [List.cons_append, cut_blank first, ih others]

theorem cut_dropWhile_append (cs more : List Char) :
    cut (cs.dropWhile isBlank ++ more) = cut (cs ++ more) := by
  have blank : Blanks (cs.takeWhile isBlank) := List.all_eq_true.mp List.all_takeWhile
  rw [← cut_blanks blank, ← List.append_assoc, List.takeWhile_append_dropWhile]

/-- A comment is dropped up to the end of its line. -/
theorem cut_comment (cs : List Char) : cut (';' :: cs) = cut (cs.dropWhile (· != '\n')) := by
  rw [cut_cons]
  rfl

theorem dropWhile_line (oneLine : '\n' ∉ text) (stop : AtLineEnd after) :
    (text ++ after).dropWhile (· != '\n') = after := by
  rw [List.dropWhile_append_of_pos]
  · cases after with
    | nil => rfl
    | cons d after => rw [List.dropWhile_cons_of_neg (by simp [stop d rfl])]
  · intro d member
    simpa using ne_of_mem_of_not_mem member oneLine

theorem atLineEnd_newline (cs : List Char) : AtLineEnd ('\n' :: cs) :=
  fun _ isFirst => (Option.some.inj isFirst).symm

theorem stops_of_atLineEnd (stop : AtLineEnd after) : Stops after := by
  intro d isFirst
  rw [stop d isFirst]
  rfl

theorem stops_of_isBlank (blank : isBlank c = true) (cs : List Char) : Stops (c :: cs) := by
  refine stops_cons ?_
  rw [← Bool.not_eq_true]
  intro inWord
  rw [(ne_of_isWordChar inWord).1] at blank
  cases blank

/-- **What is idle at the end of a line may be put in there.**  It does not go on with a word, has
no newline, and by itself is cut into nothing. -/
theorem cut_idle {idle : List Char} (stops : Stops (idle ++ after)) (oneLine : '\n' ∉ idle)
    (stop : AtLineEnd after) (nothing : cut (idle ++ after) = cut after) (before : List Char) :
    cut (before ++ idle ++ after) = cut (before ++ after) := by
  induction before using Piece.induction with
  | nil => exact nothing
  | cons c cs ih =>
    by_cases blank : isBlank c = true
    · -- blanks go on into what is idle, or do not
      rw [Piece.ofText_blank blank] at ih
      change cut (cs.dropWhile isBlank ++ idle ++ after) = cut (cs.dropWhile isBlank ++ after) at ih
      rw [List.append_assoc, cut_dropWhile_append, cut_dropWhile_append] at ih
      rw [List.append_assoc, List.cons_append, List.cons_append, cut_blank blank, cut_blank blank]
      exact ih
    by_cases comment : c = ';'
    · -- the comment ends at a newline of its own, or takes in what is idle
      rw [comment] at ih ⊢
      change cut (cs.dropWhile (· != '\n') ++ idle ++ after)
        = cut (cs.dropWhile (· != '\n') ++ after) at ih
      rw [List.append_assoc, List.cons_append, List.cons_append, cut_comment, cut_comment]
      by_cases ended : '\n' ∈ cs
      · obtain ⟨front, back, rfl, clear⟩ := List.eq_append_cons_of_mem ended
        rw [dropWhile_line clear (atLineEnd_newline back), List.append_assoc] at ih
        rw [List.append_assoc, List.append_assoc, List.cons_append, List.cons_append,
          dropWhile_line clear (atLineEnd_newline _), dropWhile_line clear (atLineEnd_newline _)]
        exact ih
      · have longer : '\n' ∉ cs ++ idle :=
          fun member => (List.mem_append.mp member).elim ended oneLine
        rw [← List.append_assoc, dropWhile_line longer stop, dropWhile_line ended stop]
    · have ends : ∀ behind : List Char, c = ';' → ∀ d ∈ behind.head?, d = '\n' :=
        fun _ isComment => absurd isComment comment
      have apart : ∀ behind : List Char, isBlank c = true → ∀ d ∈ behind.head?, isBlank d = false :=
        fun _ isBlank => absurd isBlank blank
      rw [List.append_assoc, List.cons_append, cut_cons,
        Piece.ofText_behind stops (apart _) (ends _), List.cons_append, cut_cons,
        Piece.ofText_behind (stops_of_atLineEnd stop) (apart _) (ends _)]
      rw [List.append_assoc] at ih
      exact congrArg (((Piece.ofText c cs).mark? c).toList ++ ·) ih

/-- Blanks at the end of a line are dropped. -/
theorem cut_trail (stop : AtLineEnd after) (blank : Blanks blanks) (before : List Char) :
    cut (before ++ blanks ++ after) = cut (before ++ after) := by
  refine cut_idle ?_ ?_ stop (cut_blanks blank after) before
  · cases blanks with
    | nil => exact stops_of_atLineEnd stop
    | cons c blanks => exact stops_of_isBlank (blank c List.mem_cons_self) _
  · intro member
    cases blank _ member

/-- A comment at the end of a line is dropped. -/
theorem cut_append_comment (stop : AtLineEnd after) (blank : isBlank c = true)
    (oneLine : '\n' ∉ text) (before : List Char) :
    cut (before ++ c :: ';' :: text ++ after) = cut (before ++ after) := by
  refine cut_idle (stops_of_isBlank blank _) ?_ stop ?_ before
  · rw [List.mem_cons, List.mem_cons]
    rintro (rfl | same | member)
    · cases blank
    · cases same
    · exact oneLine member
  · rw [List.cons_append, List.cons_append, cut_blank blank, cut_comment,
      dropWhile_line oneLine stop]

/-- Blanks at the beginning of a line are dropped. -/
theorem cut_indent (start : AtLineStart before) (blank : Blanks blanks) (after : List Char) :
    cut (before ++ blanks ++ after) = cut (before ++ after) := by
  rcases List.eq_nil_or_concat' before with rfl | ⟨lines, d, rfl⟩
  · exact cut_blanks blank after
  · obtain rfl := start d (by simp)
    rw [List.append_assoc, List.append_assoc, List.append_assoc, List.singleton_append,
      List.singleton_append, cut_append_newline, cut_append_newline, cut_blanks blank]

/-- **A change of the layout** changes nothing about what a text is cut into. -/
theorem cut_of_edit {cs cs' : List Char} (edit : Edit cs cs') : cut cs' = cut cs := by
  cases edit with
  | indent start blank => exact cut_indent start blank _
  | trail stop blank => exact cut_trail stop blank _
  | comment stop blank oneLine => exact cut_append_comment stop blank oneLine _
  | @lineEnd before after =>
    have blank : Blanks ['\r'] := List.forall_mem_singleton.mpr rfl
    rw [← cut_trail (atLineEnd_newline after) blank before, List.append_assoc]
    rfl

/-- So does any number of changes. -/
theorem cut_of_edits {cs cs' : List Char} (edits : Relation.ReflTransGen Edit cs cs') :
    cut cs' = cut cs := by
  induction edits with
  | refl => rfl
  | tail _ edit ih => exact (cut_of_edit edit).trans ih

end Lexeme

namespace Program

/-- The report of invalid lexemes does not depend on places. -/
theorem firstInvalid?_congr (lexemes : List Lexeme) :
    ∀ {lexemes' : List Lexeme} (line : Nat), lexemes.map Lexeme.mark = lexemes'.map Lexeme.mark →
      firstInvalid? line lexemes = firstInvalid? line lexemes' := by
  induction lexemes with
  | nil =>
    intro lexemes' line same
    rw [List.map_eq_nil_iff.mp same.symm]
  | cons lexeme rest ih =>
    intro lexemes' line same
    obtain ⟨lexeme', rest', rfl, sameMark, sameRest⟩ := List.map_eq_cons_iff.mp same.symm
    obtain ⟨sameToken, sameText⟩ := Prod.mk.inj sameMark
    rw [firstInvalid?, firstInvalid?, sameToken, sameText, ih _ sameRest.symm, ih _ sameRest.symm]

/-- What a text is read as depends on what it is cut into alone. -/
theorem ofText_congr {source source' : String}
    (same : Lexeme.cut source.toList = Lexeme.cut source'.toList) :
    ofText source = ofText source' := by
  have sameReport : firstInvalid? 1 (Lexeme.ofText source)
      = firstInvalid? 1 (Lexeme.ofText source') :=
    firstInvalid?_congr _ 1 same
  have sameTokens : (Lexeme.ofText source).map (·.token)
      = (Lexeme.ofText source').map (·.token) := by
    show Token.read source.toList = Token.read source'.toList
    rw [Token.read_eq_map_cut, Token.read_eq_map_cut, same]
  rw [ofText, ofText, sameReport, sameTokens]

/-- **Layout does not matter.**  Any number of changes of the layout leaves the outcome as it is:
the instructions, or the error with its line and all that it quotes. -/
theorem ofText_of_edits {source source' : String}
    (edits : Relation.ReflTransGen Layout.Edit source.toList source'.toList) :
    ofText source' = ofText source :=
  ofText_congr (Lexeme.cut_of_edits edits)

/-- Lines that end in the middle of things: a lone minus, a comment right behind a temp that is
out of range, and a letter that is none. -/
def crammed : String :=
  "x -\ny t4294967296;c\nz é"

/-- The same lines with blanks, a comment and a carriage return. -/
def roomy : String :=
  " \tx -\r\ny t4294967296;c ; é\nz é\x0c"

theorem ofText_of_edits_crammed :
    Relation.ReflTransGen Layout.Edit crammed.toList roomy.toList ∧
      ofText roomy = ofText crammed ∧ ofText crammed = .error ⟨1, .unexpectedInput "-"⟩ := by
  have blank : ∀ {blanks : List Char}, blanks.all isBlank = true → Layout.Blanks blanks :=
    List.all_eq_true.mp
  -- what the lines say plays no part
  have edits : ∀ x y z : List Char, Relation.ReflTransGen Layout.Edit (x ++ '\n' :: y ++ '\n' :: z)
      (' ' :: '\t' :: x ++ '\r' :: '\n' :: y ++ [' ', ';', ' ', 'é'] ++ '\n' :: z
        ++ ['\x0c']) := by
    intro x y z
    have indented : Layout.Edit (x ++ '\n' :: y ++ '\n' :: z)
        (' ' :: '\t' :: x ++ '\n' :: y ++ '\n' :: z) :=
      @Layout.Edit.indent [] _ [' ', '\t'] (by simp [Layout.AtLineStart]) (blank rfl)
    have returned : Layout.Edit (' ' :: '\t' :: x ++ '\n' :: y ++ '\n' :: z)
        (' ' :: '\t' :: x ++ '\r' :: '\n' :: y ++ '\n' :: z) := by
      simpa using @Layout.Edit.lineEnd (' ' :: '\t' :: x) (y ++ '\n' :: z)
    have remarked : Layout.Edit (' ' :: '\t' :: x ++ '\r' :: '\n' :: y ++ '\n' :: z)
        (' ' :: '\t' :: x ++ '\r' :: '\n' :: y ++ [' ', ';', ' ', 'é'] ++ '\n' :: z) :=
      .comment (Lexeme.atLineEnd_newline z) rfl (by decide)
    have trailed : Layout.Edit
        (' ' :: '\t' :: x ++ '\r' :: '\n' :: y ++ [' ', ';', ' ', 'é'] ++ '\n' :: z)
        (' ' :: '\t' :: x ++ '\r' :: '\n' :: y ++ [' ', ';', ' ', 'é'] ++ '\n' :: z
          ++ ['\x0c']) := by
      simpa using @Layout.Edit.trail
        (' ' :: '\t' :: x ++ '\r' :: '\n' :: y ++ [' ', ';', ' ', 'é'] ++ '\n' :: z) [] ['\x0c']
        (by simp [Layout.AtLineEnd]) (blank rfl)
    exact .head indented (.head returned (.head remarked (.single trailed)))
  have both : Relation.ReflTransGen Layout.Edit crammed.toList roomy.toList := by
    have old : crammed.toList = "x -".toList ++ '\n' :: "y t4294967296;c".toList
        ++ '\n' :: "z é".toList := by
      decide +kernel
    have new : roomy.toList = ' ' :: '\t' :: "x -".toList ++ '\r' :: '\n'
        :: "y t4294967296;c".toList ++ [' ', ';', ' ', 'é'] ++ '\n' :: "z é".toList ++ ['\x0c'] := by
      decide +kernel
    rw [old, new]
    exact edits _ _ _
  exact ⟨both, ofText_of_edits both, by decide +kernel⟩

end Program

end LinearScan
