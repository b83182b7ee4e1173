import LinearScan.Proofs.Ir.Layout
import LinearScan.Proofs.Ir.Rules
import Mathlib.Data.String.Basic

/-!
# Lexemes partition a text

Each character of a text belongs to exactly one piece, and a piece is a lexeme or is dropped.  So
the places of the lexemes cut a text into lexemes and gaps: a gap, a lexeme, a gap, and so on, with
a gap at the end (`Lexeme.Laid`, `Lexeme.laid_scan`).  What is dropped is blanks and comments.  A
comment goes on to the end of its line, and a newline is a lexeme, so nothing is left of a gap
behind a comment.

`Lexeme.Partitions` says the same of byte offsets alone, as they are used to slice a text.  The last
of its fields is about lexemes by themselves: the text of a lexeme, alone, is cut into that lexeme.
Its first character and what follows up to its end have decided what it is, and nothing behind it
has (`Piece.ofText_tail`).
-/

namespace LinearScan

/-! ## Byte offsets -/

namespace Text

/-- What stands between two byte offsets of a text. -/
def slice (source : String) (start stop : Nat) : String :=
  String.Pos.Raw.extract source ⟨start⟩ ⟨stop⟩

/-- A byte offset at which a character of a text begins, or the text ends. -/
def IsBoundary (source : String) (offset : Nat) : Prop :=
  String.Pos.Raw.IsValid source ⟨offset⟩

theorem utf8Length_eq_utf8Len (cs : List Char) : utf8Length cs = String.utf8Len cs := by
  induction cs with
  | nil => rfl
  | cons c cs ih => rw [utf8Length, ih, String.utf8Len_cons, Nat.add_comm]

theorem utf8Length_toList (source : String) : utf8Length source.toList = source.utf8ByteSize := by
  rw [utf8Length_eq_utf8Len, String.utf8Len_toList]

/-- **Characters between two byte offsets** of a text, with what comes behind them. -/
structure Between (source : String) (start stop : Nat) (text behind : List Char) : Prop where
  split : ∃ front, source.toList = front ++ text ++ behind ∧ start = utf8Length front
  stop_eq : stop = start + utf8Length text

namespace Between

variable {source : String} {start stop : Nat} {text behind : List Char}

theorem slice_eq (between : Between source start stop text behind) :
    slice source start stop = String.ofList text := by
  obtain ⟨⟨front, split, rfl⟩, rfl⟩ := between
  rw [slice, ← String.ofList_toList (s := source), split, utf8Length_eq_utf8Len,
    utf8Length_eq_utf8Len]
  exact String.extract_of_valid front text behind

/-- What comes behind goes on to the end of the text. -/
theorem rest (between : Between source start stop text behind) :
    Between source stop source.utf8ByteSize behind [] := by
  obtain ⟨⟨front, split, rfl⟩, rfl⟩ := between
  refine ⟨⟨front ++ text, ?_, (utf8Length_append front text).symm⟩, ?_⟩
  · rw [split, List.append_nil]
  · rw [← utf8Length_toList, split, utf8Length_append, utf8Length_append]

theorem stop_le (between : Between source start stop text behind) :
    stop ≤ source.utf8ByteSize :=
  Nat.le.intro between.rest.stop_eq.symm

theorem isBoundary_start (between : Between source start stop text behind) :
    IsBoundary source start := by
  obtain ⟨⟨front, split, rfl⟩, -⟩ := between
  refine String.Pos.Raw.isValid_iff_exists_append.mpr
    ⟨String.ofList front, String.ofList (text ++ behind), ?_, ?_⟩
  · rw [← String.ofList_append, ← List.append_assoc, ← split, String.ofList_toList]
  · rw [utf8Length_eq_utf8Len, String.rawEndPos_ofList]

theorem isBoundary_stop (between : Between source start stop text behind) :
    IsBoundary source stop :=
  between.rest.isBoundary_start

end Between

end Text

/-! ## A piece alone -/

namespace Piece

variable {c : Char} {cs : List Char}

/-- **A piece alone** is the same piece, with nothing behind it. -/
theorem ofText_tail (c : Char) (cs : List Char) :
    ofText c (ofText c cs).tail = { ofText c cs with rest := [] } := by
  rcases ofText_takes c cs with ⟨rule, takes, said⟩ | ⟨unmatched, invalid⟩
  · have alone : rule.Takes (c :: (ofText c cs).tail ++ []) (c :: (ofText c cs).tail) := by
      rw [List.append_nil]
      exact takes.alone
    have cut := ofText_of_takes alone
    rw [List.append_nil, ← said] at cut
    exact cut
  · rw [invalid]
    refine ofText_of_unmatched fun rule word isBeginning => ?_
    exact unmatched rule word (isBeginning.trans (List.cons_prefix_cons.mpr ⟨rfl, List.nil_prefix⟩))

/-- Only blanks and comments are dropped. -/
theorem isSome_token? (notBlank : isBlank c ≠ true) (notComment : c ≠ ';') (cs : List Char) :
    (ofText c cs).token?.isSome = true := by
  have either : ∀ {test : Prop} [Decidable test] {yes no : Piece}, yes.token?.isSome = true →
      no.token?.isSome = true → (if test then yes else no).token?.isSome = true := by
    intro test _ yes no isYes isNo
    split
    · exact isYes
    · exact isNo
  rw [ofText, if_neg notBlank, if_neg notComment]
  -- four signs, numbers without and with a minus, words, and what is none of these
  exact either rfl (either rfl (either rfl (either rfl (either rfl (either rfl (either rfl rfl))))))

end Piece

/-! ## Gaps -/

namespace Layout

/-- What is left behind a comment begins at the end of its line. -/
theorem atLineEnd_dropWhile (cs : List Char) : AtLineEnd (cs.dropWhile (· != '\n')) := by
  intro c isFirst
  have ends := List.head?_dropWhile_not (· != '\n') cs
  rw [Option.mem_def.mp isFirst] at ends
  simpa using ends

/-- **A gap** before the given text: blanks, and perhaps a comment, which goes on to the end of the
line. -/
inductive Gap (behind : List Char) : List Char → Prop
  | blanks {blanks : List Char} (blank : Blanks blanks) : Gap behind blanks
  | comment {blanks text : List Char} (blank : Blanks blanks) (oneLine : '\n' ∉ text)
      (stop : AtLineEnd behind) : Gap behind (blanks ++ ';' :: text)

namespace Gap

variable {behind gap : List Char}

theorem nil (behind : List Char) : Gap behind [] :=
  .blanks (List.forall_mem_nil _)

/-- Blanks may stand before a gap. -/
theorem indent {blanks : List Char} (blank : Blanks blanks) (idle : Gap behind gap) :
    Gap behind (blanks ++ gap) := by
  cases idle with
  | blanks others => exact .blanks (List.forall_mem_append.mpr ⟨blank, others⟩)
  | comment others oneLine stop =>
    rw [← List.append_assoc]
    exact .comment (List.forall_mem_append.mpr ⟨blank, others⟩) oneLine stop

/-- A gap lies within a line. -/
theorem newline_notMem (idle : Gap behind gap) : '\n' ∉ gap := by
  have notBlank : ∀ {blanks : List Char}, Blanks blanks → '\n' ∉ blanks := by
    intro blanks blank member
    cases blank _ member
  cases idle with
  | blanks blank => exact notBlank blank
  | comment blank oneLine stop => simp [notBlank blank, oneLine]

/-- There is no gap where a line ends. -/
theorem eq_nil (idle : Gap behind gap) (more : List Char) (stop : AtLineEnd (gap ++ more)) :
    gap = [] := by
  cases gap with
  | nil => rfl
  | cons c gap =>
    obtain rfl := stop c rfl
    exact absurd List.mem_cons_self idle.newline_notMem

end Gap

end Layout

namespace Lexeme

open Layout (Gap AtLineEnd)

variable {source : String} {offset : Nat} {cs : List Char} {lexeme : Lexeme}
  {lexemes : List Lexeme}

/-- **Lexemes are laid out** over a text that begins at an offset: each behind a gap, and a gap at
the end. -/
inductive Laid : Nat → List Char → List Lexeme → Prop
  | gap {offset : Nat} {gap : List Char} (idle : Gap [] gap) : Laid offset gap []
  | lexeme {offset : Nat} {gap rest : List Char} {lexeme : Lexeme} {lexemes : List Lexeme}
      (idle : Gap (lexeme.text ++ rest) gap) (start : lexeme.start = offset + utf8Length gap)
      (others : Laid lexeme.stop rest lexemes) :
      Laid offset (gap ++ lexeme.text ++ rest) (lexeme :: lexemes)

/-- Blanks make the first gap longer. -/
theorem Laid.blanks {blanks : List Char} (blank : Layout.Blanks blanks)
    (laid : Laid (offset + utf8Length blanks) cs lexemes) : Laid offset (blanks ++ cs) lexemes := by
  cases laid with
  | gap idle => exact .gap (idle.indent blank)
  | @lexeme _ gap rest lexeme lexemes idle start others =>
    have start' : lexeme.start = offset + utf8Length (blanks ++ gap) := by
      rw [start, Nat.add_assoc, ← utf8Length_append]
    rw [← List.append_assoc, ← List.append_assoc]
    exact .lexeme (idle.indent blank) start' others

/-- A comment is the first gap, since a newline follows or nothing does. -/
theorem Laid.comment {text : List Char} (oneLine : '\n' ∉ text) (stop : AtLineEnd cs)
    (laid : Laid (offset + utf8Length (';' :: text)) cs lexemes) :
    Laid offset (';' :: text ++ cs) lexemes := by
  have idle : ∀ {behind : List Char}, AtLineEnd behind → Gap behind ([] ++ ';' :: text) :=
    fun ends => .comment (List.forall_mem_nil _) oneLine ends
  cases laid with
  | gap rest =>
    obtain rfl := rest.eq_nil [] (by rwa [List.append_nil])
    rw [List.append_nil]
    exact .gap (idle stop)
  | @lexeme _ gap rest lexeme lexemes between start others =>
    rw [List.append_assoc] at stop
    obtain rfl := between.eq_nil _ stop
    rw [List.nil_append, ← List.append_assoc]
    exact .lexeme (idle stop) start others

/-- **Cutting lays lexemes out.** -/
theorem laid_scan (cs : List Char) : ∀ offset, Laid offset cs (scan offset cs) := by
  induction cs using Piece.induction with
  | nil =>
    intro offset
    rw [scan]
    exact .gap (.nil [])
  | cons c cs ih =>
    intro offset
    have whole := Piece.ofText_append c cs
    by_cases blank : isBlank c = true
    · have blanks : Layout.Blanks (c :: cs.takeWhile isBlank) :=
        List.forall_mem_cons.mpr ⟨blank, List.all_eq_true.mp List.all_takeWhile⟩
      rw [Piece.ofText_blank blank] at ih whole
      have laid : Laid offset (c :: cs.takeWhile isBlank ++ cs.dropWhile isBlank) _ :=
        (ih _).blanks blanks
      rw [List.cons_append, List.takeWhile_append_dropWhile] at laid
      rw [scan, Piece.ofText_blank blank]
      exact laid
    by_cases comment : c = ';'
    · subst comment
      have oneLine := (Piece.inLine_ofText (c := ';') (by decide) cs).1
      have stop : AtLineEnd (Piece.ofText ';' cs).rest := Layout.atLineEnd_dropWhile cs
      have laid : Laid offset (';' :: (Piece.ofText ';' cs).tail ++ (Piece.ofText ';' cs).rest) _ :=
        (ih _).comment (mt (List.mem_cons_of_mem _) oneLine) stop
      rw [List.cons_append, whole] at laid
      rw [scan]
      exact laid
    · obtain ⟨token, isToken⟩ := Option.isSome_iff_exists.mp (Piece.isSome_token? blank comment cs)
      have laid := @Laid.lexeme offset [] (Piece.ofText c cs).rest
        ⟨token, c :: (Piece.ofText c cs).tail, offset⟩ _ (.nil _) rfl (ih _)
      rw [List.nil_append, List.cons_append, whole] at laid
      rw [scan, isToken]
      exact laid

/-! ## Lexemes by themselves -/

/-- A lexeme is a piece that is not dropped. -/
theorem exists_piece_of_mem_scan (cs : List Char) :
    ∀ {offset}, lexeme ∈ scan offset cs →
      ∃ c cs, lexeme.text = c :: (Piece.ofText c cs).tail ∧
        (Piece.ofText c cs).token? = some lexeme.token := by
  induction cs using Piece.induction with
  | nil =>
    intro offset member
    rw [scan] at member
    cases member
  | cons c cs ih =>
    intro offset member
    rw [scan] at member
    cases isToken : (Piece.ofText c cs).token? with
    | none =>
      rw [isToken] at member
      exact ih member
    | some token =>
      rw [isToken] at member
      rcases List.mem_cons.mp member with rfl | later
      · exact ⟨c, cs, rfl, isToken⟩
      · exact ih later

/-- **A lexeme alone.**  Its text, wherever it was taken from, is cut into that lexeme. -/
theorem scan_text (member : lexeme ∈ scan offset cs) :
    scan 0 lexeme.text = [{ lexeme with start := 0 }] := by
  obtain ⟨c, cs, text, isToken⟩ := exists_piece_of_mem_scan cs member
  rw [text, scan, Piece.ofText_tail, isToken, scan, ← text]

/-- A newline is a character of its own. -/
theorem text_of_newline (member : lexeme ∈ scan offset cs) (newline : lexeme.token = .newline) :
    lexeme.text = ['\n'] := by
  obtain ⟨c, cs, text, isToken⟩ := exists_piece_of_mem_scan cs member
  rw [newline] at isToken
  by_cases isNewline : c = '\n'
  · rw [text, isNewline]
    rfl
  · exact absurd isToken (Piece.inLine_ofText isNewline cs).2

theorem start_lt_stop (member : lexeme ∈ scan offset cs) : lexeme.start < lexeme.stop := by
  obtain ⟨c, cs, text, -⟩ := exists_piece_of_mem_scan cs member
  have positive := c.utf8Size_pos
  rw [stop, text, utf8Length]
  omega

/-! ## Spans -/

/-- The gaps that lexemes leave between two offsets, each with its first offset and the one behind
it. -/
def gaps (start stop : Nat) : List Lexeme → List (Nat × Nat)
  | [] => [(start, stop)]
  | lexeme :: lexemes => (start, lexeme.start) :: gaps lexeme.stop stop lexemes

/-- Lexemes stand where the text before them ends or later. -/
theorem Laid.le_start (laid : Laid offset cs lexemes) :
    ∀ lexeme ∈ lexemes, offset ≤ lexeme.start := by
  induction laid with
  | gap idle => exact List.forall_mem_nil _
  | lexeme idle start others ih =>
    refine List.forall_mem_cons.mpr ⟨Nat.le.intro start.symm, ?_⟩
    intro later member
    have := ih later member
    rw [stop, start] at this
    omega

/-- Lexemes stand behind each other. -/
theorem Laid.pairwise (laid : Laid offset cs lexemes) :
    lexemes.Pairwise fun lexeme later => lexeme.stop ≤ later.start := by
  induction laid with
  | gap idle => exact .nil
  | lexeme idle start others ih => exact .cons others.le_start ih

/-- **Where the gaps are** in a text, if lexemes are laid out over the end of it. -/
theorem Laid.gaps_between (laid : Laid offset cs lexemes) :
    ∀ {front}, source.toList = front ++ cs → offset = utf8Length front →
      ∀ gap ∈ gaps offset source.utf8ByteSize lexemes, ∃ text behind,
        Text.Between source gap.1 gap.2 text behind ∧ Gap behind text := by
  induction laid with
  | @gap offset gap idle =>
    intro front split start
    refine List.forall_mem_singleton.mpr ⟨gap, [], ⟨⟨front, ?_, start⟩, ?_⟩, idle⟩
    · rw [split, List.append_nil]
    · rw [← Text.utf8Length_toList, split, utf8Length_append, start]
  | @lexeme offset gap rest lexeme lexemes idle start others ih =>
    intro front split front_eq
    have before : Text.Between source offset lexeme.start gap (lexeme.text ++ rest) :=
      ⟨⟨front, by rw [split]; simp, front_eq⟩, start⟩
    have split' : source.toList = front ++ gap ++ lexeme.text ++ rest := by
      rw [split]
      simp
    have stop_eq : lexeme.stop = utf8Length (front ++ gap ++ lexeme.text) := by
      rw [stop, start, front_eq, utf8Length_append, utf8Length_append]
    exact List.forall_mem_cons.mpr ⟨⟨gap, _, before, idle⟩, ih split' stop_eq⟩

/-- **Where a lexeme is** in its text. -/
theorem exists_between_of_mem (member : lexeme ∈ ofText source) :
    ∃ behind, Text.Between source lexeme.start lexeme.stop lexeme.text behind := by
  obtain ⟨before, after, found⟩ := List.append_of_mem member
  obtain ⟨front, back, split, start, -⟩ := exists_front_of_scan source.toList found
  rw [Nat.zero_add] at start
  exact ⟨back, ⟨front, split, start⟩, rfl⟩

/-- **Lexemes partition a text** into their spans and the gaps between them. -/
structure Partitions (source : String) (lexemes : List Lexeme) : Prop where
  nonempty : ∀ lexeme ∈ lexemes, lexeme.start < lexeme.stop
  inBounds : ∀ lexeme ∈ lexemes, lexeme.stop ≤ source.utf8ByteSize
  boundaries : ∀ lexeme ∈ lexemes,
    Text.IsBoundary source lexeme.start ∧ Text.IsBoundary source lexeme.stop
  /-- Spans are strictly increasing and disjoint. -/
  increasing : lexemes.Pairwise fun lexeme later =>
    lexeme.start < later.start ∧ lexeme.stop ≤ later.start
  /-- A lexeme has the text that stands in its span. -/
  slice_eq : ∀ lexeme ∈ lexemes,
    Text.slice source lexeme.start lexeme.stop = String.ofList lexeme.text
  /-- Before, between and behind the spans are blanks and comments. -/
  idle : ∀ gap ∈ gaps 0 source.utf8ByteSize lexemes,
    Gap (Text.slice source gap.2 source.utf8ByteSize).toList (Text.slice source gap.1 gap.2).toList
  /-- The newlines among the lexemes are the newlines of the text. -/
  newline_iff : ∀ lexeme, lexeme ∈ lexemes ∧ lexeme.token = .newline ↔
    ∃ front back, source.toList = front ++ '\n' :: back ∧
      lexeme = ⟨.newline, ['\n'], utf8Length front⟩
  /-- What stands in a span is cut into that lexeme. -/
  alone : ∀ lexeme ∈ lexemes,
    ofText (Text.slice source lexeme.start lexeme.stop) = [{ lexeme with start := 0 }]

/-- **Every text is partitioned by its lexemes.** -/
theorem partitions_ofText (source : String) : Partitions source (ofText source) := by
  have laid : Laid 0 source.toList (ofText source) := laid_scan source.toList 0
  have slice_eq : ∀ lexeme ∈ ofText source,
      Text.slice source lexeme.start lexeme.stop = String.ofList lexeme.text := by
    intro lexeme member
    obtain ⟨behind, span⟩ := exists_between_of_mem member
    exact span.slice_eq
  refine ⟨fun _ => start_lt_stop, ?_, ?_, ?_, slice_eq, ?_, ?_, ?_⟩
  · intro lexeme member
    obtain ⟨behind, span⟩ := exists_between_of_mem member
    exact span.stop_le
  · intro lexeme member
    obtain ⟨behind, span⟩ := exists_between_of_mem member
    exact ⟨span.isBoundary_start, span.isBoundary_stop⟩
  · refine laid.pairwise.imp_of_mem ?_
    intro lexeme later member _ apart
    exact ⟨Nat.lt_of_lt_of_le (start_lt_stop member) apart, apart⟩
  · intro gap isGap
    have whole : source.toList = [] ++ source.toList := rfl
    obtain ⟨text, behind, place, idle⟩ := laid.gaps_between whole rfl gap isGap
    rwa [place.slice_eq, place.rest.slice_eq, String.toList_ofList, String.toList_ofList]
  · intro lexeme
    constructor
    · rintro ⟨member, newline⟩
      obtain ⟨behind, ⟨front, split, start⟩, -⟩ := exists_between_of_mem member
      have text := text_of_newline member newline
      refine ⟨front, behind, by rw [split, text]; simp, ?_⟩
      rw [← start, ← text, ← newline]
    · rintro ⟨front, back, split, rfl⟩
      refine ⟨?_, rfl⟩
      rw [ofText, split, scan_append_newline, Nat.zero_add]
      exact List.mem_append_right _ List.mem_cons_self
  · intro lexeme member
    rw [slice_eq lexeme member, ofText, String.toList_ofList]
    exact scan_text member

/-- A definition with a comment behind it. -/
example : (ofText "t12:i32 = add t1, -4 ; trailing\n").map (fun lexeme =>
      (lexeme.token, lexeme.start)) =
    [(.temp 12, 0), (.colon, 3), (.ident "i32", 4), (.assign, 8), (.ident "add", 10), (.temp 1, 14),
      (.comma, 16), (.number (-4), 18), (.newline, 31)] := by
  decide +kernel

end Lexeme

end LinearScan
