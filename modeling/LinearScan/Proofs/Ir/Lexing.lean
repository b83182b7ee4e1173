import LinearScan.Ir.Token
import Mathlib.Data.List.Basic

/-!
# How text is cut

What a text is cut into does not depend on where it stands, so places are left out where they only
get in the way: `Lexeme.cut` is what a text is cut into, and `Token.read` the tokens of that.

Cutting is greedy: a word or a number goes on as long as it can.  So text that is put together
from pieces is cut where the pieces meet only if no piece can go on into the next.
`Token.Spells` says that a piece of text is cut into the given tokens whatever comes behind it,
as long as that does not begin with a character of a word.  Pieces that spell their tokens are
put together by `Token.Spells.append` and `Token.Spells.intercalate`, and larger formats need not
look at characters again.

In the other direction, every token that is cut is one that a text may say: numbers are in their
range, and a name is a word that is neither a keyword nor a temp (`Token.valid_of_mem_read`).
-/

namespace LinearScan

/-! ## Characters -/

/-- A character of a word is no blank, starts no comment and is no sign. -/
theorem ne_of_isWordChar {c : Char} (inWord : isWordChar c = true) :
    isBlank c = false ∧ c ≠ ';' ∧ c ≠ '\n' ∧ c ≠ ':' ∧ c ≠ '=' ∧ c ≠ ',' ∧ c ≠ '-' := by
  have differs : ∀ d : Char, isWordChar d = false → c ≠ d := by
    rintro d notInWord rfl
    rw [inWord] at notInWord
    cases notInWord
  refine ⟨?_, differs _ rfl, differs _ rfl, differs _ rfl, differs _ rfl, differs _ rfl,
    differs _ rfl⟩
  simp [isBlank, differs ' ' rfl, differs '\t' rfl, differs '\r' rfl, differs '\x0c' rfl]

theorem isWordChar_of_isDigit {c : Char} (digit : c.isDigit = true) : isWordChar c = true := by
  simp [isWordChar, Char.isAlphanum, digit]

/-- What starts a word continues one, and is no digit. -/
theorem isWordChar_of_isWordStart {c : Char} (start : isWordStart c = true) :
    isWordChar c = true ∧ c.isDigit = false := by
  rw [isWordStart, Bool.or_eq_true, beq_iff_eq] at start
  rcases start with letter | rfl
  · refine ⟨by simp [isWordChar, Char.isAlphanum, letter], ?_⟩
    -- the digits end before the first letter
    have afterDigits : '9'.val < c.val := by
      rcases Bool.or_eq_true_iff.mp letter with upper | lower
      · have above : 'A'.val ≤ c.val := (of_decide_eq_true upper).1
        exact UInt32.lt_of_lt_of_le (by decide) above
      · have above : 'a'.val ≤ c.val := of_decide_eq_true (Bool.and_eq_true_iff.mp lower).1
        exact UInt32.lt_of_lt_of_le (by decide) above
    rw [← Bool.not_eq_true]
    intro digit
    have below : c.val ≤ '9'.val := of_decide_eq_true (Bool.and_eq_true_iff.mp digit).2
    exact UInt32.not_le.mpr afterDigits below
  · decide

/-! ## Pieces -/

namespace Piece

variable {c : Char} {cs : List Char}

/-- A piece that goes on as long as a test passes stops where it fails. -/
theorem span_append {p : Char → Bool} {word rest : List Char} (passes : ∀ d ∈ word, p d = true)
    (stops : ∀ d ∈ rest.head?, p d = false) (token? : List Char → Option Token) :
    Piece.span p (word ++ rest) token? = ⟨token? word, word, rest⟩ := by
  have taken : (word ++ rest).takeWhile p = word := by
    rw [List.takeWhile_append_of_pos passes]
    cases rest with
    | nil => simp
    | cons d rest => simp [stops d rfl]
  have left : (word ++ rest).dropWhile p = rest := by
    rw [List.dropWhile_append_of_pos passes]
    cases rest with
    | nil => rfl
    | cons d rest => simp [stops d rfl]
  rw [Piece.span, taken, left]

theorem ofText_word (start : isWordStart c = true) :
    ofText c cs = .span isWordChar cs fun word => some (.ofWord (c :: word)) := by
  obtain ⟨inWord, noDigit⟩ := isWordChar_of_isWordStart start
  obtain ⟨noBlank, noComment, noNewline, noColon, noAssign, noComma, noMinus⟩ :=
    ne_of_isWordChar inWord
  simp [ofText, start, noDigit, noBlank, noComment, noNewline, noColon, noAssign, noComma, noMinus]

theorem ofText_digit (digit : c.isDigit = true) :
    ofText c cs =
      .span Char.isDigit cs fun digits => some (.ofNumber (ofDigits (c :: digits))) := by
  obtain ⟨noBlank, noComment, noNewline, noColon, noAssign, noComma, -⟩ :=
    ne_of_isWordChar (isWordChar_of_isDigit digit)
  simp [ofText, digit, noBlank, noComment, noNewline, noColon, noAssign, noComma]

theorem ofText_blank (blank : isBlank c = true) (cs : List Char) :
    ofText c cs = .span isBlank cs fun _ => none := by
  rw [ofText, if_pos blank]

theorem ofText_comment (cs : List Char) :
    ofText ';' cs = .span (· != '\n') cs fun _ => none :=
  rfl

theorem ofText_minus (digit : cs.head?.any Char.isDigit = true) :
    ofText '-' cs =
      .span Char.isDigit cs fun digits => some (.ofNumber (-(ofDigits digits : Int))) := by
  simp [ofText, isBlank, digit]

/-- A minus without a digit behind it is a piece of its own. -/
theorem ofText_lone_minus (noDigit : cs.head?.any Char.isDigit = false) :
    ofText '-' cs = .single (some .invalid) cs := by
  simp [ofText, isBlank, noDigit, isWordStart]

/-- **Induction over pieces.**  What holds of the text behind the first piece holds of the
text. -/
theorem induction {motive : List Char → Prop} (nil : motive [])
    (cons : ∀ c cs, motive (ofText c cs).rest → motive (c :: cs)) (cs : List Char) :
    motive cs := by
  match cs with
  | [] => exact nil
  | c :: cs => exact cons c cs (induction nil cons (ofText c cs).rest)
termination_by cs.length
decreasing_by
  have := length_rest_ofText c cs
  simp only [List.length_cons]
  omega

end Piece

/-! ## What a text is cut into -/

/-- What a piece that starts with the given character leaves behind. -/
def Piece.mark? (c : Char) (piece : Piece) : Option (Token × List Char) :=
  piece.token?.map fun token => (token, c :: piece.tail)

namespace Lexeme

/-- A lexeme without its place. -/
def mark (lexeme : Lexeme) : Token × List Char :=
  (lexeme.token, lexeme.text)

/-- What a text is cut into, wherever it stands. -/
def cut (cs : List Char) : List (Token × List Char) :=
  (scan 0 cs).map mark

@[simp] theorem cut_nil : cut [] = [] := by
  rw [cut, scan]
  rfl

/-- The marks of lexemes do not depend on where a text stands. -/
theorem map_mark_scan (cs : List Char) : ∀ offset, (scan offset cs).map mark = cut cs := by
  unfold cut
  induction cs using Piece.induction with
  | nil =>
    intro offset
    rw [scan, scan]
  | cons c cs ih =>
    intro offset
    rw [scan, scan]
    cases (Piece.ofText c cs).token? with
    | none => rw [ih, ← ih (0 + _)]
    | some token =>
      rw [List.map_cons, List.map_cons, ih, ← ih (0 + _)]
      rfl

/-- A text is cut into its first piece and what the rest is cut into. -/
theorem cut_cons (c : Char) (cs : List Char) :
    cut (c :: cs) = ((Piece.ofText c cs).mark? c).toList ++ cut (Piece.ofText c cs).rest := by
  rw [cut, scan, Piece.mark?]
  cases (Piece.ofText c cs).token? with
  | none => exact map_mark_scan _ _
  | some token => exact congrArg ((token, _) :: ·) (map_mark_scan _ _)

/-- Blanks that go on do not matter. -/
theorem cut_dropWhile_blank (cs : List Char) : cut (cs.dropWhile isBlank) = cut cs := by
  cases cs with
  | nil => rfl
  | cons c cs =>
    by_cases blank : isBlank c = true
    · rw [List.dropWhile_cons_of_pos blank, cut_cons, Piece.ofText_blank blank]
      rfl
    · rw [List.dropWhile_cons_of_neg blank]

/-- A blank is dropped. -/
theorem cut_blank {c : Char} (blank : isBlank c = true) (cs : List Char) :
    cut (c :: cs) = cut cs := by
  rw [← cut_dropWhile_blank cs, cut_cons, Piece.ofText_blank blank]
  rfl

end Lexeme

/-! ## Tokens -/

namespace Token

/-- The tokens of a text. -/
def read (cs : List Char) : List Token :=
  (Lexeme.scan 0 cs).map (·.token)

theorem read_eq_map_cut (cs : List Char) : read cs = (Lexeme.cut cs).map (·.1) := by
  rw [read, Lexeme.cut, List.map_map]
  rfl

@[simp] theorem read_nil : read [] = [] := by
  rw [read_eq_map_cut, Lexeme.cut_nil, List.map_nil]

/-- The tokens of a text are that of its first piece and those of what is left. -/
theorem read_cons (c : Char) (cs : List Char) :
    read (c :: cs) = (Piece.ofText c cs).token?.toList ++ read (Piece.ofText c cs).rest := by
  rw [read_eq_map_cut, read_eq_map_cut, Lexeme.cut_cons, List.map_append, Piece.mark?]
  cases (Piece.ofText c cs).token? <;> rfl

theorem read_blank {c : Char} (blank : isBlank c = true) (cs : List Char) :
    read (c :: cs) = read cs := by
  rw [read_eq_map_cut, read_eq_map_cut, Lexeme.cut_blank blank]

/-- A text does not begin in the middle of a word. -/
def Stops (cs : List Char) : Prop :=
  ∀ c ∈ cs.head?, isWordChar c = false

/-- **A piece of text spells tokens**: it is cut into them, whatever comes behind it. -/
def Spells (text : List Char) (tokens : List Token) : Prop :=
  ∀ rest, Stops rest → read (text ++ rest) = tokens ++ read rest

theorem stops_nil : Stops [] := by
  simp [Stops]

theorem stops_cons {c : Char} {cs : List Char} (notInWord : isWordChar c = false) :
    Stops (c :: cs) := by
  intro d isFirst
  obtain rfl := Option.some.inj isFirst
  exact notInWord

theorem Stops.append {cs rest : List Char} (stops : Stops cs) (behind : Stops rest) :
    Stops (cs ++ rest) := by
  cases cs with
  | nil => exact behind
  | cons c cs => exact stops

/-- A text alone. -/
theorem Spells.read_eq {text : List Char} {tokens : List Token} (spells : Spells text tokens) :
    read text = tokens := by
  simpa using spells [] stops_nil

theorem spells_nil : Spells [] [] :=
  fun _ _ => rfl

/-- Pieces of text may be put together if the second does not go on with a word. -/
theorem Spells.append {text text' : List Char} {tokens tokens' : List Token}
    (first : Spells text tokens) (stops : Stops text') (second : Spells text' tokens') :
    Spells (text ++ text') (tokens ++ tokens') := by
  intro rest behind
  rw [List.append_assoc, first _ (stops.append behind), second rest behind, List.append_assoc]

/-- A sign may stand before any text, if it is a piece of its own. -/
theorem Spells.behind {text : List Char} {tokens : List Token} (spells : Spells text tokens)
    (c : Char) (token : Token) (single : ∀ cs, Piece.ofText c cs = .single (some token) cs) :
    Spells (c :: text) (token :: tokens) := by
  intro rest behind
  rw [List.cons_append, read_cons, single]
  show token :: read (text ++ rest) = _
  rw [spells rest behind, List.cons_append]

/-- So may a blank. -/
theorem Spells.indent {text : List Char} {tokens : List Token} (spells : Spells text tokens)
    {c : Char} (blank : isBlank c = true) : Spells (c :: text) tokens := by
  intro rest behind
  rw [List.cons_append, read_blank blank, spells rest behind]

/-- Pieces of text with separators between them. -/
theorem Spells.intercalate {α : Type} {separator : List Char} {mark : List Token}
    (stops : ∀ text, Stops (separator ++ text))
    (marks : ∀ {text tokens}, Spells text tokens → Spells (separator ++ text) (mark ++ tokens))
    {text : α → List Char} {tokens : α → List Token} {items : List α}
    (each : ∀ item ∈ items, Spells (text item) (tokens item)) :
    Spells (separator.intercalate (items.map text)) (mark.intercalate (items.map tokens)) := by
  induction items with
  | nil => exact spells_nil
  | cons item items ih =>
    obtain ⟨first, others⟩ := List.forall_mem_cons.mp each
    cases items with
    | nil => simpa using first
    | cons next items =>
      rw [List.map_cons, List.map_cons, List.map_cons, List.map_cons, List.intercalate_cons_cons,
        List.intercalate_cons_cons, List.append_assoc, List.append_assoc]
      exact first.append (stops _) (marks (ih others))

/-! ## Words and numbers -/

/-- A whole word is one token. -/
theorem spells_word {c : Char} {word : List Char} (start : isWordStart c = true)
    (inWord : ∀ d ∈ word, isWordChar d = true) : Spells (c :: word) [.ofWord (c :: word)] := by
  intro rest behind
  rw [List.cons_append, read_cons, Piece.ofText_word start, Piece.span_append inWord behind]
  rfl

/-- What stops a word stops a number. -/
theorem Stops.notDigit {rest : List Char} (stops : Stops rest) :
    ∀ d ∈ rest.head?, d.isDigit = false := by
  intro d isFirst
  rw [← Bool.not_eq_true]
  intro digit
  have := stops d isFirst
  rw [isWordChar_of_isDigit digit] at this
  cases this

theorem isDigit_of_mem_repr {n : Nat} : ∀ d ∈ n.repr.toList, d.isDigit = true := by
  intro d member
  rw [Nat.toList_repr] at member
  exact Nat.isDigit_of_mem_toDigits (by decide) (by decide) member

theorem ofDigits_repr (n : Nat) : ofDigits n.repr.toList = n := by
  rw [Nat.toList_repr]
  exact Nat.ofDigitChars_ten_toDigits

theorem exists_repr_eq_cons (n : Nat) : ∃ c digits, n.repr.toList = c :: digits := by
  refine List.exists_cons_of_ne_nil ?_
  rw [Nat.toList_repr]
  exact Nat.toDigits_ne_nil

/-- Temps are read back. -/
theorem spells_temp {index : Nat} (inRange : index ≤ maxTemp) :
    Spells ('t' :: index.repr.toList) [.temp index] := by
  have isTemp : ofWord ('t' :: index.repr.toList) = .temp index := by
    have digits : index.repr.toList ≠ [] ∧ index.repr.toList.all Char.isDigit = true :=
      ⟨by simp, List.all_eq_true.mpr isDigit_of_mem_repr⟩
    rw [ofWord, if_pos digits, ofTempDigits, ofDigits_repr]
    exact if_pos inRange
  rw [← isTemp]
  refine spells_word rfl ?_
  intro d member
  exact isWordChar_of_isDigit (isDigit_of_mem_repr d member)

/-- Numbers are read back. -/
theorem spells_number {value : Int} (inRange : minNumber ≤ value ∧ value ≤ maxNumber) :
    Spells (toString value).toList [.number value] := by
  have isNumber : ofNumber value = .number value := if_pos inRange
  rw [← isNumber]
  intro rest behind
  cases value with
  | ofNat n =>
    obtain ⟨c, digits, spelled⟩ := exists_repr_eq_cons n
    have number : ofDigits (c :: digits) = n := spelled ▸ ofDigits_repr n
    have allDigits := spelled ▸ isDigit_of_mem_repr (n := n)
    obtain ⟨digit, others⟩ := List.forall_mem_cons.mp allDigits
    have text : (toString (Int.ofNat n)).toList = c :: digits := spelled
    rw [text, List.cons_append, read_cons, Piece.ofText_digit digit,
      Piece.span_append others behind.notDigit, number]
    rfl
  | negSucc n =>
    have text : (toString (Int.negSucc n)).toList = '-' :: (n + 1).repr.toList := by
      simp [toString, Int.repr]
    obtain ⟨c, digits, spelled⟩ := exists_repr_eq_cons (n + 1)
    -- a minus is part of a number only if a digit follows
    have first : ((n + 1).repr.toList ++ rest).head?.any Char.isDigit = true := by
      rw [spelled]
      exact isDigit_of_mem_repr c (spelled ▸ List.mem_cons_self)
    rw [text, List.cons_append, read_cons, Piece.ofText_minus first,
      Piece.span_append isDigit_of_mem_repr behind.notDigit, ofDigits_repr]
    rfl

/-- **A name**: a word that is neither a keyword nor a temp. -/
structure IsName (name : String) : Prop where
  word : ∃ first rest, name.toList = first :: rest ∧ isWordStart first = true ∧
    ∀ c ∈ rest, isWordChar c = true
  notParam : name ≠ "param"
  notFree : name ≠ "free"
  notTemp : ∀ digits, name.toList = 't' :: digits → digits ≠ [] → ∃ c ∈ digits, c.isDigit = false

theorem ofWord_of_isName {name : String} (isName : IsName name) :
    ofWord name.toList = .ident name := by
  have notKeyword : ∀ keyword : String, name ≠ keyword → name.toList ≠ keyword.toList := by
    intro keyword differs same
    exact differs (String.toList_injective same)
  unfold ofWord
  split
  · next digits isTemp =>
    rw [if_neg, String.ofList_toList]
    rintro ⟨some, allDigits⟩
    obtain ⟨c, member, notDigit⟩ := isName.notTemp digits isTemp some
    rw [List.all_eq_true.mp allDigits c member] at notDigit
    cases notDigit
  · rw [if_neg (notKeyword _ isName.notParam), if_neg (notKeyword _ isName.notFree),
      String.ofList_toList]

/-- Names are read back. -/
theorem spells_name {name : String} (isName : IsName name) : Spells name.toList [.ident name] := by
  obtain ⟨first, rest, spelled, start, inWord⟩ := isName.word
  rw [← ofWord_of_isName isName, spelled]
  exact spells_word start inWord

/-! ## Every token is one that a text may say -/

/-- **Tokens that a text may say.** -/
def Valid : Token → Prop
  | temp index => index ≤ maxTemp
  | number value => minNumber ≤ value ∧ value ≤ maxNumber
  | ident name => IsName name
  | _ => True

theorem valid_ofNumber (value : Int) : (ofNumber value).Valid := by
  unfold ofNumber
  split
  · next inRange => exact inRange
  · trivial

theorem valid_ofTempDigits (digits : List Char) : (ofTempDigits digits).Valid := by
  unfold ofTempDigits
  dsimp only
  split
  · next inRange => exact inRange
  · trivial

/-- A word is a temp, a keyword or a name. -/
theorem valid_ofWord {c : Char} {word : List Char} (start : isWordStart c = true)
    (inWord : ∀ d ∈ word, isWordChar d = true) : (ofWord (c :: word)).Valid := by
  have isName : String.ofList (c :: word) ≠ "param" → String.ofList (c :: word) ≠ "free" →
      (∀ digits, c :: word = 't' :: digits → digits ≠ [] → ∃ d ∈ digits, d.isDigit = false) →
      IsName (String.ofList (c :: word)) := by
    intro notParam notFree notTemp
    refine ⟨⟨c, word, String.toList_ofList, start, inWord⟩, notParam, notFree, ?_⟩
    rw [String.toList_ofList]
    exact notTemp
  have keyword : ∀ keyword : String, String.ofList (c :: word) = keyword →
      c :: word = keyword.toList := by
    rintro _ rfl
    exact String.toList_ofList.symm
  unfold ofWord
  split
  · next digits isTemp =>
    obtain ⟨rfl, rfl⟩ := List.cons.inj isTemp
    -- no keyword begins like a temp
    split
    · exact valid_ofTempDigits word
    · next noTemp =>
      refine isName ?_ ?_ ?_
      · intro same
        exact absurd (List.cons.inj (keyword _ same)).1 (by decide)
      · intro same
        exact absurd (List.cons.inj (keyword _ same)).1 (by decide)
      · intro digits same some
        obtain ⟨-, rfl⟩ := List.cons.inj same
        by_contra allDigits
        exact noTemp ⟨some, by simpa using allDigits⟩
  · next notTemp =>
    split
    · trivial
    · next notParam =>
      split
      · trivial
      · next notFree =>
        refine isName ?_ ?_ ?_
        · exact fun same => notParam (keyword _ same)
        · exact fun same => notFree (keyword _ same)
        · exact fun digits same => absurd same (notTemp digits)

/-- A word that is taken for a name is one. -/
theorem isName_of_ofWord {name : String} {c : Char} {word : List Char}
    (spelled : name.toList = c :: word) (start : isWordStart c = true)
    (inWord : ∀ d ∈ word, isWordChar d = true) (isIdent : ofWord name.toList = .ident name) :
    IsName name := by
  have valid := valid_ofWord start inWord
  rw [← spelled, isIdent] at valid
  exact valid

/-- The token of a piece is one that a text may say. -/
theorem valid_of_ofText {c : Char} {cs : List Char} {token : Token}
    (isToken : (Piece.ofText c cs).token? = some token) : token.Valid := by
  unfold Piece.ofText at isToken
  -- blanks and comments have no token
  split at isToken
  · cases isToken
  split at isToken
  · cases isToken
  -- the four signs
  split at isToken
  · obtain rfl := Option.some.inj isToken
    trivial
  split at isToken
  · obtain rfl := Option.some.inj isToken
    trivial
  split at isToken
  · obtain rfl := Option.some.inj isToken
    trivial
  split at isToken
  · obtain rfl := Option.some.inj isToken
    trivial
  -- numbers, without and with a minus
  split at isToken
  · obtain rfl := Option.some.inj isToken
    exact valid_ofNumber _
  split at isToken
  · obtain rfl := Option.some.inj isToken
    exact valid_ofNumber _
  -- words, and what is none of these
  split at isToken
  · next start =>
    obtain rfl := Option.some.inj isToken
    exact valid_ofWord start (List.all_eq_true.mp List.all_takeWhile)
  · obtain rfl := Option.some.inj isToken
    trivial

/-- **Every token of a text is one that a text may say.** -/
theorem valid_of_mem_read (cs : List Char) : ∀ token ∈ read cs, token.Valid := by
  induction cs using Piece.induction with
  | nil => simp
  | cons c cs ih =>
    intro token member
    rw [read_cons] at member
    rcases List.mem_append.mp member with first | later
    · exact valid_of_ofText (Option.mem_toList.mp first)
    · exact ih token later

end Token

end LinearScan
