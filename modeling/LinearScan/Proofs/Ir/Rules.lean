import LinearScan.Proofs.Ir.Lexing

/-!
# The rules of cutting

What may stand in a text is said by rules.  A rule has a pattern, and what the pattern matches says
a token or is dropped.  Where several rules match the beginning of a text, the longest match
counts, and among equally long ones the rule of the highest priority.  A character at which no rule
matches anything is invalid.  `Rule.Takes` and `Rule.Cuts` say this without an algorithm.

`Piece.ofText` does not try the rules one after the other.  It looks at the first character, goes
on as long as a single test passes, and asks at the end what a word is.  This comes to the same,
since all rules for that first character go on with characters that pass the test
(`Rule.Matches.begins`, `Rule.takes_of_passes`), and words are the only pieces that several rules
match.  `Piece.ofText_takes` is the result for the first piece, and `Lexeme.cuts_iff` that for a
whole text.
-/

namespace LinearScan

/-! ## Patterns -/

/-- A part of a pattern. -/
inductive Atom where
  /-- The character itself. -/
  | literal (c : Char)
  /-- One character of a class. -/
  | oneOf (test : Char → Bool)
  /-- The character, or nothing. -/
  | optional (c : Char)
  /-- Any number of characters of a class. -/
  | many (test : Char → Bool)

/-- A pattern, of parts that follow each other. -/
abbrev Pattern :=
  List Atom

namespace Pattern

variable {text : List Char} {first test : Char → Bool}

/-- **A pattern matches** a text, as a whole. -/
def Matches : Pattern → List Char → Prop
  | [], text => text = []
  | .literal c :: pattern, text => ∃ rest, text = c :: rest ∧ Matches pattern rest
  | .oneOf test :: pattern, text =>
    ∃ c rest, text = c :: rest ∧ test c = true ∧ Matches pattern rest
  | .optional c :: pattern, text =>
    Matches pattern text ∨ ∃ rest, text = c :: rest ∧ Matches pattern rest
  | .many test :: pattern, text =>
    ∃ front rest, text = front ++ rest ∧ (∀ c ∈ front, test c = true) ∧ Matches pattern rest

/-- How much a pattern says: a literal weighs twice as much as a class, and what may be left out
weighs nothing. -/
def weight : Pattern → Nat
  | [] => 0
  | .literal _ :: pattern => 2 + weight pattern
  | .oneOf _ :: pattern => 1 + weight pattern
  | .optional _ :: pattern => weight pattern
  | .many _ :: pattern => weight pattern

/-- The pattern of one word. -/
def exactly (word : String) : Pattern :=
  word.toList.map .literal

theorem matches_exactly {word : String} : (exactly word).Matches text ↔ text = word.toList := by
  have literals : ∀ (cs text : List Char), Matches (cs.map .literal) text ↔ text = cs := by
    intro cs
    induction cs with
    | nil => exact fun text => Iff.rfl
    | cons c cs ih => exact fun text => by simp [Matches, ih]
  exact literals word.toList text

theorem matches_many : Matches [.many test] text ↔ ∀ c ∈ text, test c = true := by
  constructor
  · rintro ⟨front, rest, rfl, passes, rfl⟩
    rwa [List.append_nil]
  · exact fun passes => ⟨text, [], (List.append_nil text).symm, passes, rfl⟩

/-- One character of a class, and any number of another. -/
theorem matches_oneOf_many : Matches [.oneOf first, .many test] text ↔
    ∃ c rest, text = c :: rest ∧ first c = true ∧ ∀ d ∈ rest, test d = true := by
  simp only [← matches_many]
  rfl

/-- At least one character of a class. -/
theorem matches_oneOf_many_self : Matches [.oneOf test, .many test] text ↔
    text ≠ [] ∧ ∀ c ∈ text, test c = true := by
  rw [matches_oneOf_many]
  cases text <;> simp

theorem matches_literal_many {c : Char} : Matches [.literal c, .many test] text ↔
    ∃ rest, text = c :: rest ∧ ∀ d ∈ rest, test d = true := by
  simp only [← matches_many]
  rfl

end Pattern

/-! ## Rules -/

/-- The rules for what may stand in a text. -/
inductive Rule where
  | temp
  | number
  | ident
  | param
  | free
  | colon
  | assign
  | comma
  | newline
  | blanks
  | comment
deriving DecidableEq

namespace Rule

variable {rule other : Rule} {text word cs : List Char} {c : Char}

/-- The pattern of a rule. -/
def pattern : Rule → Pattern
  | temp => [.literal 't', .oneOf Char.isDigit, .many Char.isDigit]
  | number => [.optional '-', .oneOf Char.isDigit, .many Char.isDigit]
  | ident => [.oneOf isWordStart, .many isWordChar]
  | param => .exactly "param"
  | free => .exactly "free"
  | colon => .exactly ":"
  | assign => .exactly "="
  | comma => .exactly ","
  | newline => .exactly "\n"
  | blanks => [.oneOf isBlank, .many isBlank]
  | comment => [.literal ';', .many (· != '\n')]

/-- The priority of a rule is the weight of its pattern; that for temps is fixed. -/
def priority : Rule → Nat
  | temp => 3
  | rule => rule.pattern.weight

/-- The number that a text spells. -/
def value : List Char → Int
  | '-' :: digits => -(ofDigits digits : Int)
  | digits => ofDigits digits

theorem value_of_digit (digit : c.isDigit = true) (digits : List Char) :
    value (c :: digits) = ofDigits (c :: digits) := by
  unfold value
  split
  · next same =>
    obtain ⟨rfl, -⟩ := List.cons.inj same
    cases digit
  · rfl

/-- What a text says that the rule matches; nothing if it is dropped. -/
def token? (text : List Char) : Rule → Option Token
  | temp => some (.ofTempDigits text.tail)
  | number => some (.ofNumber (value text))
  | ident => some (.ident (String.ofList text))
  | param => some .param
  | free => some .free
  | colon => some .colon
  | assign => some .assign
  | comma => some .comma
  | newline => some .newline
  | blanks => none
  | comment => none

/-- A rule matches a text, as a whole. -/
def Matches (rule : Rule) (text : List Char) : Prop :=
  rule.pattern.Matches text

/-- **The rule that a text is cut by**, with what it cuts off: the longest match of all rules, and
of those that match the same the rule of the highest priority. -/
structure Takes (rule : Rule) (text word : List Char) : Prop where
  beginning : word <+: text
  matched : rule.Matches word
  longest : ∀ (other : Rule) (match' : List Char), match' <+: text → other.Matches match' →
    match'.length ≤ word.length
  foremost : ∀ other : Rule, other.Matches word → other ≠ rule → other.priority < rule.priority

/-- No rule matches the beginning of a text. -/
def Unmatched (text : List Char) : Prop :=
  ∀ (rule : Rule) (word : List Char), word <+: text → ¬ rule.Matches word

namespace Takes

variable {word' : List Char}

/-- **The rules leave no choice.** -/
theorem unique (takes : rule.Takes text word) (takes' : other.Takes text word') :
    rule = other ∧ word = word' := by
  have sameLength : word.length = word'.length :=
    Nat.le_antisymm (takes'.longest rule word takes.beginning takes.matched)
      (takes.longest other word' takes'.beginning takes'.matched)
  obtain rfl : word = word' := by
    refine List.IsPrefix.eq_of_length ?_ sameLength
    exact List.prefix_of_prefix_length_le takes.beginning takes'.beginning (Nat.le_of_eq sameLength)
  refine ⟨?_, rfl⟩
  by_contra differs
  have below := takes.foremost other takes'.matched (Ne.symm differs)
  have above := takes'.foremost rule takes.matched differs
  omega

/-- What a rule takes, it takes without the text behind it. -/
theorem alone (takes : rule.Takes text word) : rule.Takes word word where
  beginning := List.prefix_rfl
  matched := takes.matched
  longest other match' isBeginning := takes.longest other match' (isBeginning.trans takes.beginning)
  foremost := takes.foremost

end Takes

/-! ## First characters -/

/-- The characters that a match of a rule may begin with. -/
def begins : Rule → Char → Bool
  | temp => (· == 't')
  | number => fun c => c == '-' || c.isDigit
  | ident => isWordStart
  | param => (· == 'p')
  | free => (· == 'f')
  | colon => (· == ':')
  | assign => (· == '=')
  | comma => (· == ',')
  | newline => (· == '\n')
  | blanks => isBlank
  | comment => (· == ';')

/-- The characters that it may go on with. -/
def continues : Rule → Char → Bool
  | temp => Char.isDigit
  | number => Char.isDigit
  | ident => isWordChar
  | param => isWordChar
  | free => isWordChar
  | blanks => isBlank
  | comment => (· != '\n')
  | _ => fun _ => false

theorem matches_temp : temp.Matches text ↔
    ∃ digits, text = 't' :: digits ∧ digits ≠ [] ∧ ∀ d ∈ digits, d.isDigit = true := by
  simp only [← Pattern.matches_oneOf_many_self]
  rfl

theorem matches_number : number.Matches text ↔
    (text ≠ [] ∧ ∀ d ∈ text, d.isDigit = true) ∨
      ∃ digits, text = '-' :: digits ∧ digits ≠ [] ∧ ∀ d ∈ digits, d.isDigit = true := by
  simp only [← Pattern.matches_oneOf_many_self]
  rfl

/-- **How a match looks**, whatever the rule. -/
theorem Matches.begins (matched : rule.Matches text) : ∃ c word, text = c :: word ∧
    rule.begins c = true ∧ ∀ d ∈ word, rule.continues d = true := by
  have exact : ∀ {word : String}, (Pattern.exactly word).Matches text → text = word.toList :=
    Pattern.matches_exactly.mp
  cases rule with
  | temp =>
    obtain ⟨digits, rfl, -, allDigits⟩ := matches_temp.mp matched
    exact ⟨'t', digits, rfl, rfl, allDigits⟩
  | number =>
    rcases matches_number.mp matched with ⟨some, allDigits⟩ | ⟨digits, rfl, -, allDigits⟩
    · obtain ⟨c, digits, rfl⟩ := List.exists_cons_of_ne_nil some
      obtain ⟨digit, others⟩ := List.forall_mem_cons.mp allDigits
      exact ⟨c, digits, rfl, by simp [Rule.begins, digit], others⟩
    · exact ⟨'-', digits, rfl, rfl, allDigits⟩
  | ident => exact Pattern.matches_oneOf_many.mp matched
  | param => exact ⟨'p', _, exact matched, rfl, List.all_eq_true.mp rfl⟩
  | free => exact ⟨'f', _, exact matched, rfl, List.all_eq_true.mp rfl⟩
  | colon => exact ⟨':', [], exact matched, rfl, List.forall_mem_nil _⟩
  | assign => exact ⟨'=', [], exact matched, rfl, List.forall_mem_nil _⟩
  | comma => exact ⟨',', [], exact matched, rfl, List.forall_mem_nil _⟩
  | newline => exact ⟨'\n', [], exact matched, rfl, List.forall_mem_nil _⟩
  | blanks => exact Pattern.matches_oneOf_many.mp matched
  | comment =>
    obtain ⟨rest, rfl, oneLine⟩ := Pattern.matches_literal_many.mp matched
    exact ⟨';', rest, rfl, rfl, oneLine⟩

/-- Only words begin with a letter. -/
theorem word_of_begins (start : isWordStart c = true) (begins : rule.begins c = true) :
    rule = temp ∨ rule = param ∨ rule = free ∨ rule = ident := by
  obtain ⟨inWord, noDigit⟩ := isWordChar_of_isWordStart start
  obtain ⟨noBlank, noComment, noNewline, noColon, noAssign, noComma, noMinus⟩ :=
    ne_of_isWordChar inWord
  cases rule <;> simp_all [Rule.begins]

/-- Only numbers begin with a digit. -/
theorem number_of_begins (digit : c.isDigit = true) (begins : rule.begins c = true) :
    rule = number := by
  obtain ⟨noBlank, noComment, noNewline, noColon, noAssign, noComma, -⟩ :=
    ne_of_isWordChar (isWordChar_of_isDigit digit)
  have noWord : isWordStart c = false := by
    rw [← Bool.not_eq_true]
    intro start
    rw [(isWordChar_of_isWordStart start).2] at digit
    cases digit
  have differs : ∀ d : Char, isWordStart d = true → c ≠ d := by
    rintro d start rfl
    rw [start] at noWord
    cases noWord
  have noTemp := differs 't' rfl
  have noParam := differs 'p' rfl
  have noFree := differs 'f' rfl
  cases rule <;> simp_all [Rule.begins]

/-- Only blanks begin with a blank. -/
theorem blanks_of_begins (blank : isBlank c = true) (begins : rule.begins c = true) :
    rule = blanks := by
  simp only [isBlank, Bool.or_eq_true, beq_iff_eq] at blank
  rcases blank with ((rfl | rfl) | rfl) | rfl <;> revert begins <;> cases rule <;> decide

/-! ## Longest matches -/

/-- **A test that all rules agree on.**  If all that a rule can go on with behind the first
character passes the test, a match that goes on as long as the test passes is the longest. -/
theorem takes_of_passes {test : Char → Bool} (matched : rule.Matches (c :: cs.takeWhile test))
    (passes : ∀ other : Rule, other.begins c = true → ∀ d, other.continues d = true →
      test d = true)
    (foremost : ∀ other : Rule, other.Matches (c :: cs.takeWhile test) → other ≠ rule →
      other.priority < rule.priority) :
    rule.Takes (c :: cs) (c :: cs.takeWhile test) where
  beginning := List.cons_prefix_cons.mpr ⟨rfl, List.takeWhile_prefix test⟩
  matched := matched
  longest := by
    intro other match' isBeginning otherMatched
    obtain ⟨d, word, rfl, begins, continues⟩ := otherMatched.begins
    obtain ⟨rfl, rest, rfl⟩ := List.cons_prefix_cons.mp isBeginning
    have inside : ∀ e ∈ word, test e = true := fun e member =>
      passes other begins e (continues e member)
    rw [List.takeWhile_append_of_pos inside]
    simp
  foremost := foremost

/-- The only rule for a first character. -/
theorem takes_of_sole (sole : ∀ other : Rule, other.begins c = true → other = rule)
    (matched : rule.Matches (c :: cs.takeWhile rule.continues)) :
    rule.Takes (c :: cs) (c :: cs.takeWhile rule.continues) := by
  refine takes_of_passes matched ?_ ?_
  · intro other begins d continues
    rwa [← sole other begins]
  · intro other otherMatched differs
    obtain ⟨_, _, same, begins, -⟩ := otherMatched.begins
    obtain ⟨rfl, -⟩ := List.cons.inj same
    exact absurd (sole other begins) differs

/-- **What a word is**: a temp or a keyword rather than a name. -/
theorem exists_foremost_word (start : isWordStart c = true)
    (inWord : ∀ d ∈ word, isWordChar d = true) :
    ∃ rule : Rule, rule.Matches (c :: word) ∧
      (∀ other : Rule, other.Matches (c :: word) → other ≠ rule →
        other.priority < rule.priority) ∧
      rule.token? (c :: word) = some (.ofWord (c :: word)) := by
  -- other rules than those for words do not match
  have among : ∀ {other : Rule}, other.Matches (c :: word) →
      other = temp ∨ other = param ∨ other = free ∨ other = ident := by
    intro other matched
    obtain ⟨_, _, same, begins, -⟩ := matched.begins
    obtain ⟨rfl, -⟩ := List.cons.inj same
    exact word_of_begins start begins
  have isParam : param.Matches (c :: word) ↔ c :: word = "param".toList := Pattern.matches_exactly
  have isFree : free.Matches (c :: word) ↔ c :: word = "free".toList := Pattern.matches_exactly
  have isIdent : ident.Matches (c :: word) :=
    Pattern.matches_oneOf_many.mpr ⟨c, word, rfl, start, inWord⟩
  by_cases asTemp : temp.Matches (c :: word)
  · refine ⟨temp, asTemp, fun other matched differs => ?_, ?_⟩
    · obtain ⟨digits, isTemp, -⟩ := matches_temp.mp asTemp
      rcases among matched with rfl | rfl | rfl | rfl
      · exact absurd rfl differs
      · exact absurd (List.cons.inj (isTemp.symm.trans (isParam.mp matched))).1 (by decide)
      · exact absurd (List.cons.inj (isTemp.symm.trans (isFree.mp matched))).1 (by decide)
      · decide
    · obtain ⟨digits, isTemp, some, allDigits⟩ := matches_temp.mp asTemp
      rw [isTemp, Token.ofWord, if_pos ⟨some, List.all_eq_true.mpr allDigits⟩]
      rfl
  by_cases asParam : c :: word = "param".toList
  · refine ⟨param, isParam.mpr asParam, fun other matched differs => ?_, ?_⟩
    · rcases among matched with rfl | rfl | rfl | rfl
      · exact absurd matched asTemp
      · exact absurd rfl differs
      · exact absurd (asParam.symm.trans (isFree.mp matched)) (by decide)
      · decide
    · rw [asParam]
      rfl
  by_cases asFree : c :: word = "free".toList
  · refine ⟨free, isFree.mpr asFree, fun other matched differs => ?_, ?_⟩
    · rcases among matched with rfl | rfl | rfl | rfl
      · exact absurd matched asTemp
      · exact absurd (isParam.mp matched) asParam
      · exact absurd rfl differs
      · decide
    · rw [asFree]
      rfl
  · refine ⟨ident, isIdent, fun other matched differs => ?_, ?_⟩
    · rcases among matched with rfl | rfl | rfl | rfl
      · exact absurd matched asTemp
      · exact absurd (isParam.mp matched) asParam
      · exact absurd (isFree.mp matched) asFree
      · exact absurd rfl differs
    · unfold Token.ofWord
      split
      · next digits isTemp =>
        rw [if_neg]
        · rfl
        · rintro ⟨some, allDigits⟩
          exact asTemp (matches_temp.mpr ⟨digits, isTemp, some, List.all_eq_true.mp allDigits⟩)
      · rw [if_neg asParam, if_neg asFree]
        rfl

end Rule

/-! ## The first piece -/

namespace Piece

variable {c : Char} {cs word rest : List Char} {rule : Rule}

/-- A piece is cut off by a rule. -/
def CutBy (rule : Rule) (c : Char) (cs : List Char) (piece : Piece) : Prop :=
  rule.Takes (c :: cs) (c :: piece.tail) ∧ piece.token? = rule.token? (c :: piece.tail)

/-- The only rule for a first character. -/
theorem cutBy_of_sole (sole : ∀ other : Rule, other.begins c = true → other = rule)
    (matched : rule.Matches (c :: cs.takeWhile rule.continues))
    {token? : List Char → Option Token}
    (said : token? (cs.takeWhile rule.continues) = rule.token? (c :: cs.takeWhile rule.continues)) :
    CutBy rule c cs (.span rule.continues cs token?) :=
  ⟨Rule.takes_of_sole sole matched, said⟩

/-- The only rule for a sign. -/
theorem cutBy_of_sign (rule : Rule) (c : Char)
    (sole : ∀ other : Rule, other.begins c = true → other = rule)
    (sign : rule.continues = fun _ => false) (matched : rule.Matches [c]) (cs : List Char) :
    CutBy rule c cs (.single (rule.token? [c]) cs) := by
  have alone : cs.takeWhile rule.continues = [] := by
    rw [sign]
    cases cs <;> rfl
  have takes : rule.Takes (c :: cs) (c :: cs.takeWhile rule.continues) :=
    Rule.takes_of_sole sole (by rwa [alone])
  rw [alone] at takes
  exact ⟨takes, rfl⟩

/-- Where no rule begins, a character is invalid. -/
theorem ofText_of_begins (nothing : ∀ rule : Rule, rule.begins c = false) :
    ofText c cs = .single (some .invalid) cs := by
  have noBlank : isBlank c = false := nothing .blanks
  have noWord : isWordStart c = false := nothing .ident
  have differs : ∀ {d : Char}, (c == d) = false → c ≠ d := beq_eq_false_iff_ne.mp
  obtain ⟨noMinus, noDigit⟩ := Bool.or_eq_false_iff.mp (nothing .number)
  simp [ofText, noBlank, noWord, noDigit, differs noMinus, differs (nothing .comment),
    differs (nothing .newline), differs (nothing .colon), differs (nothing .assign),
    differs (nothing .comma)]

/-- A minus belongs to a number if a digit follows. -/
theorem ofText_takes_minus (cs : List Char) :
    (∃ rule, CutBy rule '-' cs (ofText '-' cs)) ∨
      Rule.Unmatched ('-' :: cs) ∧ ofText '-' cs = .single (some .invalid) cs := by
  have sole : ∀ other : Rule, other.begins '-' = true → other = .number := by
    intro other
    cases other <;> decide
  cases ahead : cs.head?.any Char.isDigit with
  | true =>
    rw [ofText_minus ahead]
    obtain ⟨d, rest, rfl⟩ : ∃ d rest, cs = d :: rest := by
      cases cs with
      | nil => cases ahead
      | cons d rest => exact ⟨d, rest, rfl⟩
    refine Or.inl ⟨.number, cutBy_of_sole sole (Rule.matches_number.mpr (Or.inr ⟨_, rfl, ?_, ?_⟩))
      rfl⟩
    · have digit : d.isDigit = true := ahead
      simp [Rule.continues, digit]
    · exact List.all_eq_true.mp List.all_takeWhile
  | false =>
    refine Or.inr ⟨?_, ofText_lone_minus ahead⟩
    intro rule word isBeginning matched
    obtain ⟨d, word, rfl, begins, -⟩ := matched.begins
    obtain ⟨rfl, inText⟩ := List.cons_prefix_cons.mp isBeginning
    obtain rfl := sole rule begins
    rcases Rule.matches_number.mp matched with ⟨-, allDigits⟩ | ⟨digits, same, some, allDigits⟩
    · cases allDigits '-' List.mem_cons_self
    · -- the first digit would be the character behind the minus
      obtain ⟨-, rfl⟩ := List.cons.inj same
      obtain ⟨e, others, rfl⟩ := List.exists_cons_of_ne_nil some
      obtain ⟨rest, rfl⟩ := inText
      have digit := allDigits e List.mem_cons_self
      rw [List.cons_append, List.head?_cons, Option.any_some, digit] at ahead
      cases ahead

/-- **The first piece of a text** is cut off by the rule that takes the longest match, or is a
character at which no rule matches. -/
theorem ofText_takes (c : Char) (cs : List Char) :
    (∃ rule, CutBy rule c cs (ofText c cs)) ∨
      Rule.Unmatched (c :: cs) ∧ ofText c cs = .single (some .invalid) cs := by
  have inClass : ∀ test : Char → Bool, ∀ d ∈ cs.takeWhile test, test d = true :=
    fun test => List.all_eq_true.mp List.all_takeWhile
  have ofWord : isWordStart c = true → ∃ rule, CutBy rule c cs (ofText c cs) := by
    intro start
    obtain ⟨rule, matched, foremost, said⟩ := Rule.exists_foremost_word start (inClass isWordChar)
    rw [ofText_word start]
    refine ⟨rule, Rule.takes_of_passes matched ?_ foremost, said.symm⟩
    intro other begins d continues
    rcases Rule.word_of_begins start begins with rfl | rfl | rfl | rfl
    · exact isWordChar_of_isDigit continues
    · exact continues
    · exact continues
    · exact continues
  by_cases begun : ∃ rule : Rule, rule.begins c = true
  · obtain ⟨rule, begins⟩ := begun
    cases rule with
    | temp => exact Or.inl (ofWord (by rw [beq_iff_eq.mp begins]; rfl))
    | param => exact Or.inl (ofWord (by rw [beq_iff_eq.mp begins]; rfl))
    | free => exact Or.inl (ofWord (by rw [beq_iff_eq.mp begins]; rfl))
    | ident => exact Or.inl (ofWord begins)
    | number =>
      by_cases digit : c.isDigit = true
      · rw [ofText_digit digit]
        have allDigits : ∀ d ∈ c :: cs.takeWhile Char.isDigit, d.isDigit = true :=
          List.forall_mem_cons.mpr ⟨digit, inClass Char.isDigit⟩
        refine Or.inl ⟨.number, cutBy_of_sole (fun other => Rule.number_of_begins digit)
          (Rule.matches_number.mpr (Or.inl ⟨List.cons_ne_nil _ _, allDigits⟩)) ?_⟩
        rw [Rule.token?, Rule.value_of_digit digit]
      · obtain rfl : c = '-' := by simpa [Rule.begins, digit] using begins
        exact ofText_takes_minus cs
    | colon =>
      obtain rfl : c = ':' := beq_iff_eq.mp begins
      exact Or.inl ⟨_, cutBy_of_sign .colon ':' (by intro other; cases other <;> decide) rfl
        (Pattern.matches_exactly.mpr rfl) cs⟩
    | assign =>
      obtain rfl : c = '=' := beq_iff_eq.mp begins
      exact Or.inl ⟨_, cutBy_of_sign .assign '=' (by intro other; cases other <;> decide) rfl
        (Pattern.matches_exactly.mpr rfl) cs⟩
    | comma =>
      obtain rfl : c = ',' := beq_iff_eq.mp begins
      exact Or.inl ⟨_, cutBy_of_sign .comma ',' (by intro other; cases other <;> decide) rfl
        (Pattern.matches_exactly.mpr rfl) cs⟩
    | newline =>
      obtain rfl : c = '\n' := beq_iff_eq.mp begins
      exact Or.inl ⟨_, cutBy_of_sign .newline '\n' (by intro other; cases other <;> decide) rfl
        (Pattern.matches_exactly.mpr rfl) cs⟩
    | blanks =>
      rw [ofText_blank begins]
      exact Or.inl ⟨.blanks, cutBy_of_sole (fun other => Rule.blanks_of_begins begins)
        (Pattern.matches_oneOf_many.mpr ⟨c, _, rfl, begins, inClass isBlank⟩) rfl⟩
    | comment =>
      obtain rfl : c = ';' := beq_iff_eq.mp begins
      have matched : Rule.comment.Matches (';' :: cs.takeWhile Rule.comment.continues) :=
        Pattern.matches_literal_many.mpr ⟨_, rfl, inClass Rule.comment.continues⟩
      rw [ofText_comment]
      exact Or.inl ⟨_, cutBy_of_sole (by intro other; cases other <;> decide) matched rfl⟩
  · refine Or.inr ⟨?_, ofText_of_begins fun rule => Bool.eq_false_iff.mpr fun begins =>
      begun ⟨rule, begins⟩⟩
    intro rule word isBeginning matched
    obtain ⟨d, word, rfl, begins, -⟩ := matched.begins
    obtain ⟨rfl, -⟩ := List.cons_prefix_cons.mp isBeginning
    exact begun ⟨rule, begins⟩

/-- What a rule takes is cut off. -/
theorem ofText_of_takes (takes : rule.Takes (c :: word ++ rest) (c :: word)) :
    ofText c (word ++ rest) = ⟨rule.token? (c :: word), word, rest⟩ := by
  rcases ofText_takes c (word ++ rest) with ⟨other, otherTakes, said⟩ | ⟨unmatched, -⟩
  · obtain ⟨rfl, same⟩ := takes.unique otherTakes
    obtain ⟨-, sameTail⟩ := List.cons.inj same
    have whole := ofText_append c (word ++ rest)
    rw [← sameTail] at said whole
    have sameRest := List.append_cancel_left whole
    calc ofText c (word ++ rest)
      _ = ⟨(ofText c (word ++ rest)).token?, (ofText c (word ++ rest)).tail,
          (ofText c (word ++ rest)).rest⟩ := rfl
      _ = ⟨rule.token? (c :: word), word, rest⟩ := by rw [said, ← sameTail, sameRest]
  · exact absurd takes.matched (unmatched rule _ takes.beginning)

/-- Where no rule matches, a character is invalid. -/
theorem ofText_of_unmatched (unmatched : Rule.Unmatched (c :: cs)) :
    ofText c cs = .single (some .invalid) cs := by
  rcases ofText_takes c cs with ⟨rule, takes, -⟩ | ⟨-, invalid⟩
  · exact absurd takes.matched (unmatched rule _ takes.beginning)
  · exact invalid

end Piece

/-! ## Whole texts -/

/-- **Cutting by the rules**, from left to right. -/
inductive Rule.Cuts : List Char → List (Token × List Char) → Prop
  | nil : Cuts [] []
  /-- What a rule takes says a token, or is dropped. -/
  | rule {rule : Rule} {word rest : List Char} {marks : List (Token × List Char)}
      (takes : rule.Takes (word ++ rest) word) (others : Cuts rest marks) :
      Cuts (word ++ rest) (((rule.token? word).map (·, word)).toList ++ marks)
  /-- A character is invalid, and cutting goes on behind it. -/
  | invalid {c : Char} {rest : List Char} {marks : List (Token × List Char)}
      (unmatched : Rule.Unmatched (c :: rest)) (others : Cuts rest marks) :
      Cuts (c :: rest) ((.invalid, [c]) :: marks)

namespace Lexeme

theorem cuts_cut (cs : List Char) : Rule.Cuts cs (cut cs) := by
  induction cs using Piece.induction with
  | nil =>
    rw [cut_nil]
    exact .nil
  | cons c cs ih =>
    rw [cut_cons, Piece.mark?]
    rcases Piece.ofText_takes c cs with ⟨rule, takes, said⟩ | ⟨unmatched, invalid⟩
    · have whole : c :: (Piece.ofText c cs).tail ++ (Piece.ofText c cs).rest = c :: cs := by
        rw [List.cons_append, Piece.ofText_append]
      rw [said, ← whole]
      exact .rule (whole ▸ takes) ih
    · rw [invalid] at ih ⊢
      exact .invalid unmatched ih

/-- **A text is cut by the rules**, and in no other way. -/
theorem cuts_iff {cs : List Char} {marks : List (Token × List Char)} :
    Rule.Cuts cs marks ↔ marks = cut cs := by
  constructor
  · intro cuts
    induction cuts with
    | nil => exact cut_nil.symm
    | @rule rule word rest marks takes _ ih =>
      obtain ⟨c, word, rfl, -⟩ := takes.matched.begins
      rw [List.cons_append, cut_cons, Piece.ofText_of_takes takes, ih]
      rfl
    | @invalid c rest marks unmatched _ ih =>
      rw [cut_cons, Piece.ofText_of_unmatched unmatched, ih]
      rfl
  · rintro rfl
    exact cuts_cut cs

end Lexeme

end LinearScan
