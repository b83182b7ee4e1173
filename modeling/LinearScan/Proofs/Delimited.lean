import Mathlib.Data.List.Basic

/-!
# Texts with delimiters

Text that is put together from pieces can be taken apart again as long as no piece contains
the delimiter.  This is the one fact behind every format of the library that is meant to be
read back, or to tell apart what it was written for.

All of it is about lists of characters.  `eq_of_append_flatMap_eq` is the load-bearing
statement: its delimiter is a character with an arbitrary tail, so that it covers `,` and the
comma with a blank that lists are printed with.
-/

namespace LinearScan.Delimited

variable {c : Char} {x y u v : List Char}

/-- The first occurrence of a delimiter is where a text is cut. -/
theorem append_cons_inj (clear : c ∉ x) (clear' : c ∉ y) (same : x ++ c :: u = y ++ c :: v) :
    x = y ∧ u = v := by
  have before : ∀ {x u : List Char}, c ∉ x → (x ++ c :: u).takeWhile (· != c) = x := by
    intro x u clear
    rw [List.takeWhile_append_of_pos]
    · simp
    · intro a member
      exact bne_iff_ne.mpr fun equal => clear (equal ▸ member)
  have first : x = y := by
    rw [← before clear (u := u), same, before clear']
  subst first
  exact ⟨rfl, (List.cons.inj (List.append_cancel_left same)).2⟩

/-- The last occurrence of a delimiter is where a text is cut, seen from its end. -/
theorem append_cons_inj_last (clear : c ∉ u) (clear' : c ∉ v)
    (same : x ++ c :: u = y ++ c :: v) : x = y ∧ u = v := by
  have reversed : u.reverse ++ c :: x.reverse = v.reverse ++ c :: y.reverse := by
    simpa using congrArg List.reverse same
  obtain ⟨after, before⟩ :=
    append_cons_inj (by simpa using clear) (by simpa using clear') reversed
  exact ⟨List.reverse_injective before, List.reverse_injective after⟩

/-- **Pieces behind delimiters are read back.**  The delimiter may have a tail, about which
nothing is assumed. -/
theorem eq_of_append_flatMap_eq (tail : List Char) {xs : List (List Char)} :
    ∀ {x y : List Char} {ys : List (List Char)}, c ∉ x → c ∉ y → (∀ t ∈ xs, c ∉ t) →
      (∀ t ∈ ys, c ∉ t) →
      x ++ xs.flatMap (fun t => c :: (tail ++ t)) = y ++ ys.flatMap (fun t => c :: (tail ++ t)) →
      x = y ∧ xs = ys := by
  induction xs with
  | nil =>
    intro x y ys clear _ _ _ same
    cases ys with
    | nil => simpa using same
    | cons t ys =>
      simp only [List.flatMap_nil, List.append_nil, List.flatMap_cons] at same
      exact absurd (same ▸ by simp) clear
  | cons s xs ih =>
    intro x y ys clear clear' pieces pieces' same
    cases ys with
    | nil =>
      simp only [List.flatMap_nil, List.append_nil, List.flatMap_cons] at same
      exact absurd (same ▸ by simp) clear'
    | cons t ys =>
      obtain ⟨clearS, pieces⟩ := List.forall_mem_cons.mp pieces
      obtain ⟨clearT, pieces'⟩ := List.forall_mem_cons.mp pieces'
      simp only [List.flatMap_cons, List.cons_append, List.append_assoc] at same
      obtain ⟨rfl, rest⟩ := append_cons_inj clear clear' same
      obtain ⟨rfl, rfl⟩ := ih clearS clearT pieces pieces' (List.append_cancel_left rest)
      exact ⟨rfl, rfl⟩

/-- Pieces with delimiters between them are a piece and more of them behind delimiters. -/
theorem intercalate_cons_eq {tail : List Char} (xs : List (List Char)) :
    ∀ x : List Char,
      (c :: tail).intercalate (x :: xs) = x ++ xs.flatMap fun t => c :: (tail ++ t) := by
  induction xs with
  | nil => simp
  | cons s xs ih =>
    intro x
    rw [List.intercalate_cons_cons, ih]
    simp

/-- What occurs in no piece and not in the delimiter does not occur. -/
theorem notMem_intercalate {α : Type} {a : α} {delimiter : List α} {xs : List (List α)}
    (clear : a ∉ delimiter) (pieces : ∀ t ∈ xs, a ∉ t) : a ∉ delimiter.intercalate xs := by
  induction xs with
  | nil => simp
  | cons x xs ih =>
    obtain ⟨clearX, clearXs⟩ := List.forall_mem_cons.mp pieces
    cases xs with
    | nil => simpa using clearX
    | cons y ys =>
      rw [List.intercalate_cons_cons]
      simp only [List.mem_append, not_or]
      exact ⟨⟨clearX, clear⟩, ih clearXs⟩

/-- **Pieces between delimiters are read back**, if there are any. -/
theorem eq_of_intercalate_eq {tail : List Char} {xs ys : List (List Char)} (some : xs ≠ [])
    (some' : ys ≠ []) (clear : ∀ t ∈ xs, c ∉ t) (clear' : ∀ t ∈ ys, c ∉ t)
    (same : (c :: tail).intercalate xs = (c :: tail).intercalate ys) : xs = ys := by
  obtain ⟨x, xs, rfl⟩ := List.exists_cons_of_ne_nil some
  obtain ⟨y, ys, rfl⟩ := List.exists_cons_of_ne_nil some'
  obtain ⟨clearX, clearXs⟩ := List.forall_mem_cons.mp clear
  obtain ⟨clearY, clearYs⟩ := List.forall_mem_cons.mp clear'
  rw [intercalate_cons_eq, intercalate_cons_eq] at same
  obtain ⟨rfl, rfl⟩ := eq_of_append_flatMap_eq tail clearX clearY clearXs clearYs same
  rfl

/-- Two runs of pieces that a test tells apart are read back. -/
theorem append_inj_of_forall {α : Type} (p : α → Bool) {xs xs' ys ys' : List α}
    (front : ∀ a ∈ xs, p a = true) (front' : ∀ a ∈ xs', p a = true)
    (back : ∀ a ∈ ys, p a = false) (back' : ∀ a ∈ ys', p a = false)
    (same : xs ++ ys = xs' ++ ys') : xs = xs' ∧ ys = ys' := by
  have selected : ∀ {xs ys : List α}, (∀ a ∈ xs, p a = true) → (∀ a ∈ ys, p a = false) →
      (xs ++ ys).filter p = xs := by
    intro xs ys front back
    have nothing : ys.filter p = [] := List.filter_eq_nil_iff.mpr (by simpa using back)
    rw [List.filter_append, List.filter_eq_self.mpr front, nothing, List.append_nil]
  have first : xs = xs' := by
    rw [← selected front back, same, selected front' back']
  subst first
  exact ⟨rfl, List.append_cancel_left same⟩

/-- Lists are equal if their printed items are, and each item is read back in its place. -/
theorem eq_of_map_eq {α β : Type} {print print' : α → β} {xs ys : List α}
    (same : xs.map print = ys.map print')
    (read : ∀ (place : Nat) (a b : α), xs[place]? = some a → ys[place]? = some b →
      print a = print' b → a = b) : xs = ys := by
  refine List.ext_getElem? fun place => ?_
  have here : xs[place]?.map print = ys[place]?.map print' := by
    rw [← List.getElem?_map, same, List.getElem?_map]
  cases atX : xs[place]? with
  | none =>
    rw [atX] at here
    exact (Option.map_eq_none_iff.mp here.symm).symm
  | some a =>
    rw [atX] at here
    obtain ⟨b, atY, printed⟩ := Option.map_eq_some_iff.mp here.symm
    rw [atY, read place a b atX atY printed.symm]

/-! ## Numbers -/

/-- What is not a digit is in no number. -/
theorem notMem_repr (other : c.isDigit = false) (n : Nat) : c ∉ n.repr.toList := by
  intro member
  rw [Nat.toList_repr] at member
  rw [Nat.isDigit_of_mem_toDigits (by decide) (by decide) member] at other
  cases other

/-- A number is read back from its digits. -/
theorem repr_inj {m n : Nat} (same : m.repr.toList = n.repr.toList) : m = n := by
  have digits : Nat.toDigits 10 m = Nat.toDigits 10 n := by
    simpa using same
  rw [← Nat.ofDigitChars_toDigits (by decide) (by decide) (n := m) (b := 10), digits,
    Nat.ofDigitChars_toDigits (by decide) (by decide)]

end LinearScan.Delimited
