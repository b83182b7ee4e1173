/-!
# Positions in a list

Programs and intervals are met from the front, one at a time, and are referred to by their
positions.  What has been met is a list that grows at its end, and the beginning of the whole;
what has not is what is left behind a position.
-/

namespace LinearScan

universe u

variable {α : Type u} {items others : List α} {item : α} {position : Nat}

/-- What holds of an item of a longer list holds of an old one, or of the new one. -/
theorem exists_getElem?_concat {holds : α → Prop} :
    (∃ other, (items ++ [item])[position]? = some other ∧ holds other) ↔
      (∃ other, items[position]? = some other ∧ holds other) ∨
        position = items.length ∧ holds item := by
  rcases Nat.lt_trichotomy position items.length with before | here | behind
  · rw [List.getElem?_append_left before]
    simp [Nat.ne_of_lt before]
  · subst here
    simp
  · have beyond : (items ++ [item])[position]? = none := by
      apply List.getElem?_eq_none
      rw [List.length_append, List.length_singleton]
      exact behind
    rw [beyond, List.getElem?_eq_none (Nat.le_of_lt behind)]
    simp [Nat.ne_of_gt behind]

/-- The beginning of a list has the list's items. -/
theorem getElem?_of_beginning (beginning : items <+: others)
    (found : items[position]? = some item) : others[position]? = some item := by
  obtain ⟨rest, rfl⟩ := beginning
  rw [List.getElem?_append_left (List.getElem?_eq_some_iff.mp found).1]
  exact found

/-- What is left of a list starts with the item at the position. -/
theorem of_drop_eq_cons (left : items.drop position = item :: others) :
    items[position]? = some item ∧ items.drop (position + 1) = others := by
  constructor
  · rw [← List.head?_drop, left]
    rfl
  · rw [← List.tail_drop, left]
    rfl

end LinearScan
