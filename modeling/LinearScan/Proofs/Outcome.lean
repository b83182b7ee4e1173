import LinearScan.Fault
import Mathlib.Data.List.Induction
import Mathlib.Data.List.Nodup

/-!
# Computations that may fail

The library's operations end in a value or in an error, and longer ones are chains of
shorter ones.  Proofs take such chains apart from the outside: a chain that ends in a value
has a first link that does (`bind_eq_ok`), and what every link keeps, the chain keeps
(`foldlM_induction`, and `numbered_induction` where the steps are counted).

`Corresponds` compares two computations that are meant to do the same on different data:
both end in related values, or both fail alike.  `Parallel` is for two that may run out of
something at different times.

At the end stand the two ways to look at a `Request`, by its answer and by the state that it
leaves, and what a pass does that keeps items in the order of their first occurrence.
-/

namespace LinearScan.Outcome

variable {ε φ α β γ δ : Type}

/-- A chain ends in a value exactly if both its parts do. -/
theorem bind_eq_ok {x : Except ε α} {f : α → Except ε β} {b : β} :
    x >>= f = .ok b ↔ ∃ a, x = .ok a ∧ f a = .ok b := by
  cases x with
  | error e => simp [bind, Except.bind]
  | ok a => simp [bind, Except.bind]

/-- A chain fails where one of its parts does. -/
theorem bind_eq_error {x : Except ε α} {f : α → Except ε β} {e : ε} :
    x >>= f = .error e ↔ x = .error e ∨ ∃ a, x = .ok a ∧ f a = .error e := by
  cases x with
  | error e => simp [bind, Except.bind]
  | ok a => simp [bind, Except.bind]

/-- A value that is returned is the outcome. -/
theorem pure_eq_ok {a b : α} : (pure a : Except ε α) = .ok b ↔ a = b := by
  simp [pure, Except.pure]

/-- An error may be put in other words; a value stays. -/
theorem mapError_eq_ok {x : Except ε α} {translate : ε → φ} {a : α} :
    x.mapError translate = .ok a ↔ x = .ok a := by
  cases x with
  | error e => simp [Except.mapError]
  | ok b => simp [Except.mapError]

/-- What each step of a fold keeps, the fold keeps. -/
theorem foldlM_induction {motive : β → Prop} {f : β → α → Except ε β} {items : List α}
    (step : ∀ {b a b'}, a ∈ items → motive b → f b a = .ok b' → motive b') :
    ∀ {b b'}, motive b → items.foldlM f b = .ok b' → motive b' := by
  induction items with
  | nil =>
    intro b b' holds done
    obtain rfl := pure_eq_ok.mp done
    exact holds
  | cons item rest ih =>
    intro b b' holds done
    rw [List.foldlM_cons] at done
    obtain ⟨middle, first, others⟩ := bind_eq_ok.mp done
    exact ih (fun member => step (List.mem_cons_of_mem _ member))
      (step List.mem_cons_self holds first) others

/-- **Induction over numbered steps.**  The motive speaks of the items that are done; a step
knows that they and its own item are the beginning of all items. -/
theorem numbered_induction {run : β → Nat → List α → Except ε β} {step : β → Nat → α → Except ε β}
    (run_nil : ∀ b number, run b number [] = .ok b)
    (run_cons : ∀ b number a rest,
      run b number (a :: rest) = step b number a >>= fun b => run b (number + 1) rest)
    {motive : List α → β → Prop} (items : List α)
    (keeps : ∀ done a b b', done ++ [a] <+: items → motive done b →
      step b done.length a = .ok b' → motive (done ++ [a]) b')
    {b b' : β} (initial : motive [] b) (completed : run b 0 items = .ok b') : motive items b' := by
  suffices general : ∀ (rest done : List α) (b : β), done ++ rest = items → motive done b →
      run b done.length rest = .ok b' → motive items b' from
    general items [] b rfl initial completed
  intro rest
  induction rest with
  | nil =>
    intro done b whole holds completed
    rw [run_nil] at completed
    obtain rfl := Except.ok.inj completed
    rw [List.append_nil] at whole
    exact whole ▸ holds
  | cons a rest ih =>
    intro done b whole holds completed
    rw [run_cons] at completed
    obtain ⟨middle, first, others⟩ := bind_eq_ok.mp completed
    have longer : done ++ [a] ++ rest = items := by
      rw [List.append_assoc]
      exact whole
    refine ih (done ++ [a]) middle longer ?_ ?_
    · exact keeps done a b middle ⟨rest, longer⟩ holds first
    · rw [List.length_append, List.length_singleton]
      exact others

/-- Numbered steps may be interrupted at any point. -/
theorem numbered_append {run : β → Nat → List α → Except ε β} {step : β → Nat → α → Except ε β}
    (run_nil : ∀ b number, run b number [] = .ok b)
    (run_cons : ∀ b number a rest,
      run b number (a :: rest) = step b number a >>= fun b => run b (number + 1) rest)
    (items others : List α) :
    ∀ (b : β) (number : Nat), run b number (items ++ others) =
      run b number items >>= fun b => run b (number + items.length) others := by
  induction items with
  | nil =>
    intro b number
    rw [run_nil]
    rfl
  | cons a rest ih =>
    intro b number
    rw [List.cons_append, run_cons, run_cons, bind_assoc]
    refine congrArg _ (funext fun middle => ?_)
    rw [ih, List.length_cons, Nat.add_assoc, Nat.add_comm 1]

/-- A check of several items passes only if it passes for each. -/
theorem forM_eq_ok {check : α → Except ε Unit} {items : List α}
    (passed : items.forM check = .ok ()) : ∀ a ∈ items, check a = .ok () := by
  induction items with
  | nil => simp
  | cons item rest ih =>
    obtain ⟨⟨⟩, first, others⟩ := bind_eq_ok.mp passed
    exact List.forall_mem_cons.mpr ⟨first, ih others⟩

/-- A check of several items fails with the error of one of them. -/
theorem exists_of_forM_eq_error {check : α → Except ε Unit} {items : List α} {e : ε}
    (failed : items.forM check = .error e) : ∃ a ∈ items, check a = .error e := by
  induction items with
  | nil => cases failed
  | cons item rest ih =>
    rcases bind_eq_error.mp failed with first | ⟨-, -, others⟩
    · exact ⟨item, List.mem_cons_self, first⟩
    · obtain ⟨a, member, fails⟩ := ih others
      exact ⟨a, List.mem_cons_of_mem _ member, fails⟩

/-- A check of several items passes if it passes for each. -/
theorem forM_of_forall {check : α → Except ε Unit} {items : List α}
    (passed : ∀ a ∈ items, check a = .ok ()) : items.forM check = .ok () := by
  induction items with
  | nil => rfl
  | cons item rest ih =>
    obtain ⟨first, others⟩ := List.forall_mem_cons.mp passed
    exact bind_eq_ok.mpr ⟨(), first, ih others⟩

/-! ## Searches whose tests may fail -/

/-- A search whose tests are plain on all items is a plain search. -/
theorem findM?_eq_pure {m : Type → Type} [Monad m] [LawfulMonad m] {items : List α}
    {test : α → m Bool} {p : α → Bool} (passes : ∀ a ∈ items, test a = pure (p a)) :
    items.findM? test = pure (items.find? p) := by
  induction items with
  | nil => rfl
  | cons a rest ih =>
    obtain ⟨first, others⟩ := List.forall_mem_cons.mp passes
    rw [List.findM?, first, pure_bind, List.find?_cons]
    cases p a with
    | true => rfl
    | false => exact ih others

/-- A search for a value whose tests all pass is a search with plain tests. -/
theorem findSomeM?_eq_ok {items : List α} {test : α → Except ε (Option β)} {f : α → Option β}
    (passes : ∀ a ∈ items, test a = .ok (f a)) :
    items.findSomeM? test = .ok (items.findSome? f) := by
  induction items with
  | nil => rfl
  | cons a rest ih =>
    obtain ⟨first, others⟩ := List.forall_mem_cons.mp passes
    rw [List.findSomeM?, first, List.findSome?_cons]
    cases f a with
    | some b => rfl
    | none => exact ih others

/-- A disjunction whose tests all pass is a disjunction of plain tests. -/
theorem anyM_eq_ok {items : List α} {test : α → Except ε Bool} {p : α → Bool}
    (passes : ∀ a ∈ items, test a = .ok (p a)) : items.anyM test = .ok (items.any p) := by
  induction items with
  | nil => rfl
  | cons a rest ih =>
    obtain ⟨first, others⟩ := List.forall_mem_cons.mp passes
    rw [List.anyM, first, List.any_cons]
    cases p a with
    | true => rfl
    | false => exact ih others

/-- A selection whose tests all pass is a selection with plain tests. -/
theorem filterM_eq_ok {items : List α} {test : α → Except ε Bool} {p : α → Bool}
    (passes : ∀ a ∈ items, test a = .ok (p a)) : items.filterM test = .ok (items.filter p) := by
  have general : ∀ chosen : List α,
      items.filterAuxM test chosen = .ok ((items.filter p).reverse ++ chosen) := by
    induction items with
    | nil => exact fun _ => rfl
    | cons a rest ih =>
      intro chosen
      obtain ⟨first, others⟩ := List.forall_mem_cons.mp passes
      rw [List.filterAuxM, first, List.filter_cons]
      show rest.filterAuxM test (cond (p a) (a :: chosen) chosen) = _
      rw [ih others]
      cases p a with
      | true => simp
      | false => rfl
  rw [List.filterM, general]
  simp [bind, Except.bind, pure, Except.pure]

/-- Items that can be read back one by one are all read back. -/
theorem mapM_map_eq_ok {items : List α} {f : α → β} {g : β → Except ε α}
    (readBack : ∀ a ∈ items, g (f a) = .ok a) : (items.map f).mapM g = .ok items := by
  induction items with
  | nil => rfl
  | cons a rest ih =>
    obtain ⟨first, others⟩ := List.forall_mem_cons.mp readBack
    rw [List.map_cons, List.mapM_cons, first, ih others]
    rfl

/-- Both computations end in related values, or both fail with related errors. -/
def Corresponds (related : α → β → Prop) (failure : ε → φ → Prop) :
    Except ε α → Except φ β → Prop
  | .ok a, .ok b => related a b
  | .error e, .error f => failure e f
  | _, _ => False

/-- What corresponds to a computation that ends in a value ends in a related one. -/
theorem Corresponds.exists_of_ok {related : α → β → Prop} {failure : ε → φ → Prop} {a : α}
    {y : Except φ β} (same : Corresponds related failure (.ok a) y) :
    ∃ b, y = .ok b ∧ related a b := by
  cases y with
  | error e => exact same.elim
  | ok b => exact ⟨b, rfl, same⟩

/-- What a computation that ends in a value corresponds to ends in a related one. -/
theorem Corresponds.exists_of_ok_right {related : α → β → Prop} {failure : ε → φ → Prop}
    {x : Except ε α} {b : β} (same : Corresponds related failure x (.ok b)) :
    ∃ a, x = .ok a ∧ related a b := by
  cases x with
  | error e => exact same.elim
  | ok a => exact ⟨a, rfl, same⟩

/-- Chains correspond if their first parts do, and from there their second parts. -/
theorem Corresponds.bind {related : α → β → Prop} {related' : γ → δ → Prop}
    {failure : ε → φ → Prop} {x : Except ε α} {y : Except φ β} {f : α → Except ε γ}
    {g : β → Except φ δ} (first : Corresponds related failure x y)
    (second : ∀ a b, related a b → Corresponds related' failure (f a) (g b)) :
    Corresponds related' failure (x >>= f) (y >>= g) := by
  cases x with
  | error e =>
    cases y with
    | error e' => exact first
    | ok b => exact first.elim
  | ok a =>
    cases y with
    | error e' => exact first.elim
    | ok b => exact second a b first

/-- Related errors may be compared as they are written on the right. -/
theorem Corresponds.mapError {related : α → β → Prop} {x : Except ε α} {y : Except φ β}
    {translate : ε → φ}
    (same : Corresponds related (fun error failure => translate error = failure) x y) :
    Corresponds related (· = ·) (x.mapError translate) y := by
  cases x with
  | error e =>
    cases y with
    | error f => exact same
    | ok b => exact same
  | ok a =>
    cases y with
    | error f => exact same
    | ok b => exact same

/-- What is the same of related values is the same of the outcomes. -/
theorem Corresponds.map_eq {related : α → β → Prop} {x : Except ε α} {y : Except ε β} {f : α → γ}
    {g : β → γ} (same : Corresponds related (· = ·) x y)
    (agree : ∀ a b, related a b → f a = g b) : x.map f = y.map g := by
  cases x with
  | error e =>
    cases y with
    | error e' => exact congrArg Except.error same
    | ok b => exact same.elim
  | ok a =>
    cases y with
    | error e' => exact same.elim
    | ok b => exact congrArg Except.ok (agree a b same)

/-- Both computations end in related values, or one of them fails.  Under the given condition they
fail alike. -/
def Parallel (related : α → β → Prop) (alike : Prop) : Except ε α → Except ε β → Prop
  | .ok a, .ok b => related a b
  | .error e, .error f => alike → e = f
  | _, _ => ¬ alike

/-- Chains run in parallel if their first parts do, and from there their second parts. -/
theorem Parallel.bind {related : α → β → Prop} {related' : γ → δ → Prop} {alike : Prop}
    {x : Except ε α} {y : Except ε β} {f : α → Except ε γ} {g : β → Except ε δ}
    (first : Parallel related alike x y)
    (second : ∀ a b, related a b → Parallel related' alike (f a) (g b)) :
    Parallel related' alike (x >>= f) (y >>= g) := by
  cases x with
  | error e =>
    cases y with
    | error e' => exact first
    | ok b =>
      -- One has failed already, so whatever the other does is no matter.
      show Parallel related' alike (.error e) (g b)
      cases g b with
      | error e' => exact fun isAlike => absurd isAlike first
      | ok d => exact first
  | ok a =>
    cases y with
    | error e' =>
      show Parallel related' alike (f a) (.error e')
      cases f a with
      | error e => exact fun isAlike => absurd isAlike first
      | ok c => exact first
    | ok b => exact second a b first

/-- Under the condition, parallel computations correspond. -/
theorem Parallel.corresponds {related : α → β → Prop} {alike : Prop} {x : Except ε α}
    {y : Except ε β}
    (parallel : Parallel related alike x y) (isAlike : alike) :
    Corresponds related (· = ·) x y := by
  cases x with
  | error e =>
    cases y with
    | error e' => exact parallel isAlike
    | ok b => exact parallel isAlike
  | ok a =>
    cases y with
    | error e' => exact parallel isAlike
    | ok b => exact parallel

end LinearScan.Outcome

namespace LinearScan

/-! ## Requests -/

namespace Request

variable {ε σ α : Type} {request : Request ε σ α} {state left : σ} {a : α} {error : ε}

/-- A request that is answered leaves the state beside the answer. -/
theorem leaves_of_run_ok (done : request.run state = .ok a left) :
    request.leaves state = left := by
  rw [leaves, done]

/-- A request that is refused leaves the state beside the error. -/
theorem leaves_of_run_error (refused : request.run state = .error error left) :
    request.leaves state = left := by
  rw [leaves, refused]

theorem answer_eq_ok_iff :
    request.answer state = .ok (a, left) ↔ request.run state = .ok a left := by
  unfold answer
  cases request.run state <;> simp

theorem answer_eq_error_iff :
    request.answer state = .error error ↔ ∃ left, request.run state = .error error left := by
  unfold answer
  cases request.run state <;> simp

end Request

/-! ## First occurrences -/

variable {α : Type} [BEq α] [LawfulBEq α] {items : List α} {item : α}

/-- An item that has occurred before is dropped. -/
theorem eraseDups_concat_of_mem (member : item ∈ items) :
    (items ++ [item]).eraseDups = items.eraseDups := by
  simp [List.eraseDups_append, List.removeAll, member]

/-- An item that has not occurred before is kept, behind the others. -/
theorem eraseDups_concat_of_notMem (absent : item ∉ items) :
    (items ++ [item]).eraseDups = items.eraseDups ++ [item] := by
  simp [List.eraseDups_append, List.removeAll, List.eraseDups_cons, absent]

/-- Nothing is left twice. -/
theorem nodup_eraseDups (items : List α) : items.eraseDups.Nodup := by
  induction items using List.reverseRecOn with
  | nil => exact List.nodup_nil
  | append_singleton items item ih =>
    by_cases member : item ∈ items
    · rw [eraseDups_concat_of_mem member]
      exact ih
    · rw [eraseDups_concat_of_notMem member, ← List.concat_eq_append]
      exact ih.concat fun again => member (List.mem_eraseDups.mp again)

end LinearScan
