import LinearScan.Bank.Cache
import LinearScan.Proofs.Position
import LinearScan.Proofs.Target.Identity

/-!
# Sharing catalogs changes no answer

A cache answers calls one after the other, and each answer may come from a catalog that was
built for an earlier call.  `CatalogCache.answers` is such a conversation.  Seen from outside it
is the same as building every catalog anew (`CatalogCache.answers_eq_build`), except that equal
targets get one and the same catalog.

`CatalogCache.Call` says once what a call can do.  The invariant is `CatalogCache.Faithful`: a
catalog in the cache was built for a target that had its key, and no key occurs twice.  That the
catalog also suits *another* target of the same key is not the cache's doing.  It is because a
target can be read back from its identity, and it is where names without marks are needed.
-/

namespace LinearScan.CatalogCache

variable {cache : CatalogCache} {target : Target} {targets history : List Target}

/-! ## Conversations with a cache -/

/-- The cache that a call leaves. -/
def after (cache : CatalogCache) (target : Target) : CatalogCache :=
  (fetchM target).leaves cache

/-- The cache behind calls made one after the other. -/
def afterAll (cache : CatalogCache) (targets : List Target) : CatalogCache :=
  targets.foldl after cache

/-- The answers to calls made one after the other. -/
def answers (cache : CatalogCache) : List Target → List (Except CatalogError FetchedCatalog)
  | [] => []
  | target :: rest => cache.fetch target :: (cache.after target).answers rest

/-- **All that a call can do.** -/
inductive Call (cache : CatalogCache) (target : Target) :
    EStateM.Result CatalogError CatalogCache SharedCatalog → Prop
  /-- A catalog stands under the target's identity. -/
  | shared {slot : Nat} {catalog : Catalog}
      (found : cache.slots[slot]? = some (target.identity, catalog)) :
      Call cache target (.ok { catalog, slot, events := [] } cache)
  /-- There is none, and one is built. -/
  | built {catalog : Catalog} (absent : target.identity ∉ cache.slots.map Prod.fst)
      (done : Catalog.build target = .ok catalog) :
      Call cache target (.ok
        { catalog, slot := cache.slots.length, events := [catalog.builtEvent] }
        ⟨cache.slots ++ [(target.identity, catalog)]⟩)
  /-- There is none, and none can be built. -/
  | failed (absent : target.identity ∉ cache.slots.map Prod.fst) {error : CatalogError}
      (failure : Catalog.build target = .error error) : Call cache target (.error error cache)

/-- What a request does whose identity is not in the cache is up to the catalog. -/
theorem run_fetchM_of_absent
    (place : cache.slots.findIdx? (·.1 == target.identity) = none) :
    (fetchM target).run cache =
      match Catalog.build target with
      | .ok catalog => .ok
        { catalog, slot := cache.slots.length, events := [catalog.builtEvent] }
        ⟨cache.slots ++ [(target.identity, catalog)]⟩
      | .error error => .error error cache := by
  rw [fetchM, EStateM.run_bind, EStateM.run_get]
  simp only [place]
  cases Catalog.build target <;> rfl

/-- A request whose identity is in the cache is answered from there. -/
theorem run_fetchM_of_found {slot : Nat} {catalog : Catalog}
    (place : cache.slots.findIdx? (·.1 == target.identity) = some slot)
    (found : cache.slots[slot]? = some (target.identity, catalog)) :
    (fetchM target).run cache = .ok { catalog, slot, events := [] } cache := by
  rw [fetchM, EStateM.run_bind, EStateM.run_get]
  simp only [List.find?_eq_bind_findIdx?_getElem?, place, Option.bind_some, found]
  rfl

/-- A request for a catalog does one of the three. -/
theorem call_fetchM (cache : CatalogCache) (target : Target) :
    Call cache target ((fetchM target).run cache) := by
  cases place : cache.slots.findIdx? (·.1 == target.identity) with
  | some slot =>
    obtain ⟨inside, same, -⟩ := List.findIdx?_eq_some_iff_getElem.mp place
    have found : cache.slots[slot]? = some (target.identity, cache.slots[slot].2) := by
      rw [List.getElem?_eq_getElem inside, ← beq_iff_eq.mp same]
    rw [run_fetchM_of_found place found]
    exact .shared found
  | none =>
    have absent : target.identity ∉ cache.slots.map Prod.fst := by
      intro member
      obtain ⟨slot, isSlot, same⟩ := List.mem_map.mp member
      have differs := List.findIdx?_eq_none_iff.mp place slot isSlot
      simp [same] at differs
    rw [run_fetchM_of_absent place]
    cases built : Catalog.build target with
    | ok catalog => exact .built absent built
    | error error => exact .failed absent built

theorem run_of_fetch_ok {fetched : FetchedCatalog} (done : cache.fetch target = .ok fetched) :
    (fetchM target).run cache = .ok fetched.toSharedCatalog fetched.cache := by
  unfold fetch at done
  cases answered : (fetchM target).answer cache with
  | error error =>
    rw [answered] at done
    cases done
  | ok answer =>
    rw [answered] at done
    obtain rfl := Except.ok.inj done
    exact Request.answer_eq_ok_iff.mp answered

theorem run_of_fetch_error {error : CatalogError} (failed : cache.fetch target = .error error) :
    ∃ left, (fetchM target).run cache = .error error left := by
  unfold fetch at failed
  cases answered : (fetchM target).answer cache with
  | ok answer =>
    rw [answered] at failed
    cases failed
  | error error =>
    rw [answered] at failed
    obtain rfl := Except.error.inj failed
    exact Request.answer_eq_error_iff.mp answered

/-- **A call that fails leaves the cache as it was.** -/
theorem after_of_error {error : CatalogError} (failed : cache.fetch target = .error error) :
    cache.after target = cache := by
  obtain ⟨left, refused⟩ := run_of_fetch_error failed
  have call := call_fetchM cache target
  rw [refused] at call
  cases call with
  | failed absent failure => exact Request.leaves_of_run_error refused

/-- A call that succeeds leaves the cache that it hands on. -/
theorem after_of_ok {fetched : FetchedCatalog} (done : cache.fetch target = .ok fetched) :
    cache.after target = fetched.cache :=
  Request.leaves_of_run_ok (run_of_fetch_ok done)

/-- The catalog of a call that succeeds stands in its slot afterwards. -/
theorem getElem?_after {fetched : FetchedCatalog} (done : cache.fetch target = .ok fetched) :
    (cache.after target).slots[fetched.slot]? = some (target.identity, fetched.catalog) := by
  rw [after_of_ok done]
  have call := call_fetchM cache target
  rw [run_of_fetch_ok done] at call
  obtain ⟨shared, left⟩ := fetched
  cases call with
  | shared found => exact found
  | built absent done => exact List.getElem?_concat_length

/-- No call moves a catalog that is in the cache. -/
theorem slots_prefix_after (cache : CatalogCache) (target : Target) :
    cache.slots <+: (cache.after target).slots := by
  have call := call_fetchM cache target
  unfold after Request.leaves
  generalize (fetchM target).run cache = result at call
  cases call with
  | shared found => exact List.prefix_rfl
  | built absent done => exact List.prefix_append _ _
  | failed absent failure => exact List.prefix_rfl

/-- No sequence of calls moves a catalog that is in the cache. -/
theorem slots_prefix_afterAll (targets : List Target) :
    ∀ cache : CatalogCache, cache.slots <+: (cache.afterAll targets).slots := by
  induction targets with
  | nil => exact fun _ => List.prefix_rfl
  | cons target rest ih =>
    exact fun cache => (slots_prefix_after cache target).trans (ih (cache.after target))

/-- **Slots are for good**: the catalog of a call stands in its slot, under the identity of its
target, when all calls have been made. -/
theorem getElem?_afterAll {index : Nat} {fetched : FetchedCatalog} :
    ∀ {cache : CatalogCache} {targets : List Target},
      targets[index]? = some target → (cache.answers targets)[index]? = some (.ok fetched) →
      (cache.afterAll targets).slots[fetched.slot]? = some (target.identity, fetched.catalog) := by
  induction index with
  | zero =>
    intro cache targets isTarget answer
    cases targets with
    | nil => cases isTarget
    | cons first rest =>
      obtain rfl := Option.some.inj isTarget
      exact getElem?_of_beginning (slots_prefix_afterAll rest _)
        (getElem?_after (Option.some.inj answer))
  | succ index ih =>
    intro cache targets isTarget answer
    cases targets with
    | nil => cases isTarget
    | cons first rest => exact @ih (cache.after first) rest isTarget answer

/-! ## The invariant -/

/-- **What is in a cache belongs there**: every catalog was built for a target that was asked
for under its key, and no key occurs twice. -/
structure Faithful (history : List Target) (cache : CatalogCache) : Prop where
  origin : ∀ slot ∈ cache.slots,
    ∃ target ∈ history, target.identity = slot.1 ∧ Catalog.build target = .ok slot.2
  distinct : (cache.slots.map Prod.fst).Nodup

theorem faithful_empty : Faithful [] empty where
  origin := by simp [empty]
  distinct := List.nodup_nil

/-- **One call** keeps a cache faithful. -/
theorem Faithful.after (faithful : Faithful history cache) (target : Target) :
    Faithful (history ++ [target]) (cache.after target) := by
  have older : ∀ slot ∈ cache.slots, ∃ other ∈ history ++ [target],
      other.identity = slot.1 ∧ Catalog.build other = .ok slot.2 := by
    intro slot member
    obtain ⟨other, asked, belongs⟩ := faithful.origin slot member
    exact ⟨other, List.mem_append_left _ asked, belongs⟩
  have call := call_fetchM cache target
  unfold CatalogCache.after Request.leaves
  generalize (fetchM target).run cache = result at call
  cases call with
  | shared found => exact ⟨older, faithful.distinct⟩
  | failed absent failure => exact ⟨older, faithful.distinct⟩
  | built absent done =>
    refine ⟨?_, ?_⟩
    · intro slot member
      rcases List.mem_append.mp member with old | new
      · exact older slot old
      · obtain rfl := List.mem_singleton.mp new
        exact ⟨target, List.mem_append_right _ List.mem_cons_self, rfl, done⟩
    · rw [List.map_append]
      exact List.nodup_append_comm.mp (List.nodup_cons.mpr ⟨absent, faithful.distinct⟩)

/-- **Any sequence of calls** keeps a cache faithful. -/
theorem Faithful.afterAll (targets : List Target) :
    ∀ {history : List Target} {cache : CatalogCache}, Faithful history cache →
      Faithful (history ++ targets) (cache.afterAll targets) := by
  induction targets with
  | nil =>
    intro history cache faithful
    rw [List.append_nil]
    exact faithful
  | cons target rest ih =>
    intro history cache faithful
    have faithful' := ih (faithful.after target)
    rw [List.append_assoc] at faithful'
    exact faithful'

/-- **A call is answered as if nothing had been cached**, if targets can be read back from their
identities. -/
theorem Faithful.map_catalog_fetch (faithful : Faithful history cache)
    (reachable : ∀ other ∈ history ++ [target], other.Reachable)
    (readable : ∀ other ∈ history ++ [target], other.Readable) :
    (cache.fetch target).map (·.catalog) = Catalog.build target := by
  have itself : target ∈ history ++ [target] := List.mem_append_right _ List.mem_cons_self
  have call := call_fetchM cache target
  unfold fetch Request.answer
  generalize (fetchM target).run cache = result at call
  cases call with
  | @shared slot catalog found =>
    obtain ⟨other, asked, sameIdentity, done⟩ :=
      faithful.origin _ (List.mem_of_getElem? found)
    have isAsked := List.mem_append_left [target] asked
    have same : other = target := Target.eq_of_identity_eq (reachable other isAsked)
      (reachable target itself) (readable other isAsked) (readable target itself) sameIdentity
    rw [← same, done]
    rfl
  | built absent done => exact done.symm
  | failed absent failure => exact failure.symm

/-- **A conversation is answered as if nothing had been cached.** -/
theorem Faithful.map_catalog_answers (targets : List Target) :
    ∀ {history : List Target} {cache : CatalogCache}, Faithful history cache →
      (∀ target ∈ history ++ targets, target.Reachable) →
      (∀ target ∈ history ++ targets, target.Readable) →
      (cache.answers targets).map (Except.map (·.catalog)) =
        targets.map Catalog.build := by
  induction targets with
  | nil => exact fun _ _ _ => rfl
  | cons target rest ih =>
    intro history cache faithful reachable readable
    rw [List.append_cons] at reachable readable
    have first := faithful.map_catalog_fetch
      (fun other member => reachable other (List.mem_append_left _ member))
      (fun other member => readable other (List.mem_append_left _ member))
    rw [answers, List.map_cons, List.map_cons, first]
    exact congrArg (Catalog.build target :: ·) (ih (faithful.after target) reachable readable)

/-- **Transparency.**  In every conversation with a cache that was empty at first, each call gets
what building the catalog of its own target gives, be it a catalog or an error; two calls share
a catalog exactly if their targets are the same; a catalog stays in its slot for good; and a
call for a target without a catalog leaves the cache as it was. -/
theorem answers_eq_build (reachable : ∀ target ∈ targets, target.Reachable)
    (readable : ∀ target ∈ targets, target.Readable) :
    (empty.answers targets).map (Except.map (·.catalog)) = targets.map Catalog.build ∧
    (∀ (index index' : Nat) (fetched fetched' : FetchedCatalog),
      (empty.answers targets)[index]? = some (.ok fetched) →
      (empty.answers targets)[index']? = some (.ok fetched') →
      (fetched.slot = fetched'.slot ↔ targets[index]? = targets[index']?)) ∧
    (∀ (index : Nat) (target : Target) (fetched : FetchedCatalog), targets[index]? = some target →
      (empty.answers targets)[index]? = some (.ok fetched) →
      (empty.afterAll targets).slots[fetched.slot]? = some (target.identity, fetched.catalog)) ∧
    (∀ (history : List Target) (target : Target) (error : CatalogError),
      history ++ [target] <+: targets → Catalog.build target = .error error →
      empty.afterAll (history ++ [target]) = empty.afterAll history) := by
  have transparent : (empty.answers targets).map (Except.map (·.catalog)) =
      targets.map Catalog.build := faithful_empty.map_catalog_answers targets reachable readable
  have faithful : Faithful targets (empty.afterAll targets) := faithful_empty.afterAll targets
  have exists_target : ∀ {index : Nat} {fetched : FetchedCatalog},
      (empty.answers targets)[index]? = some (.ok fetched) →
      ∃ target, targets[index]? = some target := by
    intro index fetched answer
    have here := congrArg (·[index]?) transparent
    simp only [List.getElem?_map, answer, Option.map_some] at here
    obtain ⟨target, isTarget, -⟩ := Option.map_eq_some_iff.mp here.symm
    exact ⟨target, isTarget⟩
  refine ⟨transparent, ?_, ?_, ?_⟩
  · intro index index' fetched fetched' answer answer'
    obtain ⟨target, isTarget⟩ := exists_target answer
    obtain ⟨target', isTarget'⟩ := exists_target answer'
    have inSlot := getElem?_afterAll isTarget answer
    have inSlot' := getElem?_afterAll isTarget' answer'
    rw [isTarget, isTarget', Option.some.injEq]
    constructor
    · intro sameSlot
      rw [sameSlot, inSlot', Option.some.injEq, Prod.mk.injEq] at inSlot
      have member := List.mem_of_getElem? isTarget
      have member' := List.mem_of_getElem? isTarget'
      exact Target.eq_of_identity_eq (reachable _ member) (reachable _ member')
        (readable _ member) (readable _ member') inSlot.1.symm
    · rintro rfl
      -- One key has one slot.
      have key := congrArg (Option.map Prod.fst) inSlot
      have key' := congrArg (Option.map Prod.fst) inSlot'
      rw [← List.getElem?_map] at key key'
      exact (List.getElem?_inj (List.getElem?_eq_some_iff.mp key).1 faithful.distinct).mp
        (key.trans key'.symm)
  · intro index target fetched isTarget answer
    exact getElem?_afterAll isTarget answer
  · intro history target error beginning failure
    have faithful : Faithful history (empty.afterAll history) := faithful_empty.afterAll history
    have answer := faithful.map_catalog_fetch
      (fun other member => reachable other (beginning.subset member))
      (fun other member => readable other (beginning.subset member))
    rw [failure] at answer
    cases fetched : (empty.afterAll history).fetch target with
    | ok fetched =>
      rw [fetched] at answer
      cases answer
    | error error' =>
      rw [afterAll, List.foldl_concat]
      exact after_of_error fetched

/-- Two targets of one name, the first of which is asked for twice, and one without a catalog. -/
def sampleCalls : List Target :=
  [.halved, ⟨"bare", .ofBuilder .parted, []⟩, .whole, .halved]

/-- The first and the last call share a catalog, and the one between them has its own. -/
theorem answers_eq_build_sampleCalls :
    (∀ target ∈ sampleCalls, target.Reachable) ∧ (∀ target ∈ sampleCalls, target.Readable) ∧
      (empty.answers sampleCalls).map (Except.map (·.catalog)) =
        [.ok (.filled .halved), .error (.noAllocatableRegister "bare"), .ok (.filled .whole),
          .ok (.filled .halved)] ∧
      ∃ first second third, (empty.answers sampleCalls)[0]? = some (.ok first) ∧
        (empty.answers sampleCalls)[2]? = some (.ok second) ∧
        (empty.answers sampleCalls)[3]? = some (.ok third) ∧
        first.slot = third.slot ∧ first.slot ≠ second.slot := by
  have reachable : ∀ target ∈ sampleCalls, target.Reachable := by
    have bare : Target.make "bare" (.ofBuilder .parted) [] = .ok ⟨"bare", .ofBuilder .parted, []⟩ :=
      rfl
    simp only [sampleCalls, List.forall_mem_cons]
    exact ⟨Target.reachable_halved, .make (.build RegisterBuilder.reachable_parted) bare,
      Target.reachable_whole, Target.reachable_halved, by simp⟩
  have readable : ∀ target ∈ sampleCalls, target.Readable := by
    simp only [sampleCalls, List.forall_mem_cons]
    refine ⟨⟨by decide, by decide, ?_⟩, ⟨by decide, by decide, by simp⟩,
      ⟨by decide, by decide, ?_⟩, ⟨by decide, by decide, ?_⟩, by simp⟩
    all_goals simp [Target.halved, Target.whole, TypePredicate.builtin]
  have built : sampleCalls.map Catalog.build = [.ok (.filled .halved),
      .error (.noAllocatableRegister "bare"), .ok (.filled .whole), .ok (.filled .halved)] := by
    have halved : Catalog.build .halved = .ok (.filled .halved) := Catalog.build_of_served rfl
    have whole : Catalog.build .whole = .ok (.filled .whole) := Catalog.build_of_served rfl
    simp only [sampleCalls, List.map_cons, List.map_nil, halved, whole]
    rfl
  obtain ⟨transparent, shares, -, -⟩ := answers_eq_build reachable readable
  rw [built] at transparent
  have answer : ∀ (index : Nat) (catalog : Catalog),
      [.ok (.filled .halved), .error (.noAllocatableRegister "bare"), .ok (.filled .whole),
        .ok (.filled .halved)][index]? = some (Except.ok (ε := CatalogError) catalog) →
      ∃ fetched, (empty.answers sampleCalls)[index]? = some (.ok fetched) := by
    intro index catalog found
    rw [← transparent, List.getElem?_map] at found
    obtain ⟨answer, isAnswer, done⟩ := Option.map_eq_some_iff.mp found
    cases answer with
    | error error => cases done
    | ok fetched => exact ⟨fetched, isAnswer⟩
  obtain ⟨first, atFirst⟩ := answer 0 _ rfl
  obtain ⟨second, atSecond⟩ := answer 2 _ rfl
  obtain ⟨third, atThird⟩ := answer 3 _ rfl
  have differ : Target.halved ≠ .whole := by
    intro same
    have flag := congrArg (fun target : Target => target.registers.isUsable ⟨0⟩) same
    revert flag
    decide
  refine ⟨reachable, readable, transparent, first, second, third, atFirst, atSecond, atThird,
    (shares 0 3 first third atFirst atThird).mpr rfl, ?_⟩
  intro same
  exact differ (Option.some.inj ((shares 0 2 first second atFirst atSecond).mp same))

end LinearScan.CatalogCache
