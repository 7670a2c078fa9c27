import TestData.Selector

namespace TestData

/-!
# Selecting the only match

The selector for the only match asks its matcher about the candidates that are present, in order and
each of them once, and stops right behind a second match.  What it selects is a candidate that
matches while none at another place does, even if it is the same one again.  Selectors one behind
the other are run until one of them makes a selection, which is theirs then; those behind it are
not run.
-/

namespace Store

/-- The store when some more probes have been passed, in order, and nothing else has happened. -/
def passing (store : Store) (probes : List String) : Store :=
  { store with trace := (probes.map Event.probed).reverse ++ store.trace }

theorem heed_eq (verdict : Verdict) (store : Store) :
    heed verdict store = (verdict.holds, store.passing verdict.probes) := rfl

theorem passing_append (store : Store) (first second : List String) :
    store.passing (first ++ second) = (store.passing first).passing second := by
  simp only [passing, List.map_append, List.reverse_append, List.append_assoc]

end Store

/-- The answer of a matcher, without the probes. -/
def Matcher.holdsAt {α : Type} (matcher : Matcher α) (site : Site) (candidate : α) : Bool :=
  (matcher site candidate).holds

namespace Selector

variable {α : Type} {matcher : Matcher α} {site : Site} {candidate picked : α}

/-! ## The candidates that are asked about -/

section Search

variable {rest : List α}

theorem onlyMatch_of_miss (declines : matcher.holdsAt site candidate = false) (found : Option α)
    (store : Store) :
    onlyMatch matcher site found (candidate :: rest) store =
      onlyMatch matcher site found rest (store.passing (matcher site candidate).probes) := by
  unfold Matcher.holdsAt at declines
  cases found <;>
    simp only [onlyMatch, bind, StateT.bind, Store.heed_eq, declines, Bool.false_eq_true, if_false]

theorem onlyMatch_of_first (accepts : matcher.holdsAt site candidate = true) (store : Store) :
    onlyMatch matcher site none (candidate :: rest) store =
      onlyMatch matcher site (some candidate) rest
        (store.passing (matcher site candidate).probes) := by
  unfold Matcher.holdsAt at accepts
  simp only [onlyMatch, bind, StateT.bind, Store.heed_eq, accepts, if_true]

theorem onlyMatch_of_second (accepts : matcher.holdsAt site candidate = true) (found : α)
    (store : Store) :
    onlyMatch matcher site (some found) (candidate :: rest) store =
      (none, store.passing (matcher site candidate).probes) := by
  unfold Matcher.holdsAt at accepts
  simp only [onlyMatch, bind, StateT.bind, Store.heed_eq, accepts, if_true]
  rfl

end Search

/--
A search that may come across so many matches asks about the first list of candidates and leaves
out the second one: nothing is left out, or the last of those that are asked about is one match too
many.
-/
inductive StopsPast (accepts : α → Bool) (matching : Nat) : List α → List α → Prop where
  | never {asked : List α} (few : asked.countP accepts ≤ matching) :
      StopsPast accepts matching asked []
  | behind {before : List α} {last : α} (full : before.countP accepts = matching)
      (more : accepts last = true) (unasked : List α) :
      StopsPast accepts matching (before ++ [last]) unasked

namespace StopsPast

variable {accepts : α → Bool} {matching : Nat} {asked unasked : List α}

theorem miss (stops : StopsPast accepts matching asked unasked)
    (declined : accepts candidate = false) :
    StopsPast accepts matching (candidate :: asked) unasked := by
  have same (list : List α) : (candidate :: list).countP accepts = list.countP accepts :=
    List.countP_cons_of_neg (Bool.eq_false_iff.mp declined)
  cases stops with
  | never few => exact .never (Nat.le_trans (Nat.le_of_eq (same asked)) few)
  | behind full more => exact .behind ((same _).trans full) more unasked

theorem hit (stops : StopsPast accepts matching asked unasked)
    (accepted : accepts candidate = true) :
    StopsPast accepts (matching + 1) (candidate :: asked) unasked := by
  have more (list : List α) : (candidate :: list).countP accepts = list.countP accepts + 1 :=
    List.countP_cons_of_pos accepted
  cases stops with
  | never few => exact .never (Nat.le_trans (Nat.le_of_eq (more asked)) (Nat.succ_le_succ few))
  | behind full further =>
      exact .behind ((more _).trans (congrArg Nat.succ full)) further unasked

theorem now (accepted : accepts candidate = true) (unasked : List α) :
    StopsPast accepts 0 [candidate] unasked :=
  behind (List.countP_nil) accepted unasked

end StopsPast

/--
The probes of the verdicts on some candidates, in order.  With a matcher that leaves a probe for
each candidate they tell which candidates it was asked about.
-/
def probesOf (matcher : Matcher α) (site : Site) (asked : List α) : List String :=
  asked.flatMap fun candidate => (matcher site candidate).probes

theorem passing_probesOf_cons (store : Store) (candidate : α) (asked : List α) :
    store.passing (probesOf matcher site (candidate :: asked)) =
      (store.passing (matcher site candidate).probes).passing (probesOf matcher site asked) := by
  rw [probesOf, List.flatMap_cons, Store.passing_append]
  rfl

/-- With a match in hand the search stops behind the next one. -/
theorem onlyMatch_some_asks (matcher : Matcher α) (site : Site) (found : α)
    (candidates : List α) (store : Store) :
    ∃ asked unasked, candidates = asked ++ unasked ∧
      StopsPast (matcher.holdsAt site) 0 asked unasked ∧
      (onlyMatch matcher site (some found) candidates store).2 =
        store.passing (probesOf matcher site asked) := by
  induction candidates generalizing store with
  | nil => exact ⟨[], [], rfl, .never (Nat.le_refl 0), rfl⟩
  | cons candidate rest ih =>
      cases answer : matcher.holdsAt site candidate with
      | true =>
          refine ⟨[candidate], rest, rfl, StopsPast.now answer rest, ?_⟩
          rw [onlyMatch_of_second answer, passing_probesOf_cons]
          rfl
      | false =>
          rcases ih (store.passing (matcher site candidate).probes) with
            ⟨asked, unasked, split, stops, after⟩
          refine ⟨candidate :: asked, unasked, congrArg _ split, stops.miss answer, ?_⟩
          rw [onlyMatch_of_miss answer, after, passing_probesOf_cons]

/-- The search stops behind the second match. -/
theorem onlyMatch_none_asks (matcher : Matcher α) (site : Site) (candidates : List α)
    (store : Store) :
    ∃ asked unasked, candidates = asked ++ unasked ∧
      StopsPast (matcher.holdsAt site) 1 asked unasked ∧
      (onlyMatch matcher site none candidates store).2 =
        store.passing (probesOf matcher site asked) := by
  induction candidates generalizing store with
  | nil => exact ⟨[], [], rfl, .never (Nat.zero_le 1), rfl⟩
  | cons candidate rest ih =>
      cases answer : matcher.holdsAt site candidate with
      | true =>
          have further := onlyMatch_some_asks matcher site candidate rest
            (store.passing (matcher site candidate).probes)
          rcases further with ⟨asked, unasked, split, stops, after⟩
          refine ⟨candidate :: asked, unasked, congrArg _ split, stops.hit answer, ?_⟩
          rw [onlyMatch_of_first answer, after, passing_probesOf_cons]
      | false =>
          rcases ih (store.passing (matcher site candidate).probes) with
            ⟨asked, unasked, split, stops, after⟩
          refine ⟨candidate :: asked, unasked, congrArg _ split, stops.miss answer, ?_⟩
          rw [onlyMatch_of_miss answer, after, passing_probesOf_cons]

/-! ## The candidate that is selected -/

/-- A candidate is present and matches, and none at another place does. -/
def OnlyMatch (accepts : α → Bool) (candidates : List (Option α)) (picked : α) : Prop :=
  ∃ before behind, candidates = before ++ some picked :: behind ∧ accepts picked = true ∧
    ∀ other, some other ∈ before ++ behind → accepts other = false

theorem noMatch_iff (accepts : α → Bool) (candidates : List (Option α)) :
    (∀ candidate ∈ candidates, candidate.filter accepts = none) ↔
      ∀ other, some other ∈ candidates → accepts other = false := by
  constructor
  · intro declined other member
    exact Bool.eq_false_iff.mpr (Option.filter_eq_none_iff.mp (declined _ member) other rfl)
  · intro declined candidate member
    apply Option.filter_eq_none_iff.mpr
    rintro other rfl
    exact Bool.eq_false_iff.mp (declined other member)

theorem filter_eq_singleton_iff (accepts : α → Bool) (candidates : List (Option α)) (picked : α) :
    (candidates.filterMap id).filter accepts = [picked] ↔ OnlyMatch accepts candidates picked := by
  rw [List.filter_filterMap, List.filterMap_eq_cons_iff]
  constructor
  · rintro ⟨before, candidate, behind, split, noneBefore, found, noneBehind⟩
    rcases Option.filter_eq_some_iff.mp found with ⟨rfl, accepted⟩
    refine ⟨before, behind, split, accepted, (noMatch_iff accepts _).mp ?_⟩
    exact List.forall_mem_append.mpr ⟨noneBefore, List.filterMap_eq_nil_iff.mp noneBehind⟩
  · rintro ⟨before, behind, split, accepted, others⟩
    rcases List.forall_mem_append.mp ((noMatch_iff accepts _).mpr others) with
      ⟨noneBefore, noneBehind⟩
    exact ⟨before, some picked, behind, split, noneBefore,
      Option.filter_eq_some_iff.mpr ⟨rfl, accepted⟩, List.filterMap_eq_nil_iff.mpr noneBehind⟩

/-- The selector for the only match selects the only match, and nothing if there is none. -/
theorem select_unique_eq_some_iff (matcher : Matcher α) (site : Site)
    (candidates : List (Option α)) (store : Store) (picked : α) :
    ((unique matcher).select site candidates store).1 = some picked ↔
      OnlyMatch (matcher.holdsAt site) candidates picked := by
  have answer := onlyMatch_answer matcher site none (candidates.filterMap id) store
  rw [← filter_eq_singleton_iff, select, answer]
  have same : (candidates.filterMap id).filter (fun c => (matcher site c).holds) =
      (candidates.filterMap id).filter (matcher.holdsAt site) := rfl
  rw [same]
  rcases (candidates.filterMap id).filter (matcher.holdsAt site) with _ | ⟨only, _ | ⟨second, rest⟩⟩
  · exact ⟨nofun, nofun⟩
  · constructor
    · rintro ⟨⟩
      rfl
    · rintro ⟨⟩
      rfl
  · exact ⟨nofun, nofun⟩

/-! ## Selectors one behind the other -/

variable {selector : Selector α} {selectors : List (Selector α)}
  {candidates : List (Option α)} {store between after : Store}

/-- Selectors that are run one after the other and select nothing, and the stores in between. -/
inductive PassedOver (site : Site) (candidates : List (Option α)) :
    List (Selector α) → Store → Store → Prop where
  | nil (store : Store) : PassedOver site candidates [] store store
  | cons {selector : Selector α} {selectors : List (Selector α)} {store between after : Store}
      (nothing : selector.select site candidates store = (none, between))
      (rest : PassedOver site candidates selectors between after) :
      PassedOver site candidates (selector :: selectors) store after

theorem selectFirst_of_some
    (selected : selector.select site candidates store = (some picked, after))
    (selectors : List (Selector α)) :
    selectFirst (selector :: selectors) site candidates store = (some picked, after) := by
  simp only [selectFirst, bind, StateT.bind, selected]
  rfl

theorem selectFirst_of_none (nothing : selector.select site candidates store = (none, between))
    (selectors : List (Selector α)) :
    selectFirst (selector :: selectors) site candidates store =
      selectFirst selectors site candidates between := by
  simp only [selectFirst, bind, StateT.bind, nothing]

/-- What is selected is the first selection that is made, and nothing happens behind it. -/
theorem selectFirst_eq_some_iff :
    selectFirst selectors site candidates store = (some picked, after) ↔
      ∃ before selector behind between, selectors = before ++ selector :: behind ∧
        PassedOver site candidates before store between ∧
        selector.select site candidates between = (some picked, after) := by
  induction selectors generalizing store with
  | nil =>
      constructor
      · intro selected
        cases selected
      · rintro ⟨before, _, _, _, split, -⟩
        cases before <;> cases split
  | cons head rest ih =>
      rcases outcome : head.select site candidates store with ⟨_ | found, middle⟩
      · rw [selectFirst_of_none outcome, ih]
        constructor
        · rintro ⟨before, selector, behind, between, rfl, passed, selected⟩
          exact ⟨head :: before, selector, behind, between, rfl, .cons outcome passed, selected⟩
        · rintro ⟨before, selector, behind, between, split, passed, selected⟩
          cases passed with
          | nil =>
              cases split
              cases outcome.symm.trans selected
          | cons nothing passed =>
              cases split
              cases outcome.symm.trans nothing
              exact ⟨_, selector, behind, between, rfl, passed, selected⟩
      · rw [selectFirst_of_some outcome]
        constructor
        · rintro ⟨⟩
          exact ⟨[], head, rest, store, rfl, .nil store, outcome⟩
        · rintro ⟨before, selector, behind, between, split, passed, selected⟩
          cases passed with
          | nil =>
              cases split
              exact outcome.symm.trans selected
          | cons nothing passed =>
              cases split
              cases outcome.symm.trans nothing

/-- Nothing is selected if all the selectors have been run and none has made a selection. -/
theorem selectFirst_eq_none_iff :
    selectFirst selectors site candidates store = (none, after) ↔
      PassedOver site candidates selectors store after := by
  induction selectors generalizing store with
  | nil =>
      constructor
      · rintro ⟨⟩
        exact .nil _
      · rintro ⟨⟩
        rfl
  | cons head rest ih =>
      rcases outcome : head.select site candidates store with ⟨_ | found, middle⟩
      · rw [selectFirst_of_none outcome, ih]
        constructor
        · exact .cons outcome
        · rintro (_ | ⟨nothing, passed⟩)
          cases outcome.symm.trans nothing
          exact passed
      · rw [selectFirst_of_some outcome]
        constructor
        · intro none
          cases none
        · rintro (_ | ⟨nothing, -⟩)
          cases outcome.symm.trans nothing

/--
The selector for the only match selects a candidate exactly if that is present and matches and none
at another place does.  It asks about the candidates that are present from the first one on, each
once, until the second match or the end; that these probes are passed is all that happens.  Of
selectors one behind the other the first selection counts: those in front of it have been run and
have selected nothing, and those behind it are not run.
-/
theorem only_match_selected (matcher : Matcher α) (site : Site) (candidates : List (Option α))
    (store : Store) :
    (∀ picked, ((unique matcher).select site candidates store).1 = some picked ↔
      OnlyMatch (matcher.holdsAt site) candidates picked) ∧
    (∃ asked unasked, candidates.filterMap id = asked ++ unasked ∧
      StopsPast (matcher.holdsAt site) 1 asked unasked ∧
      ((unique matcher).select site candidates store).2 =
        store.passing (probesOf matcher site asked)) ∧
    (∀ selectors picked after,
      (compose selectors).select site candidates store = (some picked, after) ↔
        ∃ before selector behind between, selectors = before ++ selector :: behind ∧
          PassedOver site candidates before store between ∧
          selector.select site candidates between = (some picked, after)) ∧
    (∀ selectors after, (compose selectors).select site candidates store = (none, after) ↔
      PassedOver site candidates selectors store after) := by
  refine ⟨select_unique_eq_some_iff matcher site candidates store, ?asks, ?selects, ?passes⟩
  case asks =>
    rw [select]
    exact onlyMatch_none_asks matcher site (candidates.filterMap id) store
  case selects =>
    intro selectors picked after
    rw [select]
    exact selectFirst_eq_some_iff
  case passes =>
    intro selectors after
    rw [select]
    exact selectFirst_eq_none_iff

end Selector
end TestData
