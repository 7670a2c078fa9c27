import TestData.Proofs.UniqueMatch
import TestData.Strategy.Produce

namespace TestData

/-!
# Selecting by chance

Which candidate is selected may be up to chance; whether one is selected is not, if all candidates
are present.  Of several selectors one behind the other, chance may decide which of them are run,
but only where an absent candidate can be drawn: given some candidates, all of them present, a
random selector always draws one of them, and the selectors behind it are then not run.

What a selector may come to is told here without random generators.  A random selector may come to
any of its candidates, so the account covers every source of random numbers and every state of it.
-/

namespace Selector

variable {α : Type} {site : Site}

mutual

/-- The selector is composed of the library's own selectors; none of its parts is custom-made. -/
def Standard : Selector α → Prop
  | .first | .random .. | .unique _ => True
  | .compose selectors => AllStandard selectors
  | .custom _ => False

def AllStandard : List (Selector α) → Prop
  | [] => True
  | selector :: rest => selector.Standard ∧ AllStandard rest

end

/-! ## What may be selected -/

mutual

/-- With some numbers drawn at random, the selector comes to the outcome. -/
inductive MayGive (site : Site) (candidates : List (Option α)) :
    Selector α → Option α → Prop where
  | first {outcome : Option α} (found : firstPresent candidates = outcome) :
      MayGive site candidates .first outcome
  | drawn {outcome : Option α} (cell : Cell) (generator : Generator) (among : outcome ∈ candidates) :
      MayGive site candidates (.random cell generator) outcome
  | nothingToDraw (cell : Cell) (generator : Generator) (empty : candidates = []) :
      MayGive site candidates (.random cell generator) none
  | onlyMatch {matcher : Matcher α} {picked : α}
      (only : OnlyMatch (matcher.holdsAt site) candidates picked) :
      MayGive site candidates (.unique matcher) (some picked)
  | noOnlyMatch {matcher : Matcher α}
      (notOne : ∀ picked, ¬ OnlyMatch (matcher.holdsAt site) candidates picked) :
      MayGive site candidates (.unique matcher) none
  | compose {selectors : List (Selector α)} {outcome : Option α}
      (given : MayGiveFirst site candidates selectors outcome) :
      MayGive site candidates (.compose selectors) outcome
  | custom {choose : Site → List (Option α) → Option α} {outcome : Option α}
      (chosen : choose site candidates = outcome) : MayGive site candidates (.custom choose) outcome

/-- With some numbers drawn at random, the outcome is the first selection made by the selectors. -/
inductive MayGiveFirst (site : Site) (candidates : List (Option α)) :
    List (Selector α) → Option α → Prop where
  | nil : MayGiveFirst site candidates [] none
  | selected {selector : Selector α} {picked : α}
      (given : MayGive site candidates selector (some picked)) (rest : List (Selector α)) :
      MayGiveFirst site candidates (selector :: rest) (some picked)
  | passedOver {selector : Selector α} {rest : List (Selector α)} {outcome : Option α}
      (nothing : MayGive site candidates selector none)
      (given : MayGiveFirst site candidates rest outcome) :
      MayGiveFirst site candidates (selector :: rest) outcome

end

theorem mayGive_pickRandom (cell : Cell) (generator : Generator) (candidates : List (Option α))
    (store : Store) :
    MayGive site candidates (.random cell generator)
      (pickRandom cell generator candidates store).1 := by
  unfold pickRandom
  by_cases empty : candidates = []
  · rw [empty]
    exact .nothingToDraw cell generator rfl
  · have nonempty : candidates.isEmpty = false :=
      Bool.eq_false_iff.mpr fun none => empty (List.isEmpty_iff.mp none)
    let past := (store.draws.find? cell).getD []
    have inRange : generator.draw past candidates.length < candidates.length :=
      generator.draw_lt past (List.length_pos_iff.mpr empty)
    rw [nonempty]
    show MayGive site candidates (.random cell generator)
      candidates[generator.draw past candidates.length]?.join
    rw [List.getElem?_eq_getElem inRange]
    exact .drawn cell generator (List.getElem_mem inRange)

theorem mayGive_unique (matcher : Matcher α) (candidates : List (Option α)) (store : Store) :
    MayGive site candidates (.unique matcher)
      ((unique matcher).select site candidates store).1 := by
  have exactly := select_unique_eq_some_iff matcher site candidates store
  cases outcome : ((unique matcher).select site candidates store).1 with
  | some picked => exact .onlyMatch ((exactly picked).mp outcome)
  | none =>
      refine .noOnlyMatch fun picked only => ?_
      cases outcome.symm.trans ((exactly picked).mpr only)

mutual

/-- What a selector comes to is one of the outcomes it may come to, whatever happened before. -/
theorem mayGive_select (selector : Selector α) (site : Site) (candidates : List (Option α))
    (store : Store) : selector.MayGive site candidates (selector.select site candidates store).1 := by
  cases selector with
  | first => exact .first rfl
  | random cell generator => exact mayGive_pickRandom cell generator candidates store
  | unique matcher => exact mayGive_unique matcher candidates store
  | compose selectors => exact .compose (mayGiveFirst_selectFirst selectors site candidates store)
  | custom choose => exact .custom rfl

theorem mayGiveFirst_selectFirst (selectors : List (Selector α)) (site : Site)
    (candidates : List (Option α)) (store : Store) :
    MayGiveFirst site candidates selectors (selectFirst selectors site candidates store).1 := by
  cases selectors with
  | nil => exact .nil
  | cons selector rest =>
      have given := mayGive_select selector site candidates store
      rcases outcome : selector.select site candidates store with ⟨_ | picked, between⟩
      · rw [outcome] at given
        rw [selectFirst_of_none outcome]
        exact .passedOver given (mayGiveFirst_selectFirst rest site candidates between)
      · rw [outcome] at given
        rw [selectFirst_of_some outcome]
        exact .selected given rest

end

/-! ## What is selected is a candidate -/

theorem mem_of_firstPresent {candidates : List (Option α)} {picked : α}
    (found : firstPresent candidates = some picked) : some picked ∈ candidates := by
  rcases List.exists_of_findSome?_eq_some found with ⟨candidate, member, same⟩
  exact same ▸ member

theorem OnlyMatch.mem {accepts : α → Bool} {candidates : List (Option α)} {picked : α}
    (only : OnlyMatch accepts candidates picked) : some picked ∈ candidates := by
  rcases only with ⟨before, behind, rfl, -, -⟩
  exact List.mem_append_right before List.mem_cons_self

mutual

/-- A standard selector selects nothing but candidates that are present. -/
theorem MayGive.mem {selector : Selector α} {candidates : List (Option α)} {picked : α}
    (given : selector.MayGive site candidates (some picked)) (standard : selector.Standard) :
    some picked ∈ candidates := by
  cases given with
  | first found => exact mem_of_firstPresent found
  | drawn cell generator among => exact among
  | onlyMatch only => exact only.mem
  | compose given => exact MayGiveFirst.mem given standard
  | custom chosen => exact standard.elim

theorem MayGiveFirst.mem {selectors : List (Selector α)} {candidates : List (Option α)} {picked : α}
    (given : MayGiveFirst site candidates selectors (some picked))
    (standard : AllStandard selectors) : some picked ∈ candidates := by
  cases given with
  | selected given rest => exact MayGive.mem given standard.1
  | passedOver nothing given => exact MayGiveFirst.mem given standard.2

end

/-! ## Whether something is selected -/

mutual

/-- Whether the selector selects one of some candidates that are all present. -/
def finds (site : Site) (candidates : List α) : Selector α → Bool
  | .first | .random .. => !candidates.isEmpty
  | .unique matcher => candidates.countP (matcher.holdsAt site) == 1
  | .compose selectors => anyFinds site candidates selectors
  | .custom choose => (choose site (candidates.map some)).isSome

def anyFinds (site : Site) (candidates : List α) : List (Selector α) → Bool
  | [] => false
  | selector :: rest => selector.finds site candidates || anyFinds site candidates rest

end

theorem isSome_firstPresent (candidates : List α) :
    (firstPresent (candidates.map some)).isSome = !candidates.isEmpty := by
  cases candidates <;> rfl

/-- Of candidates that are all present, one is the only match if there is one match. -/
theorem exists_onlyMatch_iff (accepts : α → Bool) (candidates : List α) :
    (∃ picked, OnlyMatch accepts (candidates.map some) picked) ↔
      candidates.countP accepts = 1 := by
  have present : (candidates.map some).filterMap id = candidates := by simp
  rw [List.countP_eq_length_filter, List.length_eq_one_iff]
  exact exists_congr fun picked => by rw [← filter_eq_singleton_iff, present]

mutual

/-- Of candidates that are all present, chance decides at most which one is selected. -/
theorem MayGive.isSome_eq {selector : Selector α} {candidates : List α} {outcome : Option α}
    (given : selector.MayGive site (candidates.map some) outcome) :
    outcome.isSome = selector.finds site candidates := by
  cases given with
  | first found =>
      rw [← found, isSome_firstPresent]
      rfl
  | drawn cell generator among =>
      rcases List.mem_map.mp among with ⟨candidate, member, rfl⟩
      cases candidates with
      | nil => cases member
      | cons => rfl
  | nothingToDraw cell generator empty =>
      cases List.map_eq_nil_iff.mp empty
      rfl
  | onlyMatch only =>
      have one := (exists_onlyMatch_iff _ candidates).mp ⟨_, only⟩
      exact (beq_iff_eq.mpr one).symm
  | noOnlyMatch notOne =>
      have other := mt (exists_onlyMatch_iff _ candidates).mpr (not_exists.mpr notOne)
      exact (beq_eq_false_iff_ne.mpr other).symm
  | compose given => exact MayGiveFirst.isSome_eq given
  | custom chosen =>
      rw [← chosen]
      rfl

theorem MayGiveFirst.isSome_eq {selectors : List (Selector α)} {candidates : List α}
    {outcome : Option α} (given : MayGiveFirst site (candidates.map some) selectors outcome) :
    outcome.isSome = anyFinds site candidates selectors := by
  cases given with
  | nil => rfl
  | selected given rest =>
      rw [anyFinds, ← MayGive.isSome_eq given]
      rfl
  | passedOver nothing given =>
      rw [anyFinds, ← MayGive.isSome_eq nothing, MayGiveFirst.isSome_eq given]
      rfl

end

/-! ## Selecting from candidates that are all present -/

section SelectFrom

variable {selector : Selector α} {candidates : List α} {store : Store}

theorem mayGive_selectFrom (selector : Selector α) (site : Site) (candidates : List α)
    (store : Store) :
    selector.MayGive site (candidates.map some) (selector.selectFrom site candidates store).1 :=
  mayGive_select selector site (candidates.map some) store

/-- A selector picks one in every store or in none. -/
theorem isSome_selectFrom (selector : Selector α) (site : Site) (candidates : List α)
    (store other : Store) :
    (selector.selectFrom site candidates store).1.isSome =
      (selector.selectFrom site candidates other).1.isSome := by
  have here := mayGive_selectFrom selector site candidates store
  have there := mayGive_selectFrom selector site candidates other
  exact here.isSome_eq.trans there.isSome_eq.symm

theorem Standard.mem_of_selectFrom (standard : selector.Standard) {picked : α}
    (selected : (selector.selectFrom site candidates store).1 = some picked) :
    picked ∈ candidates := by
  have given := mayGive_selectFrom selector site candidates store
  rw [selected] at given
  rcases List.mem_map.mp (given.mem standard) with ⟨candidate, member, same⟩
  cases same
  exact member

end SelectFrom

/--
A run of a selector comes to one of the outcomes that some random numbers lead to.  Whatever they
are, a standard selector selects nothing but a candidate that is present; and if all candidates are
present, it selects one or none by what it is composed of, the site and the candidates alone.
-/
theorem selected_whatever_is_drawn {selector : Selector α} (standard : selector.Standard)
    (site : Site) :
    (∀ candidates store,
      selector.MayGive site candidates (selector.select site candidates store).1) ∧
    (∀ candidates picked, selector.MayGive site candidates (some picked) →
      some picked ∈ candidates) ∧
    ∀ candidates outcome, selector.MayGive site (candidates.map some) outcome →
      outcome.isSome = selector.finds site candidates := by
  refine ⟨mayGive_select selector site, ?present, ?certain⟩
  case present =>
    intro candidates picked given
    exact given.mem standard
  case certain =>
    intro candidates outcome given
    exact given.isSome_eq

/--
Two of the numbers are large, so neither is the only large one and some number is drawn instead, or
the first one is taken if an empty place is drawn.  Which one it is, is up to chance; that it is one
of the numbers is not.
-/
theorem number_selected_by_chance :
    let selector : Selector Nat :=
      .compose [.unique (.ofPredicate (2 < ·)), .compose [.random ⟨0⟩ (.ofSeed 42), .first]]
    selector.Standard ∧
    (∀ store, (selector.selectFrom .unknown [1, 5, 6] store).1.isSome = true) ∧
    ∀ store picked, (selector.select .unknown [none, some 5, some 6] store).1 = some picked →
      picked = 5 ∨ picked = 6 := by
  intro selector
  have standard : selector.Standard := ⟨trivial, ⟨trivial, trivial, trivial⟩, trivial⟩
  rcases selected_whatever_is_drawn standard .unknown with ⟨comes, present, certain⟩
  refine ⟨standard, fun store => ?_, fun store picked selected => ?_⟩
  · exact certain [1, 5, 6] _ (comes _ store)
  · have member := present _ picked (selected ▸ comes _ store)
    simpa using member

end Selector

namespace Strategy

open Selector

variable {selector : Selector Value} {site : Site} {type : TypeExpr}

/-- A constant is selected only if the type is an enum, from the constants that this declares. -/
theorem enum_of_chosenConstant {store : Store}
    (chosen : (chosenConstant selector site type store).1.isSome = true) :
    ∃ c, type.unwrap = some (.plain c) ∧
      chosenConstant selector site type = selector.selectFrom site c.constants := by
  revert chosen
  unfold chosenConstant
  rcases type.unwrap with _ | (c | _ | _ | _ | _)
  case some.plain =>
    dsimp only
    cases c.isEnum with
    | true => exact fun _ => ⟨c, rfl, rfl⟩
    | false => exact fun chosen => absurd chosen Bool.false_ne_true
  all_goals exact fun chosen => absurd chosen Bool.false_ne_true

/--
What a strategy for enums with a standard selector has accepted, it gives at any later time: a
constant of the enum, though it runs its selector anew.
-/
theorem constant_of_accepts_enumValue (standard : selector.Standard) {before accepted : Store}
    (accepts : (enumValue selector).accepts site type before = (true, accepted)) (host : Host)
    (store : Store) :
    ∃ c value after, type.unwrap = some (.plain c) ∧ value ∈ c.constants ∧
      (enumValue selector).produce host site type store = .ok value after := by
  have chosen : (chosenConstant selector site type before).1.isSome = true :=
    congrArg Prod.fst accepts
  rcases enum_of_chosenConstant chosen with ⟨c, uses, runs⟩
  rw [runs, isSome_selectFrom selector site c.constants before store] at chosen
  rcases outcome : selector.selectFrom site c.constants store with ⟨_ | value, after⟩
  · rw [outcome] at chosen
    cases chosen
  · have selected : (selector.selectFrom site c.constants store).1 = some value :=
      congrArg Prod.fst outcome
    have here : Run.ofStep (chosenConstant selector site type) store = .ok (some value) after := by
      rw [Run.ofStep_apply, runs, outcome]
    exact ⟨c, value, after, uses, standard.mem_of_selectFrom selected, Run.bind_of_ok here⟩

end Strategy
end TestData
