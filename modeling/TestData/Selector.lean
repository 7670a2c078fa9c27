import TestData.Run.Store

namespace TestData

/-!
# Selectors

A selector picks at most one of a list of candidates, in the context of a site.
Candidates may be absent; an absent candidate keeps its place in the list but is
never selected.

A selector here looks at the site and the candidates alone.  One that asks for stubs
while it selects may come back to the strategy it selects for; what is settled on then
is told of any way of picking, in whichever store it ends (`TestData.Proofs.Reentry`).
-/

/-- A way of choosing among candidates. -/
inductive Selector (α : Type) where
  | first
  | random (cell : Cell) (generator : Generator)
  | unique (matcher : Matcher α)
  | compose (selectors : List (Selector α))
  | custom (choose : Site → List (Option α) → Option α)

namespace Selector

variable {α : Type}

/-- A random selector of its own, starting from a seed. -/
def seeded (seed : UInt64) : Step (Selector α) := do
  return .random (← Store.newCell) (.ofSeed seed)

/-- Picks the last candidate that is present. -/
def last : Selector α :=
  .custom fun _ candidates => (candidates.filterMap id).getLast?

/-- Never picks anything. -/
def nothing : Selector α :=
  .custom fun _ _ => none

/-- The first candidate that is present. -/
def firstPresent (candidates : List (Option α)) : Option α :=
  candidates.findSome? id

/--
Look for the only candidate that matches, given the one that matched so far.  The
search ends at a second match, and then nothing is selected.
-/
def onlyMatch (matcher : Matcher α) (site : Site) : Option α → List α → Step (Option α)
  | found, [] => return found
  | none, candidate :: candidates => do
      if ← Store.heed (matcher site candidate) then
        onlyMatch matcher site (some candidate) candidates
      else onlyMatch matcher site none candidates
  | some found, candidate :: candidates => do
      if ← Store.heed (matcher site candidate) then return none
      else onlyMatch matcher site (some found) candidates

/--
What is selected is the only candidate that matches, if there is exactly one; how far
the search went shows in the trace alone.
-/
theorem onlyMatch_answer (matcher : Matcher α) (site : Site) (found : Option α)
    (candidates : List α) (store : Store) :
    (onlyMatch matcher site found candidates store).1 =
      match found.toList ++ candidates.filter fun c => (matcher site c).holds with
      | [only] => some only
      | _ => none := by
  induction candidates generalizing found store with
  | nil => cases found <;> rfl
  | cons candidate rest ih =>
      rw [List.filter_cons]
      cases answer : (matcher site candidate).holds with
      | true =>
          cases found with
          | none =>
              simp only [onlyMatch, Store.heed, bind, StateT.bind, answer, ↓reduceIte]
              rw [ih]
              rfl
          | some other => simp [onlyMatch, Store.heed, bind, StateT.bind, answer]; rfl
      | false =>
          cases found <;>
            simp only [onlyMatch, Store.heed, bind, StateT.bind, answer, Bool.false_eq_true,
              ↓reduceIte] <;>
            exact ih _ _

/-- A candidate at a random position; if the one there is absent, nothing is selected. -/
def pickRandom (cell : Cell) (generator : Generator) (candidates : List (Option α)) :
    Step (Option α) := do
  if candidates.isEmpty then return none
  else
    let index ← Store.draw cell generator candidates.length
    return candidates[index]?.join

mutual

/-- The candidate a selector picks. -/
def select : Selector α → Site → List (Option α) → Step (Option α)
  | .first, _, candidates => return firstPresent candidates
  | .random cell generator, _, candidates => pickRandom cell generator candidates
  | .unique matcher, site, candidates =>
      onlyMatch matcher site none (candidates.filterMap id)
  | .compose selectors, site, candidates => selectFirst selectors site candidates
  | .custom choose, site, candidates => return choose site candidates

/-- The first pick of several selectors; the selectors behind it are not run. -/
def selectFirst : List (Selector α) → Site → List (Option α) → Step (Option α)
  | [], _, _ => return none
  | selector :: selectors, site, candidates => do
      match ← select selector site candidates with
      | some picked => return some picked
      | none => selectFirst selectors site candidates

end

/-- The candidate a selector picks when all candidates are present. -/
def selectFrom (selector : Selector α) (site : Site) (candidates : List α) :
    Step (Option α) :=
  selector.select site (candidates.map some)

end Selector
end TestData
