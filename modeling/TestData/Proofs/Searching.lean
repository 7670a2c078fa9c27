import TestData.Strategy.Accept
import TestData.Strategy.Inject

namespace TestData

/-!
# Searching for candidates

A search asks matchers about candidates and may draw from random generators.  Nothing
else happens to the store: probes are traced, and generators move on, those of the
selector and no others.  Which search it is does not matter for that, so it is shown of
every step that is made of asking and drawing.
-/

namespace Selector

variable {α : Type}

mutual

/-- The selector draws from the generators of these cells only. -/
def Uses (cells : Cell → Prop) : Selector α → Prop
  | .random cell _ => cells cell
  | .compose selectors => AllUse cells selectors
  | .first | .unique _ | .custom _ => True

def AllUse (cells : Cell → Prop) : List (Selector α) → Prop
  | [] => True
  | selector :: rest => selector.Uses cells ∧ AllUse cells rest

end

mutual

theorem uses_all (selector : Selector α) : selector.Uses fun _ => True := by
  cases selector with
  | compose selectors => exact allUse_all selectors
  | first | random | unique | custom => exact trivial

theorem allUse_all (selectors : List (Selector α)) : AllUse (fun _ => True) selectors := by
  cases selectors with
  | nil => exact trivial
  | cons selector rest => exact ⟨uses_all selector, allUse_all rest⟩

end

mutual

theorem Uses.mono {selector : Selector α} {cells more : Cell → Prop} (uses : selector.Uses cells)
    (within : ∀ cell, cells cell → more cell) : selector.Uses more := by
  cases selector with
  | random cell generator => exact within cell uses
  | compose selectors => exact AllUse.mono uses within
  | first | unique | custom => exact trivial

theorem AllUse.mono {selectors : List (Selector α)} {cells more : Cell → Prop}
    (use : AllUse cells selectors) (within : ∀ cell, cells cell → more cell) :
    AllUse more selectors := by
  cases selectors with
  | nil => exact trivial
  | cons selector rest => exact ⟨Uses.mono use.1 within, AllUse.mono use.2 within⟩

end

end Selector

namespace Store

/-- Generators of these cells may have moved on and probes may have been passed, but that is all. -/
structure Searched (cells : Cell → Prop) (before after : Store) : Prop where
  rest : after = { before with draws := after.draws, trace := after.trace }
  draws {cell : Cell} :
    ¬ cells cell → after.draws.find? cell = before.draws.find? cell
  trace : ∃ names : List String, after.trace = names.map Event.probed ++ before.trace

namespace Searched

variable {cells : Cell → Prop} {before between after : Store}

theorem refl (store : Store) : Searched cells store store :=
  ⟨rfl, fun _ => rfl, [], rfl⟩

theorem trans (first : Searched cells before between) (second : Searched cells between after) :
    Searched cells before after where
  rest := by rw [second.rest, first.rest]
  draws other := (second.draws other).trans (first.draws other)
  trace := by
    rcases first.trace with ⟨early, earlyTrace⟩
    rcases second.trace with ⟨late, lateTrace⟩
    exact ⟨late ++ early, by rw [lateTrace, earlyTrace, List.map_append, List.append_assoc]⟩

theorem heed (verdict : Verdict) (store : Store) :
    Searched cells store (Store.heed verdict store).2 :=
  ⟨rfl, fun _ => rfl, verdict.probes.reverse, by rw [List.map_reverse]; rfl⟩

theorem draw {cell : Cell} (own : cells cell) (generator : Generator) (bound : Nat)
    (store : Store) :
    Searched cells store (Store.draw cell generator bound store).2 where
  rest := rfl
  draws {other} foreign := by
    have apart : other ≠ cell := fun same => foreign (same ▸ own)
    exact store.draws.find?_insert_of_ne _ apart
  trace := ⟨[], rfl⟩

end Searched
end Store

/-- The step asks matchers and draws from the generators of these cells. -/
inductive Step.Searching (cells : Cell → Prop) : {α : Type} → Step α → Prop where
  | pure {α : Type} (result : α) : Searching cells (Pure.pure result : Step α)
  | bind {α β : Type} {step : Step α} {next : α → Step β} (first : Searching cells step)
      (second : ∀ result, Searching cells (next result)) : Searching cells (step >>= next)
  | heed (verdict : Verdict) : Searching cells (Store.heed verdict)
  | draw {cell : Cell} (own : cells cell) (generator : Generator) (bound : Nat) :
      Searching cells (Store.draw cell generator bound)

namespace Step

variable {α : Type} {cells : Cell → Prop}

theorem Searching.searched {step : Step α} (searching : Searching cells step) (store : Store) :
    Store.Searched cells store (step store).2 := by
  induction searching generalizing store with
  | pure result => exact .refl store
  | bind first second begins goesOn => exact (begins store).trans (goesOn _ _)
  | heed verdict => exact .heed verdict store
  | draw own generator bound => exact .draw own generator bound store

theorem searching_onlyMatch (matcher : Matcher α) (site : Site) (found : Option α)
    (candidates : List α) : Searching cells (Selector.onlyMatch matcher site found candidates) := by
  induction candidates generalizing found with
  | nil => cases found <;> exact .pure _
  | cons candidate rest ih =>
      cases found with
      | none =>
          refine .bind (.heed _) fun holds => ?_
          cases holds
          · exact ih none
          · exact ih (some candidate)
      | some found =>
          refine .bind (.heed _) fun holds => ?_
          cases holds
          · exact ih (some found)
          · exact .pure none

theorem searching_pickRandom {cell : Cell} (own : cells cell) (generator : Generator)
    (candidates : List (Option α)) :
    Searching cells (Selector.pickRandom cell generator candidates) := by
  unfold Selector.pickRandom
  split
  · exact .pure none
  · exact .bind (.draw own generator _) fun index => .pure _

mutual

theorem searching_select {selector : Selector α} (uses : selector.Uses cells) (site : Site)
    (candidates : List (Option α)) : Searching cells (selector.select site candidates) := by
  cases selector with
  | first => exact .pure _
  | random cell generator => exact searching_pickRandom uses generator candidates
  | unique matcher => exact searching_onlyMatch matcher site none _
  | compose selectors => exact searching_selectFirst uses site candidates
  | custom choose => exact .pure _

theorem searching_selectFirst {selectors : List (Selector α)}
    (uses : Selector.AllUse cells selectors) (site : Site) (candidates : List (Option α)) :
    Searching cells (Selector.selectFirst selectors site candidates) := by
  cases selectors with
  | nil => exact .pure none
  | cons selector rest =>
      refine .bind (searching_select uses.1 site candidates) fun picked => ?_
      cases picked with
      | none => exact searching_selectFirst uses.2 site candidates
      | some found => exact .pure (some found)

end

theorem searching_chosenConstant {selector : Selector Value} (uses : selector.Uses cells)
    (site : Site) (type : TypeExpr) :
    Searching cells (Strategy.chosenConstant selector site type) := by
  unfold Strategy.chosenConstant
  split
  · split
    · exact searching_select uses site _
    · exact .pure none
  · exact .pure none

theorem searching_matchingMethods (matcher : Matcher Method) (site : Site) (met : List Signature)
    (methods : List Method) :
    Searching cells (Enhancer.matchingMethods matcher site met methods) := by
  induction methods generalizing met with
  | nil => exact .pure []
  | cons m rest ih =>
      refine .bind (.heed _) fun holds => ?_
      cases holds with
      | false => exact ih met
      | true =>
          by_cases known : m.signature ∈ met
          · simpa [known] using ih met
          · simpa [known] using .bind (ih (m.signature :: met)) fun _ => .pure _

theorem searching_methodsToCall (matcher : Matcher Method) (site : Site) (type : TypeExpr) :
    Searching cells (Enhancer.methodsToCall matcher site type) := by
  unfold Enhancer.methodsToCall
  split
  · exact searching_matchingMethods matcher site [] _
  · exact .pure []

end Step
end TestData
