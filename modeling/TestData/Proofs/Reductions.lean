import Mathlib.Logic.Relation
import TestData.Proofs.Termination.Weight
import TestData.Type.Visitor

namespace TestData

/-!
# Two ways of reducing wildcards

Some strategies replace a wildcard by the bound it is used through, round after round, until
something else is left; they give up at a wildcard that has no such bound.  The others visit the
type and go on to the bound of a wildcard within the visit; where there is none they take the top
class.  No round of the first way changes what the second one finds, so the two agree on every type,
and the top class is found exactly where nothing is left.
-/

/-- The visitor for the class behind a type; `again` is what it makes of the bound of a wildcard. -/
def TypeVisitor.rawClasses (again : TypeExpr → Option Class) : TypeVisitor (Option Class) where
  plain := some some
  parameterized := some fun raw _ => some raw
  wildcard := some fun upper lower =>
    match TypeExpr.bound? upper lower with
    | some bound => again bound
    | none => some .object
  var := some fun _ _ => none
  genericArray := some fun _ => none

namespace TypeExpr

variable {type next last front : TypeExpr}

/-! ## Visiting -/

theorem visit_rawClasses_wildcard (again : TypeExpr → Option Class) (upper lower : List TypeExpr) :
    (TypeVisitor.rawClasses again).visit (.wildcard upper lower) =
      .ok (match bound? upper lower with
        | some bound => again bound
        | none => some .object) := rfl

theorem visit_rawClasses_other (plain : type.isWildcard = false)
    (again : TypeExpr → Option Class) :
    (TypeVisitor.rawClasses again).visit type = .ok type.rawType := by
  cases type with
  | wildcard => cases plain
  | plain | parameterized | var | genericArray => rfl

/-- Visiting a type, and bounds of wildcards in the same way, gives the class behind the type. -/
theorem visits_iff_eq_rawType (reduce : TypeExpr → Option Class) :
    (∀ type, (TypeVisitor.rawClasses reduce).visit type = .ok (reduce type)) ↔
      reduce = rawType := by
  constructor
  · intro visits
    funext type
    have visited := visits type
    induction type using bound_induction with
    | @bounded _ _ bound found ih =>
        rw [visit_rawClasses_wildcard, found] at visited
        rw [rawType_wildcard, found]
        exact (Except.ok.inj visited).symm.trans (ih (visits bound))
    | unbounded none =>
        rw [visit_rawClasses_wildcard, none] at visited
        rw [rawType_wildcard, none]
        exact (Except.ok.inj visited).symm
    | other plain =>
        rw [visit_rawClasses_other plain] at visited
        exact (Except.ok.inj visited).symm
  · rintro rfl type
    cases kind : type.isWildcard with
    | false => exact visit_rawClasses_other kind rawType
    | true =>
        cases type with
        | wildcard upper lower =>
            rw [rawType_wildcard]
            rfl
        | plain | parameterized | var | genericArray => cases kind

/-! ## Replacing wildcards by their bounds -/

/-- One round: a wildcard gives way to the bound it is used through. -/
def replaced? : TypeExpr → Option TypeExpr
  | .wildcard upper lower => bound? upper lower
  | _ => none

/-- Round after round the first type comes to the second one. -/
def ComesTo : TypeExpr → TypeExpr → Prop :=
  Relation.ReflTransGen fun type next => type.replaced? = some next

theorem replaced?_eq_some_iff :
    type.replaced? = some next ↔
      ∃ upper lower, type = .wildcard upper lower ∧ bound? upper lower = some next := by
  cases type with
  | wildcard upper lower =>
      constructor
      · intro found
        exact ⟨upper, lower, rfl, found⟩
      · rintro ⟨_, _, same, found⟩
        cases same
        exact found
  | plain | parameterized | var | genericArray =>
      constructor
      · nofun
      · rintro ⟨_, _, same, -⟩
        cases same

/-- A round changes neither the class behind the type nor what is left in the end. -/
theorem reductions_of_replaced? (round : type.replaced? = some next) :
    type.rawType = next.rawType ∧ type.unwrap = next.unwrap := by
  rcases replaced?_eq_some_iff.mp round with ⟨upper, lower, rfl, found⟩
  rw [rawType_wildcard, unwrap_wildcard, found]
  exact ⟨rfl, rfl⟩

theorem reductions_of_comesTo (comes : type.ComesTo last) :
    type.rawType = last.rawType ∧ type.unwrap = last.unwrap := by
  induction comes with
  | refl => exact ⟨rfl, rfl⟩
  | tail _ round ih =>
      have same := reductions_of_replaced? round
      exact ⟨ih.1.trans same.1, ih.2.trans same.2⟩

/-- The rounds come to an end at every type. -/
theorem acc_replaced? (type : TypeExpr) :
    Acc (fun next type : TypeExpr => type.replaced? = some next) type := by
  induction type using bound_induction with
  | bounded found ih =>
      refine .intro _ fun next round => ?_
      cases found.symm.trans round
      exact ih
  | unbounded none =>
      refine .intro _ fun next round => ?_
      cases none.symm.trans round
  | @other type plain =>
      refine .intro _ fun next round => ?_
      rcases replaced?_eq_some_iff.mp round with ⟨upper, lower, rfl, -⟩
      cases plain

theorem exists_comesTo_last (type : TypeExpr) :
    ∃ last, type.ComesTo last ∧ last.replaced? = none := by
  induction acc_replaced? type with
  | intro type _ ih =>
      cases round : type.replaced? with
      | none => exact ⟨type, .refl, round⟩
      | some next =>
          rcases ih next round with ⟨last, comes, ended⟩
          exact ⟨last, .head round comes, ended⟩

/-- What is left is the type at which the rounds end, unless that is a wildcard. -/
theorem unwrap_of_ended (comes : type.ComesTo last) (ended : last.replaced? = none) :
    type.unwrap = if last.isWildcard then none else some last := by
  rw [(reductions_of_comesTo comes).2]
  cases last with
  | wildcard upper lower =>
      have none : bound? upper lower = none := ended
      rw [unwrap_wildcard, none]
      rfl
  | plain | parameterized | var | genericArray => rfl

/-- A wildcard at which the rounds end has no bound to be used through. -/
theorem rawType_of_ended (ended : last.replaced? = none) (wild : last.isWildcard = true) :
    last.rawType = some .object := by
  cases last with
  | wildcard upper lower =>
      have none : bound? upper lower = none := ended
      rw [rawType_wildcard, none]
  | plain | parameterized | var | genericArray => cases wild

/-! ## What unwrapping a type leaves -/

theorem comesTo_of_unwrap (unwraps : type.unwrap = some front) :
    type.ComesTo front ∧ front.isWildcard = false := by
  rcases exists_comesTo_last type with ⟨last, comes, ended⟩
  rw [unwrap_of_ended comes ended] at unwraps
  split at unwraps
  · cases unwraps
  · rename_i plain
    cases unwraps
    exact ⟨comes, Bool.eq_false_iff.mpr plain⟩

theorem rawType_of_unwrap (unwraps : type.unwrap = some front) : type.rawType = front.rawType :=
  (reductions_of_comesTo (comesTo_of_unwrap unwraps).1).1

/-- What is found behind wildcards is no wildcard any more. -/
theorem isWildcard_of_unwrap (unwraps : type.unwrap = some front) : front.isWildcard = false :=
  (comesTo_of_unwrap unwraps).2

theorem unwrap_of_unwrap (unwraps : type.unwrap = some front) : front.unwrap = some front :=
  unwrap_of_not_wildcard (isWildcard_of_unwrap unwraps)

/-- Where nothing is left there is the top class. -/
theorem rawType_of_unwrap_eq_none (nothing : type.unwrap = none) :
    type.rawType = some .object := by
  rcases exists_comesTo_last type with ⟨last, comes, ended⟩
  rw [unwrap_of_ended comes ended] at nothing
  split at nothing
  · rename_i wild
    exact (reductions_of_comesTo comes).1.trans (rawType_of_ended ended wild)
  · cases nothing

/--
From every type the rounds of replacing wildcards by their bounds come to an end, and what is left
there is what unwrapping gives: never a wildcard.  The class behind the type, found by visiting it,
is the class behind what is left; if nothing is left it is the top class.
-/
theorem wildcards_reduced_alike (type : TypeExpr) :
    Acc (fun next type : TypeExpr => type.replaced? = some next) type ∧
    (∃ last, type.ComesTo last ∧ last.replaced? = none ∧
      type.unwrap = if last.isWildcard then none else some last) ∧
    (∀ reduce : TypeExpr → Option Class,
      (∀ type, (TypeVisitor.rawClasses reduce).visit type = .ok (reduce type)) ↔
        reduce = rawType) ∧
    (∀ front, type.unwrap = some front →
      front.isWildcard = false ∧ type.rawType = front.rawType) ∧
    (type.unwrap = none → type.rawType = some .object) := by
  refine ⟨acc_replaced? type, ?ends, visits_iff_eq_rawType, ?front, rawType_of_unwrap_eq_none⟩
  case ends =>
    rcases exists_comesTo_last type with ⟨last, comes, ended⟩
    exact ⟨last, comes, ended, unwrap_of_ended comes ended⟩
  case front =>
    intro front unwraps
    exact ⟨isWildcard_of_unwrap unwraps, rawType_of_unwrap unwraps⟩

end TypeExpr
end TestData
