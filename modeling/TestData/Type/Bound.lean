import TestData.Type.Basic

namespace TestData
namespace TypeExpr

/-!
# Bounds of wildcards

A wildcard is used through its bound: its only lower bound, else its only upper
bound.  A wildcard with several bounds on both sides has none that can be used.

There are two ways of getting rid of wildcards.  `rawType` goes all the way to a
class and falls back to the top class; `unwrap` only replaces a wildcard by its
bound, keeps type arguments and fails if there is no bound.
-/

/-- The lower bound, if there is exactly one. -/
def lowerBound? (lower : List TypeExpr) : Option TypeExpr :=
  match lower with
  | [bound] => some bound
  | _ => none

/-- The upper bound, if there is exactly one. -/
def upperBound? (upper : List TypeExpr) : Option TypeExpr :=
  match upper with
  | [bound] => some bound
  | _ => none

/-- The bound a wildcard is used through. -/
def bound? (upper lower : List TypeExpr) : Option TypeExpr :=
  (lowerBound? lower).or (upperBound? upper)

/-- The bound that is worth writing down: the top class as upper bound is not. -/
def explicitBound? (upper lower : List TypeExpr) : Option TypeExpr :=
  (lowerBound? lower).or
    ((upperBound? upper).filter fun bound => !(bound.key == TypeKey.object))

/-- The class behind a type; type variables and generic arrays have none. -/
def rawType : TypeExpr → Option Class
  | .plain c => some c
  | .parameterized raw _ => some raw
  | .wildcard upper lower =>
      match lower, upper with
      | [bound], _ => bound.rawType
      | _, [bound] => bound.rawType
      | _, _ => some .object
  | .var .. => none
  | .genericArray _ => none

/-- The type with wildcards in front replaced by their bounds. -/
def unwrap : TypeExpr → Option TypeExpr
  | .wildcard upper lower =>
      match lower, upper with
      | [bound], _ => bound.unwrap
      | _, [bound] => bound.unwrap
      | _, _ => none
  | .plain c => some (.plain c)
  | .parameterized raw arguments => some (.parameterized raw arguments)
  | .var symbol bounds => some (.var symbol bounds)
  | .genericArray component => some (.genericArray component)

theorem bound?_eq (upper lower : List TypeExpr) :
    bound? upper lower =
      match lower, upper with
      | [bound], _ => some bound
      | _, [bound] => some bound
      | _, _ => none := by
  unfold bound? lowerBound? upperBound?
  split <;> split <;> simp_all

/-- The class behind a wildcard is the class behind its bound, else the top class. -/
theorem rawType_wildcard (upper lower : List TypeExpr) :
    (wildcard upper lower).rawType =
      match bound? upper lower with
      | some bound => bound.rawType
      | none => some .object := by
  rw [bound?_eq]
  conv => lhs; rw [rawType.eq_def]
  dsimp only
  split <;> rfl

/-- Unwrapping a wildcard is unwrapping its bound. -/
theorem unwrap_wildcard (upper lower : List TypeExpr) :
    (wildcard upper lower).unwrap = (bound? upper lower).bind unwrap := by
  rw [bound?_eq]
  conv => lhs; rw [unwrap.eq_def]
  dsimp only
  split <;> rfl

/-- Whether a type is a wildcard. -/
def isWildcard : TypeExpr → Bool
  | .wildcard .. => true
  | _ => false

theorem unwrap_of_not_wildcard {type : TypeExpr} (plain : type.isWildcard = false) :
    type.unwrap = some type := by
  cases type <;> simp_all [isWildcard, unwrap]

end TypeExpr
end TestData
