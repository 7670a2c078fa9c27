import TestData.Type.Bound

namespace TestData

/-!
# The class hierarchy

The hierarchy of a class lists the class and everything above it, each class
once, in the order in which a walk meets them that goes up along the superclass
before it goes on to the interfaces.  Assignability is decided by a second walk,
which also knows primitives, array classes and the top class.
-/

namespace Class

mutual

/-- Add a class and everything above it that is not in the list yet. -/
def ascend : Class → List Class → List Class
  | ⟨name, kind, visibility, typeParameters, superclass, interfaces, annotations,
      constructors, methods, fields, constants⟩, seen =>
      if seen.any fun met => met.name == name then seen
      else
        let met := seen ++ [⟨name, kind, visibility, typeParameters, superclass, interfaces,
          annotations, constructors, methods, fields, constants⟩]
        ascendAll interfaces
          (match superclass with
            | some supertype => ascendType supertype met
            | none => met)

/-- Add the class behind a supertype and everything above it. -/
def ascendType : TypeExpr → List Class → List Class
  | .plain c, seen => ascend c seen
  | .parameterized raw _, seen => ascend raw seen
  | .wildcard upper lower, seen =>
      match lower, upper with
      | [bound], _ => ascendType bound seen
      | _, [bound] => ascendType bound seen
      | _, _ =>
          if seen.any fun met => met.name == object.name then seen else seen ++ [object]
  | .var .., seen => seen
  | .genericArray _, seen => seen

def ascendAll : List TypeExpr → List Class → List Class
  | [], seen => seen
  | type :: types, seen => ascendAll types (ascendType type seen)

end

/-- The class and everything above it, the class itself first. -/
def hierarchy (c : Class) : List Class :=
  c.ascend []

/-- The classes behind the declared supertypes; supertypes without a class are left out. -/
def rawSupertypes (c : Class) : List Class :=
  c.supertypes.filterMap TypeExpr.rawType

theorem ascendAll_nil (seen : List Class) : ascendAll [] seen = seen := rfl

theorem ascendAll_cons (type : TypeExpr) (types : List TypeExpr) (seen : List Class) :
    ascendAll (type :: types) seen = ascendAll types (ascendType type seen) := rfl

/-- The walk in terms of the class and its supertypes alone. -/
theorem ascend_eq (c : Class) (seen : List Class) :
    c.ascend seen =
      if seen.any fun met => met.name == c.name then seen
      else ascendAll c.supertypes (seen ++ [c]) := by
  obtain ⟨name, kind, visibility, typeParameters, superclass, interfaces, annotations,
    constructors, methods, fields, constants⟩ := c
  cases superclass <;> rfl

/-- The walk over a supertype is the walk over the class behind it. -/
theorem ascendType_eq (type : TypeExpr) (seen : List Class) :
    ascendType type seen =
      match type.rawType with
      | some c => c.ascend seen
      | none => seen := by
  fun_induction TypeExpr.rawType type with
  | case1 | case2 => rfl
  | case3 upper bound ih => exact ih
  | case4 lower bound notOne ih =>
      rw [← ih]
      match lower with
      | [] => rfl
      | [other] => exact absurd rfl (notOne other)
      | _ :: _ :: _ => rfl
  | case5 upper lower noLower noUpper =>
      match lower, upper with
      | [other], _ => exact absurd rfl (noLower other)
      | [], [other] => exact absurd rfl (noUpper other)
      | _ :: _ :: _, [other] => exact absurd rfl (noUpper other)
      | [], [] | [], _ :: _ :: _ | _ :: _ :: _, [] | _ :: _ :: _, _ :: _ :: _ => rfl
  | case6 | case7 => rfl

mutual

/--
Whether a value of the second class can be used where the first is expected.
Equal names always fit.  A primitive fits nothing else, and the top class takes
everything else.  Arrays of non-primitive elements go by their elements.
Otherwise some supertype of the second class has to fit.
-/
def isAssignableFrom (expected : Class) : Class → Bool
  | ⟨name, kind, _, _, superclass, interfaces, _, _, _, _, _⟩ =>
      if expected.name == name then true
      else
        match kind with
        | .primitive => false
        | kind =>
            if expected.name == object.name then true
            else
              match expected.component?, kind with
              | some element, .array actual =>
                  !element.isPrimitive && isAssignableFrom element actual
              | _, _ =>
                  (match superclass with
                    | some supertype => isAssignableFromType expected supertype
                    | none => false) ||
                  isAssignableFromAny expected interfaces

/-- Whether the class behind a type fits; a type without a class never does. -/
def isAssignableFromType (expected : Class) : TypeExpr → Bool
  | .plain c => isAssignableFrom expected c
  | .parameterized raw _ => isAssignableFrom expected raw
  | .wildcard upper lower =>
      match lower, upper with
      | [bound], _ => isAssignableFromType expected bound
      | _, [bound] => isAssignableFromType expected bound
      | _, _ => expected.name == object.name
  | .var .. => false
  | .genericArray _ => false

def isAssignableFromAny (expected : Class) : List TypeExpr → Bool
  | [] => false
  | type :: types => isAssignableFromType expected type || isAssignableFromAny expected types

end

theorem isAssignableFromAny_eq (expected : Class) (types : List TypeExpr) :
    isAssignableFromAny expected types = types.any (isAssignableFromType expected) := by
  induction types with
  | nil => rfl
  | cons type types ih => rw [List.any_cons, ← ih]; rfl

/-- A supertype fits when the class behind it does. -/
theorem isAssignableFromType_eq (expected : Class) (type : TypeExpr) :
    isAssignableFromType expected type = type.rawType.any expected.isAssignableFrom := by
  fun_induction TypeExpr.rawType type with
  | case1 | case2 => rfl
  | case3 upper bound ih => exact ih
  | case4 lower bound notOne ih =>
      rw [← ih]
      match lower with
      | [] => rfl
      | [other] => exact absurd rfl (notOne other)
      | _ :: _ :: _ => rfl
  | case5 upper lower noLower noUpper =>
      have top : expected.isAssignableFrom object = (expected.name == object.name) := by
        by_cases same : expected.name = "object" <;>
          cases component : expected.component? <;>
          simp [isAssignableFrom, object, named, component, same, isAssignableFromAny]
      match lower, upper with
      | [other], _ => exact absurd rfl (noLower other)
      | [], [other] => exact absurd rfl (noUpper other)
      | _ :: _ :: _, [other] => exact absurd rfl (noUpper other)
      | [], [] | [], _ :: _ :: _ | _ :: _ :: _, [] | _ :: _ :: _, _ :: _ :: _ =>
          exact top.symm
  | case6 | case7 => rfl

/-- Assignability in terms of the two classes, their elements and the supertypes. -/
theorem isAssignableFrom_eq (expected other : Class) :
    expected.isAssignableFrom other =
      if expected == other then true
      else if other.isPrimitive then false
      else if expected == object then true
      else
        match expected.component?, other.component? with
        | some element, some actual => !element.isPrimitive && element.isAssignableFrom actual
        | _, _ => other.rawSupertypes.any expected.isAssignableFrom := by
  have upward : other.rawSupertypes.any expected.isAssignableFrom
      = other.supertypes.any (isAssignableFromType expected) := by
    rw [rawSupertypes, List.any_filterMap]
    congr 1
    funext type
    rw [isAssignableFromType_eq]
    cases type.rawType <;> rfl
  rw [upward, supertypes, List.any_append, ← isAssignableFromAny_eq expected other.interfaces]
  obtain ⟨name, kind, visibility, typeParameters, superclass, interfaces, annotations,
    constructors, methods, fields, constants⟩ := other
  conv => lhs; rw [isAssignableFrom.eq_def]
  by_cases same : expected.name = name <;> by_cases top : expected.name = object.name <;>
    cases kind <;> cases superclass <;> cases expected.component? <;>
    simp [isPrimitive, component?, beq_iff_name_eq, same, top]

end Class
end TestData
