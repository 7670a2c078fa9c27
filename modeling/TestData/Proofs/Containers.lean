import TestData.Proofs.Integrity
import TestData.Chain.Preset

namespace TestData

/-!
# What strategies for containers leave alone

Options, collections and maps are made by strategies that look for their classes by name.
A type of a class with another name is none of their business, be it used by itself, with
type arguments or behind wildcards.
-/

/-- Behind the wildcards in front, the type is the class by itself or applied to arguments. -/
def TypeExpr.IsOf (type : TypeExpr) (c : Class) : Prop :=
  type.unwrap = some (.plain c) ∨ ∃ arguments, type.unwrap = some (.parameterized c arguments)

namespace Class

/-- The classes of options, collections and maps. -/
def containers : List Class :=
  [option, btreeMap, hashMap, btreeSet, hashSet, vecDeque, vec]

theorem beq_of_name_ne {c d : Class} (other : c.name ≠ d.name) : (c == d) = false :=
  Bool.eq_false_iff.mpr fun same => other (beq_iff_name_eq.mp same)

/-- The class has another name than all containers. -/
def NoContainer (c : Class) : Prop :=
  ∀ d ∈ containers, c.name ≠ d.name

end Class

namespace Strategy

variable {type : TypeExpr} {c d : Class}

theorem acceptsShape_of_ne (isOf : type.IsOf c) (other : c.name ≠ d.name) (arity size : Nat) :
    acceptsShape type d arity size = false := by
  have different := Class.beq_of_name_ne other
  rcases isOf with plain | ⟨arguments, applied⟩
  · simp only [acceptsShape, TypeExpr.shape?, plain, different, Bool.false_eq_true, if_false]
  · simp only [acceptsShape, TypeExpr.shape?, applied, different, Bool.false_and,
      Bool.false_eq_true, if_false]

theorem acceptsOptional_of_ne (isOf : type.IsOf c) (other : c.name ≠ Class.option.name)
    (mode : OptionalMode) : acceptsOptional mode type = false := by
  have different := Class.beq_of_name_ne other
  rcases isOf with plain | ⟨arguments, applied⟩
  · simp only [acceptsOptional, plain, different, Bool.false_and]
  · simp only [acceptsOptional, applied, different, Bool.false_and]

theorem collections_decline (isOf : type.IsOf c) (other : c.NoContainer) (count : Nat)
    (site : Site) :
    ∀ strategy ∈ defaultCollections count, strategy.accepts site type = pure false := by
  have declined : ∀ d ∈ Class.containers, ∀ arity, acceptsShape type d arity count = false :=
    fun d member arity => acceptsShape_of_ne isOf (other d member) arity count
  simp only [Class.containers, List.forall_mem_cons] at declined
  simp [defaultCollections, accepts, Size.at, declined]

/-- No constant of an enum is chosen for a class that is none. -/
theorem chosenConstant_of_not_enum (isOf : type.IsOf c) (plain : c.isEnum = false)
    (selector : Selector Value) (site : Site) : chosenConstant selector site type = pure none := by
  rcases isOf with same | ⟨arguments, applied⟩
  · simp only [chosenConstant, same, plain, Bool.false_eq_true, if_false]
  · simp only [chosenConstant, applied]

end Strategy
end TestData
