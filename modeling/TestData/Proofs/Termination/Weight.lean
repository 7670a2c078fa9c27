import TestData.Type.Bindings

namespace TestData

/-!
# The weight of a type

A request for a class leads to requests for the types of parameters, with type variables
replaced by what the requested type binds.  Those types may be much larger than the one
that was requested; what becomes smaller is the weight.  The weight of a class, applied
to arguments of a known weight, first bounds everything that a walk up the hierarchy
binds, and then adds the weights of all parameter types that the class declares, with
that bound for every type variable in them.

The recursion follows the declarations alone: a parameter type is part of a descriptor,
whatever its variables are going to stand for.
-/

mutual

/-- How deep a request may lead if every type variable stands for a type of this weight. -/
def TypeExpr.weight : TypeExpr → Nat → Nat
  | .plain c, _ => c.weight 0
  | .parameterized raw arguments, n => raw.weight (TypeExpr.weightAll arguments n)
  | .wildcard upper lower, n => 1 + TypeExpr.weightAll upper n + TypeExpr.weightAll lower n
  | .var .., n => n
  | .genericArray component, n => 1 + component.weight n

def TypeExpr.weightAll : List TypeExpr → Nat → Nat
  | [], _ => 0
  | type :: types, n => type.weight n + TypeExpr.weightAll types n

/--
A bound for what is bound after a walk from the type, if everything bound so far weighs
at most `n` and the variables in the type itself stand for types of weight `inside`.
-/
def TypeExpr.climb : TypeExpr → Nat → Nat → Nat
  | .plain c, _, n => c.reach n
  | .parameterized raw arguments, inside, n => raw.reach (n + TypeExpr.weightAll arguments inside)
  | .wildcard upper lower, inside, n =>
      1 + (match lower, upper with
        | [bound], _ => bound.climb inside n
        | _, [bound] => bound.climb inside n
        | _, _ => n)
  | .var .., _, n => n
  | .genericArray _, _, n => 1 + n

def TypeExpr.climbAll : List TypeExpr → Nat → Nat
  | [], n => n
  | type :: types, n => TypeExpr.climbAll types (type.climb n n)

def TypeExpr.climbOption : Option TypeExpr → Nat → Nat
  | some type, n => type.climb n n
  | none, n => n

/-- A bound for what is bound after a walk from a class, its arguments included in `n`. -/
def Class.reach : Class → Nat → Nat
  | ⟨_, _, _, _, superclass, interfaces, _, _, _, _, _⟩, n =>
      1 + TypeExpr.climbAll interfaces (TypeExpr.climbOption superclass n)

def ClassKind.weight : ClassKind → Nat
  | .array component => component.weight 0
  | .primitive | .concrete | .abstract | .interface | .enum => 0

def ParameterDeclaration.weightAll : List ParameterDeclaration → Nat → Nat
  | [], _ => 0
  | ⟨_, type, _⟩ :: parameters, n => type.weight n + ParameterDeclaration.weightAll parameters n

def ConstructorDeclaration.weightAll : List ConstructorDeclaration → Nat → Nat
  | [], _ => 0
  | ⟨parameters, _, _, _⟩ :: constructors, n =>
      ParameterDeclaration.weightAll parameters n +
        ConstructorDeclaration.weightAll constructors n

def MethodDeclaration.weightAll : List MethodDeclaration → Nat → Nat
  | [], _ => 0
  | ⟨_, _, _, _, parameters, _, _, _⟩ :: methods, n =>
      ParameterDeclaration.weightAll parameters n + MethodDeclaration.weightAll methods n

/-- The weight of a class applied to arguments that weigh `n` together. -/
def Class.weight : Class → Nat → Nat
  | ⟨_, kind, _, _, superclass, interfaces, _, constructors, methods, _, _⟩, n =>
      let bound := kind.weight +
        (1 + TypeExpr.climbAll interfaces (TypeExpr.climbOption superclass n))
      bound + (ConstructorDeclaration.weightAll constructors bound
        + MethodDeclaration.weightAll methods bound)

end

namespace Class

/-- Everything that a class applied to arguments has in it, or binds, weighs at most this. -/
def bound (c : Class) (n : Nat) : Nat :=
  c.kind.weight + c.reach n

theorem reach_eq (c : Class) (n : Nat) : c.reach n = 1 + TypeExpr.climbAll c.supertypes n := by
  rcases c with ⟨_, _, _, _, superclass, interfaces, _, _, _, _, _⟩
  cases superclass <;> rfl

theorem weight_eq (c : Class) (n : Nat) :
    c.weight n =
      c.bound n + (ConstructorDeclaration.weightAll c.constructorDeclarations (c.bound n)
        + MethodDeclaration.weightAll c.methodDeclarations (c.bound n)) := by
  cases c
  rfl

theorem bound_le_weight (c : Class) (n : Nat) : c.bound n ≤ c.weight n := by
  rw [weight_eq]
  omega

end Class

/-! ## A walk only adds to what is bound -/

mutual

theorem TypeExpr.le_climb (type : TypeExpr) (inside n : Nat) : n ≤ type.climb inside n := by
  cases type with
  | plain c => exact Nat.le_of_lt (Class.lt_reach c n)
  | parameterized raw arguments =>
      have reached := Class.lt_reach raw (n + TypeExpr.weightAll arguments inside)
      rw [TypeExpr.climb]
      omega
  | wildcard upper lower =>
      rw [TypeExpr.climb.eq_def]
      dsimp only
      split
      · next bound =>
          have inner := TypeExpr.le_climb bound inside n
          omega
      · next bound _ =>
          have inner := TypeExpr.le_climb bound inside n
          omega
      · omega
  | var symbol bounds => exact Nat.le_refl n
  | genericArray component => exact Nat.le_add_left n 1

theorem TypeExpr.le_climbAll (types : List TypeExpr) (n : Nat) : n ≤ TypeExpr.climbAll types n := by
  cases types with
  | nil => exact Nat.le_refl n
  | cons type types =>
      have first := TypeExpr.le_climb type n n
      have rest := TypeExpr.le_climbAll types (type.climb n n)
      exact Nat.le_trans first rest

theorem TypeExpr.le_climbOption (type : Option TypeExpr) (n : Nat) :
    n ≤ TypeExpr.climbOption type n := by
  cases type with
  | none => exact Nat.le_refl n
  | some type => exact TypeExpr.le_climb type n n

theorem Class.lt_reach (c : Class) (n : Nat) : n < c.reach n := by
  rcases c with ⟨_, _, _, _, superclass, interfaces, _, _, _, _, _⟩
  have first := TypeExpr.le_climbOption superclass n
  have rest := TypeExpr.le_climbAll interfaces (TypeExpr.climbOption superclass n)
  rw [Class.reach]
  omega

end

/-! ## What is bound to heavier types is heavier -/

mutual

theorem TypeExpr.weight_mono (type : TypeExpr) {n m : Nat} (le : n ≤ m) :
    type.weight n ≤ type.weight m := by
  cases type with
  | plain c => exact Nat.le_refl _
  | parameterized raw arguments =>
      have inner := TypeExpr.weightAll_mono arguments le
      exact Class.weight_mono raw inner
  | wildcard upper lower =>
      have above := TypeExpr.weightAll_mono upper le
      have below := TypeExpr.weightAll_mono lower le
      rw [TypeExpr.weight, TypeExpr.weight]
      omega
  | var symbol bounds => exact le
  | genericArray component =>
      have inner := TypeExpr.weight_mono component le
      rw [TypeExpr.weight, TypeExpr.weight]
      omega

theorem TypeExpr.weightAll_mono (types : List TypeExpr) {n m : Nat} (le : n ≤ m) :
    TypeExpr.weightAll types n ≤ TypeExpr.weightAll types m := by
  cases types with
  | nil => exact Nat.le_refl 0
  | cons type types =>
      have first := TypeExpr.weight_mono type le
      have rest := TypeExpr.weightAll_mono types le
      rw [TypeExpr.weightAll, TypeExpr.weightAll]
      omega

theorem TypeExpr.climb_mono (type : TypeExpr) {inside outside n m : Nat} (inner : inside ≤ outside)
    (le : n ≤ m) : type.climb inside n ≤ type.climb outside m := by
  cases type with
  | plain c => exact Class.reach_mono c le
  | parameterized raw arguments =>
      have more := TypeExpr.weightAll_mono arguments inner
      exact Class.reach_mono raw (Nat.add_le_add le more)
  | wildcard upper lower =>
      rw [TypeExpr.climb.eq_def, TypeExpr.climb.eq_def]
      dsimp only
      split
      · next bound => exact Nat.add_le_add_left (TypeExpr.climb_mono bound inner le) 1
      · next bound _ => exact Nat.add_le_add_left (TypeExpr.climb_mono bound inner le) 1
      · exact Nat.add_le_add_left le 1
  | var symbol bounds => exact le
  | genericArray component => exact Nat.add_le_add_left le 1

theorem TypeExpr.climbAll_mono (types : List TypeExpr) {n m : Nat} (le : n ≤ m) :
    TypeExpr.climbAll types n ≤ TypeExpr.climbAll types m := by
  cases types with
  | nil => exact le
  | cons type types =>
      have first := TypeExpr.climb_mono type le le
      exact TypeExpr.climbAll_mono types first

theorem TypeExpr.climbOption_mono (type : Option TypeExpr) {n m : Nat} (le : n ≤ m) :
    TypeExpr.climbOption type n ≤ TypeExpr.climbOption type m := by
  cases type with
  | none => exact le
  | some type => exact TypeExpr.climb_mono type le le

theorem Class.reach_mono (c : Class) {n m : Nat} (le : n ≤ m) : c.reach n ≤ c.reach m := by
  rcases c with ⟨_, _, _, _, superclass, interfaces, _, _, _, _, _⟩
  have first := TypeExpr.climbOption_mono superclass le
  have rest := TypeExpr.climbAll_mono interfaces first
  rw [Class.reach, Class.reach]
  omega

theorem ParameterDeclaration.weightAll_mono (parameters : List ParameterDeclaration) {n m : Nat}
    (le : n ≤ m) :
    ParameterDeclaration.weightAll parameters n ≤ ParameterDeclaration.weightAll parameters m := by
  cases parameters with
  | nil => exact Nat.le_refl 0
  | cons parameter parameters =>
      rcases parameter with ⟨name, type, annotations⟩
      have first := TypeExpr.weight_mono type le
      have rest := ParameterDeclaration.weightAll_mono parameters le
      rw [ParameterDeclaration.weightAll, ParameterDeclaration.weightAll]
      omega

theorem ConstructorDeclaration.weightAll_mono (constructors : List ConstructorDeclaration)
    {n m : Nat} (le : n ≤ m) :
    ConstructorDeclaration.weightAll constructors n ≤
      ConstructorDeclaration.weightAll constructors m := by
  cases constructors with
  | nil => exact Nat.le_refl 0
  | cons k constructors =>
      rcases k with ⟨parameters, visibility, annotations, invoker⟩
      have first := ParameterDeclaration.weightAll_mono parameters le
      have rest := ConstructorDeclaration.weightAll_mono constructors le
      rw [ConstructorDeclaration.weightAll, ConstructorDeclaration.weightAll]
      omega

theorem MethodDeclaration.weightAll_mono (methods : List MethodDeclaration) {n m : Nat}
    (le : n ≤ m) :
    MethodDeclaration.weightAll methods n ≤ MethodDeclaration.weightAll methods m := by
  cases methods with
  | nil => exact Nat.le_refl 0
  | cons method methods =>
      obtain ⟨name, returnType, isStatic, typeParameters, parameters, visibility, annotations,
        invoker⟩ := method
      have first := ParameterDeclaration.weightAll_mono parameters le
      have rest := MethodDeclaration.weightAll_mono methods le
      rw [MethodDeclaration.weightAll, MethodDeclaration.weightAll]
      omega

theorem Class.weight_mono (c : Class) {n m : Nat} (le : n ≤ m) : c.weight n ≤ c.weight m := by
  obtain ⟨name, kind, visibility, typeParameters, superclass, interfaces, annotations,
    constructors, methods, fields, constants⟩ := c
  have supers := TypeExpr.climbOption_mono superclass le
  have reached := TypeExpr.climbAll_mono interfaces supers
  have bound : kind.weight + (1 + TypeExpr.climbAll interfaces (TypeExpr.climbOption superclass n))
      ≤ kind.weight + (1 + TypeExpr.climbAll interfaces (TypeExpr.climbOption superclass m)) := by
    omega
  have made := ConstructorDeclaration.weightAll_mono constructors bound
  have called := MethodDeclaration.weightAll_mono methods bound
  rw [Class.weight, Class.weight]
  omega

end

/-! ## Parts are lighter than the whole -/

theorem TypeExpr.weight_le_weightAll {type : TypeExpr} {types : List TypeExpr} (member : type ∈ types)
    (n : Nat) : type.weight n ≤ TypeExpr.weightAll types n := by
  induction types with
  | nil => cases member
  | cons first rest ih =>
      rw [TypeExpr.weightAll]
      rcases List.mem_cons.mp member with rfl | later
      · omega
      · have inner := ih later
        omega

theorem ParameterDeclaration.weight_le_weightAll {parameter : ParameterDeclaration}
    {parameters : List ParameterDeclaration} (member : parameter ∈ parameters) (n : Nat) :
    parameter.type.weight n ≤ ParameterDeclaration.weightAll parameters n := by
  induction parameters with
  | nil => cases member
  | cons first rest ih =>
      rcases first with ⟨name, type, annotations⟩
      rw [ParameterDeclaration.weightAll]
      rcases List.mem_cons.mp member with rfl | later
      · dsimp only
        omega
      · have inner := ih later
        omega

theorem ConstructorDeclaration.weight_le_weightAll {constructors : List ConstructorDeclaration}
    {k : ConstructorDeclaration} (declared : k ∈ constructors)
    {parameter : ParameterDeclaration} (member : parameter ∈ k.parameters) (n : Nat) :
    parameter.type.weight n ≤ ConstructorDeclaration.weightAll constructors n := by
  induction constructors with
  | nil => cases declared
  | cons first rest ih =>
      rcases first with ⟨parameters, visibility, annotations, invoker⟩
      rw [ConstructorDeclaration.weightAll]
      rcases List.mem_cons.mp declared with rfl | later
      · have inner := ParameterDeclaration.weight_le_weightAll member n
        dsimp only at inner
        omega
      · have inner := ih later
        omega

theorem MethodDeclaration.weight_le_weightAll {methods : List MethodDeclaration}
    {m : MethodDeclaration} (declared : m ∈ methods)
    {parameter : ParameterDeclaration} (member : parameter ∈ m.parameters) (n : Nat) :
    parameter.type.weight n ≤ MethodDeclaration.weightAll methods n := by
  induction methods with
  | nil => cases declared
  | cons first rest ih =>
      obtain ⟨name, returnType, isStatic, typeParameters, parameters, visibility, annotations,
        invoker⟩ := first
      rw [MethodDeclaration.weightAll]
      rcases List.mem_cons.mp declared with rfl | later
      · have inner := ParameterDeclaration.weight_le_weightAll member n
        dsimp only at inner
        omega
      · have inner := ih later
        omega

/-! ## A walk binds nothing that is heavier than where it starts -/

namespace TypeExpr

theorem climb_wildcard (upper lower : List TypeExpr) (inside n : Nat) :
    (wildcard upper lower).climb inside n =
      1 + (match bound? upper lower with
        | some bound => bound.climb inside n
        | none => n) := by
  rw [bound?_eq, climb.eq_def]
  dsimp only
  split <;> simp_all

theorem bound?_mem {upper lower : List TypeExpr} {bound : TypeExpr}
    (found : bound? upper lower = some bound) : bound ∈ upper ++ lower := by
  rw [bound?_eq] at found
  split at found
  · cases found
    exact List.mem_append_right _ List.mem_cons_self
  · cases found
    exact List.mem_append_left _ List.mem_cons_self
  · cases found

theorem weight_bound?_lt {upper lower : List TypeExpr} {bound : TypeExpr}
    (found : bound? upper lower = some bound) (n : Nat) :
    bound.weight n < (wildcard upper lower).weight n := by
  rw [weight]
  rcases List.mem_append.mp (bound?_mem found) with above | below
  · have inner := weight_le_weightAll above n
    omega
  · have inner := weight_le_weightAll below n
    omega

/-- Wildcards by their bounds: what holds of the bound has to carry over to the wildcard. -/
theorem bound_induction {motive : TypeExpr → Prop}
    (bounded : ∀ {upper lower bound}, bound? upper lower = some bound → motive bound →
      motive (.wildcard upper lower))
    (unbounded : ∀ {upper lower}, bound? upper lower = none → motive (.wildcard upper lower))
    (other : ∀ {type : TypeExpr}, type.isWildcard = false → motive type) (type : TypeExpr) :
    motive type := by
  fun_induction unwrap type with
  | case1 upper bound ih => exact bounded (bound?_eq upper [bound]) ih
  | case2 lower bound notOne ih =>
      refine bounded ?_ ih
      rw [bound?_eq]
      split <;> simp_all
  | case3 upper lower noLower noUpper =>
      apply unbounded
      rw [bound?_eq]
      split <;> simp_all
  | case4 | case5 | case6 | case7 => exact other rfl

theorem climb_le_weight (type : TypeExpr) : type.climb 0 0 ≤ type.weight 0 := by
  induction type using bound_induction with
  | bounded found ih =>
      have lighter := weight_bound?_lt found 0
      rw [climb_wildcard, found]
      dsimp only
      omega
  | unbounded none =>
      rw [climb_wildcard, none, weight]
      dsimp only
      omega
  | @other type plain =>
      cases type with
      | plain c =>
          have reached : c.reach 0 ≤ c.bound 0 := Nat.le_add_left _ _
          exact Nat.le_trans reached (c.bound_le_weight 0)
      | parameterized raw arguments =>
          rw [climb, Nat.zero_add]
          have reached : raw.reach (weightAll arguments 0) ≤ raw.bound (weightAll arguments 0) :=
            Nat.le_add_left _ _
          exact Nat.le_trans reached (raw.bound_le_weight _)
      | wildcard upper lower => cases plain
      | var symbol bounds => exact Nat.le_refl 0
      | genericArray component => exact Nat.add_le_add_left (Nat.zero_le _) 1

end TypeExpr

namespace Class

theorem bound_pos (c : Class) (n : Nat) : 0 < c.bound n := by
  have reached := c.lt_reach n
  unfold bound
  omega

/-- The type of a constructor parameter, with every variable as heavy as the class allows. -/
theorem constructorParameter_lt (c : Class) {k : ConstructorDeclaration}
    (declared : k ∈ c.constructorDeclarations) {parameter : ParameterDeclaration}
    (member : parameter ∈ k.parameters) (n : Nat) :
    parameter.type.weight (c.bound n) < c.weight n := by
  have inList := ConstructorDeclaration.weight_le_weightAll declared member (c.bound n)
  have positive := c.bound_pos n
  rw [weight_eq]
  omega

/-- The type of a method parameter, with every variable as heavy as the class allows. -/
theorem methodParameter_lt (c : Class) {m : MethodDeclaration}
    (declared : m ∈ c.methodDeclarations) {parameter : ParameterDeclaration}
    (member : parameter ∈ m.parameters) (n : Nat) :
    parameter.type.weight (c.bound n) < c.weight n := by
  have inList := MethodDeclaration.weight_le_weightAll declared member (c.bound n)
  have positive := c.bound_pos n
  rw [weight_eq]
  omega

end Class
end TestData
