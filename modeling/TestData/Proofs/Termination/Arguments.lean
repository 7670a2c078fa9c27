import TestData.Proofs.Termination.Walk

namespace TestData

/-!
# The types of arguments

The argument of a parameter is wanted for the declared type with variables replaced.
What they are replaced by comes from the requested type: from a walk up from its class,
or, for a factory method, from fitting the return type to it.  Either way the class
that declares the parameter has reckoned with it, so the type of the argument weighs
less than the requested type, however much larger it is.
-/

variable {graph : ClassGraph} {start type : TypeExpr} {n depth : Nat}

theorem Class.component_weight_lt {c component : Class} (array : c.component? = some component) :
    component.weight 0 < c.weight 0 := by
  have bounded := c.bound_le_weight 0
  have reached := c.lt_reach 0
  unfold Class.bound at bounded
  unfold Class.component? at array
  split at array
  · next kind =>
      cases array
      rw [kind, ClassKind.weight] at bounded
      omega
  · cases array

namespace TypeExpr

theorem weight_part_lt {part : TypeExpr} (member : part ∈ type.parts) :
    part.weight 0 < type.weight 0 := by
  cases type with
  | plain c =>
      rcases List.mem_map.mp member with ⟨component, array, rfl⟩
      exact Class.component_weight_lt (Option.mem_toList.mp array)
  | parameterized raw arguments =>
      have inside : part ∈ arguments := member
      have lighter := weight_le_weightAll inside 0
      have reached := raw.lt_reach (weightAll arguments 0)
      have bounded := raw.bound_le_weight (weightAll arguments 0)
      unfold Class.bound at bounded
      show part.weight 0 < raw.weight (weightAll arguments 0)
      omega
  | wildcard upper lower =>
      show part.weight 0 < 1 + weightAll upper 0 + weightAll lower 0
      rcases List.mem_append.mp member with above | below
      · have lighter := weight_le_weightAll above 0
        omega
      · have lighter := weight_le_weightAll below 0
        omega
  | var symbol bounds => cases member
  | genericArray component =>
      cases List.mem_singleton.mp member
      show part.weight 0 < 1 + part.weight 0
      omega

/-- A class with members behind a type is what the type is used as, or what is applied in it. -/
theorem unwrap_of_rawType {c : Class} (raw : type.rawType = some c) (declares : c.DeclaresMembers) :
    type.unwrap = some (.plain c) ∨
      ∃ arguments, type.unwrap = some (.parameterized c arguments) := by
  induction type using bound_induction with
  | bounded found ih =>
      rw [rawType_wildcard, found] at raw
      rw [unwrap_wildcard, found]
      exact ih raw
  | unbounded none =>
      rw [rawType_wildcard, none] at raw
      cases raw
      rcases declares with made | called <;> contradiction
  | @other type plain =>
      cases type with
      | plain c => cases raw; exact Or.inl rfl
      | parameterized raw arguments => cases raw; exact Or.inr ⟨arguments, rfl⟩
      | wildcard upper lower => cases plain
      | var symbol bounds => cases raw
      | genericArray component => cases raw

theorem Within.unwrap (within : type.Within graph.contains) {left : TypeExpr}
    (unwraps : type.unwrap = some left) : left.Within graph.contains := by
  induction type using bound_induction with
  | bounded found ih =>
      rw [unwrap_wildcard, found] at unwraps
      exact ih (within.part (bound?_mem found)) unwraps
  | unbounded none =>
      rw [unwrap_wildcard, none] at unwraps
      cases unwraps
  | other plain =>
      rw [unwrap_of_not_wildcard plain] at unwraps
      cases unwraps
      exact within

/-- A class with members behind a type of the graph is in the graph itself. -/
theorem Within.contains {c : Class} (within : type.Within graph.contains)
    (raw : type.rawType = some c) (declares : c.DeclaresMembers) : graph.contains c := by
  refine ClassGraph.contains_of_declaresMembers ?_ declares
  rcases unwrap_of_rawType raw declares with plain | ⟨arguments, applied⟩
  · cases within.unwrap plain with
    | plain within => exact within
  · cases within.unwrap applied with
    | parameterized within _ => exact within

end TypeExpr

/-! ## Where members are declared -/

theorem ParameterDeclaration.of_mem_ownedBy {owner : String}
    {declarations : List ParameterDeclaration} {parameter : Parameter}
    (member : parameter ∈ ParameterDeclaration.ownedBy owner declarations) :
    parameter.declaration ∈ declarations := by
  rcases List.mem_mapIdx.mp member with ⟨index, inRange, rfl⟩
  exact List.getElem_mem inRange

namespace Class

variable {c : Class}

theorem of_mem_usableConstructors {k : Constructor} (usable : k ∈ c.usableConstructors) :
    k.declaration ∈ c.constructorDeclarations := by
  rcases List.mem_map.mp (List.mem_filter.mp usable).1 with ⟨declaration, declared, rfl⟩
  exact declared

theorem of_mem_factoryMethods {m : Method} (usable : m ∈ c.factoryMethods) :
    m.declaration ∈ c.methodDeclarations ∧ m.declaration.isStatic = true ∧
      ∃ returned, m.returnType.rawType = some returned := by
  rcases List.mem_filter.mp usable with ⟨member, fits⟩
  rcases List.mem_map.mp member with ⟨declaration, declared, rfl⟩
  simp only [Bool.and_eq_true, Option.any_eq_true] at fits
  rcases fits with ⟨⟨isStatic, -⟩, returned, front, -⟩
  exact ⟨declared, isStatic, returned, front⟩

end Class

namespace Strategy

theorem rawType_of_constructedClass? {c : Class} (constructed : constructedClass? type = some c) :
    type.rawType = some c :=
  (Option.filter_eq_some_iff.mp constructed).1

theorem rawType_of_manufacturedClass? {c : Class} (manufactured : manufacturedClass? type = some c) :
    type.rawType = some c :=
  (Option.filter_eq_some_iff.mp manufactured).1

end Strategy

namespace ClassGraph

/-- The type comes up, lies within the graph and weighs less than this. -/
structure Reaches (graph : ClassGraph) (start : TypeExpr) (n : Nat) (type : TypeExpr) : Prop where
  comesUp : graph.ComesUp start type
  within : type.Within graph.contains
  weight : type.weight 0 < n

namespace Reaches

theorem part (reaches : graph.Reaches start n type) {part : TypeExpr} (member : part ∈ type.parts) :
    graph.Reaches start (type.weight 0) part where
  comesUp := reaches.comesUp.part member
  within := reaches.within.part member
  weight := TypeExpr.weight_part_lt member

theorem mono (reaches : graph.Reaches start n type) {m : Nat} (le : n ≤ m) :
    graph.Reaches start m type where
  comesUp := reaches.comesUp
  within := reaches.within
  weight := Nat.lt_of_lt_of_le reaches.weight le

theorem unwrap (reaches : graph.Reaches start n type) {left : TypeExpr}
    (unwraps : type.unwrap = some left) : graph.Reaches start n left := by
  induction type using TypeExpr.bound_induction with
  | bounded found ih =>
      rw [TypeExpr.unwrap_wildcard, found] at unwraps
      have inner := reaches.part (TypeExpr.bound?_mem found)
      exact ih (inner.mono (Nat.le_of_lt reaches.weight)) unwraps
  | unbounded none =>
      rw [TypeExpr.unwrap_wildcard, none] at unwraps
      cases unwraps
  | other plain =>
      rw [TypeExpr.unwrap_of_not_wildcard plain] at unwraps
      cases unwraps
      exact reaches

theorem unifyAll_below {formals actuals : List TypeExpr} {bindings : Bindings}
    (each : ∀ formal ∈ formals, ∀ {actual bindings}, graph.Reaches start (n + 1) actual →
      bindings.Below graph n →
      ∃ fitted, Bindings.unify depth formal actual bindings = .ok fitted ∧ fitted.Below graph n)
    (reaches : ∀ actual ∈ actuals, graph.Reaches start (n + 1) actual)
    (below : bindings.Below graph n) :
    ∃ fitted, Bindings.unifyAll depth formals actuals bindings = .ok fitted ∧
      fitted.Below graph n := by
  induction formals generalizing actuals bindings with
  | nil => exact ⟨bindings, rfl, below⟩
  | cons formal formals ih =>
      cases actuals with
      | nil => exact ⟨bindings, rfl, below⟩
      | cons actual actuals =>
          rcases each formal List.mem_cons_self (reaches actual List.mem_cons_self) below
            with ⟨first, unified, firstBelow⟩
          obtain ⟨fitted, goesOn, fittedBelow⟩ := ih
            (fun other member => each other (List.mem_cons_of_mem formal member))
            (fun other member => reaches other (List.mem_cons_of_mem actual member)) firstBelow
          refine ⟨fitted, ?_, fittedBelow⟩
          rw [Bindings.unifyAll, unified]
          exact goesOn

variable (orderly : graph.Orderly) (uncaptured : graph.Uncaptured start)
include orderly uncaptured

theorem ofType_below (reaches : graph.Reaches start n type) (deep : n ≤ depth) :
    ∃ bindings, Bindings.ofType depth type = .ok bindings ∧
      bindings.Below graph (type.front.climb 0 0) := by
  have climbs := TypeExpr.climb_le_weight type
  have light := reaches.weight
  rw [uncaptured type reaches.comesUp depth]
  exact Bindings.walks orderly depth reaches.within (Bindings.below_empty graph 0) (by omega)

/-- The arguments of a type seen as one of its supertypes were bound on the way there. -/
theorem asSupertype (reaches : graph.Reaches start n type) (deep : n ≤ depth) {target : Class}
    (within : target.Within graph.contains) :
    ∃ view, type.asSupertype depth target = .ok view ∧
      ∀ raw actuals, view = some (.parameterized raw actuals) → ∀ actual ∈ actuals,
        graph.Reaches start (type.front.climb 0 0 + 1) actual := by
  have parts : ∀ {raw actuals}, type.asSupertype depth target
      = .ok (some (.parameterized raw actuals)) → ∀ actual ∈ actuals, graph.ComesUp start actual :=
    fun viewed actual member => (reaches.comesUp.view within viewed).part member
  unfold TypeExpr.asSupertype at parts ⊢
  cases behind : type.rawType with
  | none => exact ⟨none, rfl, fun raw actuals none => nomatch none⟩
  | some raw =>
      rw [behind] at parts
      dsimp only at parts ⊢
      by_cases same : (raw == target) = true
      · rw [if_pos same] at parts ⊢
        refine ⟨some type, rfl, ?_⟩
        rintro raw actuals ⟨⟩ actual member
        have lighter := TypeExpr.weight_le_weightAll member 0
        have reached := raw.lt_reach (0 + TypeExpr.weightAll actuals 0)
        refine ⟨parts rfl actual member, reaches.within.part member, ?_⟩
        rw [TypeExpr.front_of_not_wildcard rfl, TypeExpr.climb.eq_2]
        omega
      · rw [if_neg same] at parts ⊢
        by_cases unrelated : (!target.isAssignableFrom raw) = true
        · rw [if_pos unrelated]
          exact ⟨none, rfl, fun raw actuals none => nomatch none⟩
        · rw [if_neg unrelated] at parts ⊢
          by_cases simple : target.typeParameters.isEmpty = true
          · rw [if_pos simple]
            exact ⟨some (.plain target), rfl, fun raw actuals other => nomatch other⟩
          · rw [if_neg simple] at parts ⊢
            rcases reaches.ofType_below orderly uncaptured deep with ⟨bindings, bound, below⟩
            rw [bound] at parts ⊢
            refine ⟨_, rfl, ?_⟩
            rintro raw actuals ⟨⟩ actual member
            refine ⟨parts rfl actual member, ?_, ?_⟩
            · rcases List.mem_map.mp member with ⟨symbol, declared, rfl⟩
              exact below.within_resolve (.var symbol [])
            · rcases List.mem_map.mp member with ⟨symbol, declared, rfl⟩
              exact Nat.lt_succ_of_le (below.weight_resolve_le (.var symbol []))

/-! ## Fitting a return type -/

/-- Fitting a type to parts of what was requested binds nothing heavier than these. -/
theorem unify_below {formal actual : TypeExpr} {bindings : Bindings} (deep : n < depth)
    (within : formal.Within graph.contains) (reaches : graph.Reaches start (n + 1) actual)
    (below : bindings.Below graph n) :
    ∃ fitted, Bindings.unify depth formal actual bindings = .ok fitted ∧
      fitted.Below graph n := by
  induction within generalizing actual bindings with
  | plain within => exact ⟨bindings, rfl, below⟩
  | @parameterized raw formals within inside ih =>
      rcases reaches.asSupertype orderly uncaptured deep within with ⟨view, viewed, parts⟩
      rw [Bindings.unify, viewed]
      have climbs := TypeExpr.climb_front_le actual 0
      have climbed := TypeExpr.climb_le_weight actual
      have light := reaches.weight
      rcases view with _ | (c | ⟨raw, actuals⟩ | _ | _ | _)
      · exact ⟨bindings, rfl, below⟩
      · exact ⟨bindings, rfl, below⟩
      · refine unifyAll_below ih (fun actual member => ?_) below
        exact (parts raw actuals rfl actual member).mono (by omega)
      · exact ⟨bindings, rfl, below⟩
      · exact ⟨bindings, rfl, below⟩
      · exact ⟨bindings, rfl, below⟩
  | @wildcard upper lower above under aboveIh underIh =>
      cases actual with
      | wildcard upperActuals lowerActuals =>
          have parts : ∀ part ∈ upperActuals ++ lowerActuals, graph.Reaches start (n + 1) part :=
            fun part member => (reaches.part member).mono (Nat.le_of_lt reaches.weight)
          obtain ⟨between, fitsUpper, betweenBelow⟩ := unifyAll_below aboveIh
            (fun part member => parts part (List.mem_append_left _ member)) below
          obtain ⟨fitted, fitsLower, fittedBelow⟩ := unifyAll_below underIh
            (fun part member => parts part (List.mem_append_right _ member)) betweenBelow
          refine ⟨fitted, ?_, fittedBelow⟩
          rw [Bindings.unify, fitsUpper]
          exact fitsLower
      | plain | parameterized | var | genericArray => exact ⟨bindings, rfl, below⟩
  | var symbol bounds =>
      rw [Bindings.unify]
      split
      · exact ⟨bindings, rfl, below⟩
      · exact ⟨_, rfl, below.insert symbol reaches.within (Nat.le_of_lt_succ reaches.weight)⟩
  | @genericArray formal inside ih =>
      cases actual with
      | genericArray component =>
          have inner := reaches.part List.mem_cons_self
          exact ih (inner.mono (Nat.le_of_lt reaches.weight)) below
      | plain c =>
          rw [Bindings.unify]
          cases array : c.component? with
          | none => exact ⟨bindings, rfl, below⟩
          | some component =>
              have member : .plain component ∈ (TypeExpr.plain c).parts :=
                List.mem_map_of_mem (Option.mem_toList.mpr array)
              exact ih ((reaches.part member).mono (Nat.le_of_lt reaches.weight)) below
      | parameterized | wildcard | var => exact ⟨bindings, rfl, below⟩

/-- A factory method whose return type is no wildcard fits parts of the requested type only. -/
theorem bind_below {c : Class} {m : Method} {own : Bindings} (member : graph.contains c)
    (usable : m ∈ c.factoryMethods) (reaches : graph.Reaches start n type) (deep : n ≤ depth)
    (below : own.Below graph (type.front.climb 0 0)) :
    ∃ fitted, own.bind depth m.returnType type = .ok fitted ∧
      fitted.Below graph (type.front.climb 0 0) := by
  rcases Class.of_mem_factoryMethods usable with ⟨declared, isStatic, returned, front⟩
  have within := within_returnType member declared
  have plain := orderly.returns member declared isStatic
  have light := reaches.weight
  have climbs := TypeExpr.climb_front_le type 0
  have climbed := TypeExpr.climb_le_weight type
  unfold Bindings.bind Method.returnType
  unfold Method.returnType at front
  cases shape : m.declaration.returnType with
  | plain c => exact ⟨own, rfl, below⟩
  | parameterized raw formals =>
      rw [shape] at within
      cases within with
      | parameterized within inside =>
          rcases reaches.asSupertype orderly uncaptured deep within with ⟨view, viewed, parts⟩
          rw [Bindings.unify, viewed]
          rcases view with _ | (c | ⟨raw, actuals⟩ | _ | _ | _)
          · exact ⟨own, rfl, below⟩
          · exact ⟨own, rfl, below⟩
          · refine unifyAll_below (fun formal member actual bindings standing bound => ?_)
              (parts raw actuals rfl) below
            exact unify_below orderly uncaptured (by omega) (inside formal member) standing bound
          · exact ⟨own, rfl, below⟩
          · exact ⟨own, rfl, below⟩
          · exact ⟨own, rfl, below⟩
  | wildcard upper lower => rw [shape] at plain; cases plain
  | var symbol bounds => rw [shape] at front; cases front
  | genericArray component => rw [shape] at front; cases front

end Reaches

/-! ## Parameters -/

/-- A class with members counts for a type as much as for its parameters. -/
theorem Reaches.weight_front {c : Class} (raw : type.rawType = some c)
    (declares : c.DeclaresMembers) :
    ∃ m, type.front.weight 0 = c.weight m ∧ type.front.climb 0 0 ≤ c.bound m := by
  rcases TypeExpr.unwrap_of_rawType raw declares with plain | ⟨arguments, applied⟩
  · rw [TypeExpr.front_of_unwrap plain]
    exact ⟨0, rfl, Nat.le_add_left _ _⟩
  · rw [TypeExpr.front_of_unwrap applied, TypeExpr.climb, Nat.zero_add]
    exact ⟨TypeExpr.weightAll arguments 0, rfl, Nat.le_add_left _ _⟩

theorem Reaches.contains {c : Class} (reaches : graph.Reaches start n type)
    (raw : type.rawType = some c) (declares : c.DeclaresMembers) : graph.contains c :=
  reaches.within.contains raw declares

namespace Reaches

variable (orderly : graph.Orderly) (uncaptured : graph.Uncaptured start)
include orderly uncaptured

/-- What a constructor is to be called with is lighter than what is to be constructed. -/
theorem constructorParameter {c : Class} {k : Constructor}
    (reaches : graph.Reaches start n type) (deep : n ≤ depth)
    (constructed : Strategy.constructedClass? type = some c) (usable : k ∈ c.usableConstructors) :
    ∃ bindings, Bindings.ofType depth type = .ok bindings ∧
      ∀ parameter ∈ k.parameters,
        graph.Reaches start (type.weight 0) (bindings.resolve parameter.type) := by
  have raw := Strategy.rawType_of_constructedClass? constructed
  have declared := Class.of_mem_usableConstructors usable
  have declares : c.DeclaresMembers := Or.inl (List.ne_nil_of_mem declared)
  have member := reaches.contains raw declares
  rcases reaches.ofType_below orderly uncaptured deep with ⟨bindings, bound, below⟩
  rcases weight_front raw declares with ⟨m, weight, climbs⟩
  refine ⟨bindings, bound, fun parameter taken => ?_⟩
  have among := ParameterDeclaration.of_mem_ownedBy taken
  have within := within_constructorParameter member declared among
  refine ⟨reaches.comesUp.constructorParameter constructed usable bound taken,
    below.within_resolve within, ?_⟩
  calc (bindings.resolve parameter.type).weight 0
      ≤ parameter.type.weight (type.front.climb 0 0) := below.weight_resolve_le within
    _ ≤ parameter.type.weight (c.bound m) := TypeExpr.weight_mono _ climbs
    _ < c.weight m := c.constructorParameter_lt declared among m
    _ = type.front.weight 0 := weight.symm
    _ ≤ type.weight 0 := TypeExpr.weight_front_le type

/-- What a factory method is to be called with is lighter than what it is to return. -/
theorem methodParameter {c : Class} {m : Method}
    (reaches : graph.Reaches start n type) (deep : n ≤ depth)
    (manufactured : Strategy.manufacturedClass? type = some c) (usable : m ∈ c.factoryMethods) :
    ∃ own bindings, Bindings.ofType depth type = .ok own ∧
      own.bind depth m.returnType type = .ok bindings ∧
      ∀ parameter ∈ m.parameters,
        graph.Reaches start (type.weight 0) (bindings.resolve parameter.type) := by
  have raw := Strategy.rawType_of_manufacturedClass? manufactured
  have declared := (Class.of_mem_factoryMethods usable).1
  have declares : c.DeclaresMembers := Or.inr (List.ne_nil_of_mem declared)
  have member := reaches.contains raw declares
  rcases reaches.ofType_below orderly uncaptured deep with ⟨own, bound, ownBelow⟩
  rcases bind_below orderly uncaptured member usable reaches deep ownBelow
    with ⟨bindings, fitted, below⟩
  rcases weight_front raw declares with ⟨inside, weight, climbs⟩
  refine ⟨own, bindings, bound, fitted, fun parameter taken => ?_⟩
  have among := ParameterDeclaration.of_mem_ownedBy taken
  have within := within_methodParameter member declared among
  refine ⟨reaches.comesUp.methodParameter manufactured usable bound fitted taken,
    below.within_resolve within, ?_⟩
  calc (bindings.resolve parameter.type).weight 0
      ≤ parameter.type.weight (type.front.climb 0 0) := below.weight_resolve_le within
    _ ≤ parameter.type.weight (c.bound inside) := TypeExpr.weight_mono _ climbs
    _ < c.weight inside := c.methodParameter_lt declared among inside
    _ = type.front.weight 0 := weight.symm
    _ ≤ type.weight 0 := TypeExpr.weight_front_le type

end Reaches
end ClassGraph
end TestData
