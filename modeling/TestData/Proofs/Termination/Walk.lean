import TestData.Proofs.Termination.Binding

namespace TestData

/-!
# What a walk up the hierarchy binds

A walk that binds arguments at once gets along with a depth above the climb of the type
it starts from, and what it binds weighs at most that climb.  Each supertype is walked
with the bindings of those before it, so the bound grows from one supertype to the next;
how far it grows is told by the declarations alone.
-/

variable {graph : ClassGraph} {bindings : Bindings} {type : TypeExpr} {n m : Nat}

/-- What is bound lies within the graph and weighs at most this. -/
structure Bindings.Below (graph : ClassGraph) (n : Nat) (bindings : Bindings) : Prop where
  within {symbol : TypeVariable} {value : TypeExpr}
    (bound : bindings.binding? symbol = some value) : value.Within graph.contains
  weight {symbol : TypeVariable} {value : TypeExpr}
    (bound : bindings.binding? symbol = some value) : value.weight 0 ≤ n

namespace Bindings

theorem below_empty (graph : ClassGraph) (n : Nat) : empty.Below graph n where
  within bound := nomatch bound
  weight bound := nomatch bound

theorem Below.mono (below : bindings.Below graph n) (le : n ≤ m) : bindings.Below graph m where
  within := below.within
  weight bound := Nat.le_trans (below.weight bound) le

theorem Below.insert (below : bindings.Below graph n) (symbol : TypeVariable) {value : TypeExpr}
    (within : value.Within graph.contains) (weight : value.weight 0 ≤ n) :
    (bindings.insert symbol value).Below graph n := by
  constructor
  · intro other found bound
    rcases of_binding?_insert bound with ⟨-, rfl⟩ | before
    · exact within
    · exact below.within before
  · intro other found bound
    rcases of_binding?_insert bound with ⟨-, rfl⟩ | before
    · exact weight
    · exact below.weight before

/-! ## Replacing variables -/

theorem Below.within_resolve (below : bindings.Below graph n) (within : type.Within graph.contains) :
    (bindings.resolve type).Within graph.contains :=
  (Within.mk below.within).resolve within

theorem weightAll_map_le {types : List TypeExpr} {change : TypeExpr → TypeExpr}
    (each : ∀ type ∈ types, (change type).weight m ≤ type.weight n) :
    TypeExpr.weightAll (types.map change) m ≤ TypeExpr.weightAll types n := by
  induction types with
  | nil => exact Nat.le_refl 0
  | cons first rest ih =>
      have here := each first List.mem_cons_self
      have later := ih fun type member => each type (List.mem_cons_of_mem first member)
      exact Nat.add_le_add here later

/-- Turning an array of a class into an array class leaves the weight as it is. -/
theorem weight_arrayOf (c : Class) : c.arrayOf.weight 0 = 1 + c.weight 0 := by
  simp [Class.arrayOf, Class.weight, ClassKind.weight, TypeExpr.climbAll, TypeExpr.climbOption,
    ConstructorDeclaration.weightAll, MethodDeclaration.weightAll]
  omega

/-- What is put in for variables weighs no more than the variables count for. -/
theorem Below.weight_resolve_le (below : bindings.Below graph n)
    (within : type.Within graph.contains) : (bindings.resolve type).weight 0 ≤ type.weight n := by
  induction within with
  | plain within => exact Nat.le_refl _
  | @parameterized raw arguments within _ ih =>
      rw [resolve, resolveAll_eq_map]
      exact Class.weight_mono raw (weightAll_map_le ih)
  | wildcard _ _ above below =>
      rw [resolve, resolveAll_eq_map, resolveAll_eq_map, TypeExpr.weight, TypeExpr.weight]
      have upper := weightAll_map_le above
      have lower := weightAll_map_le below
      omega
  | var symbol bounds =>
      rw [resolve]
      cases bound : bindings.binding? symbol with
      | none => exact Nat.zero_le n
      | some value => exact below.weight bound
  | genericArray _ ih =>
      rw [resolve, TypeExpr.weight]
      split
      · next c resolved =>
          rw [resolved] at ih
          rw [TypeExpr.weight] at ih ⊢
          rw [weight_arrayOf]
          omega
      · rw [TypeExpr.weight]
        omega

end Bindings

namespace TypeExpr

/-- What is left of a type without wildcards in front; the type itself if nothing is left. -/
def front (type : TypeExpr) : TypeExpr :=
  type.unwrap.getD type

theorem front_of_unwrap {front : TypeExpr} (unwraps : type.unwrap = some front) :
    type.front = front := by
  rw [TypeExpr.front, unwraps]
  rfl

theorem front_of_not_wildcard (plain : type.isWildcard = false) : type.front = type :=
  front_of_unwrap (unwrap_of_not_wildcard plain)

/-- A wildcard is used as its bound, unless nothing is left of it. -/
theorem front_wildcard {upper lower : List TypeExpr} {bound : TypeExpr}
    (found : bound? upper lower = some bound) :
    (wildcard upper lower).front = bound.front ∨
      (wildcard upper lower).front = wildcard upper lower := by
  rw [front, unwrap_wildcard, found, Option.bind_some]
  cases unwraps : bound.unwrap with
  | none => exact Or.inr rfl
  | some left => exact Or.inl (front_of_unwrap unwraps).symm

theorem climb_front_le (type : TypeExpr) (n : Nat) : type.front.climb 0 n ≤ type.climb 0 n := by
  induction type using bound_induction with
  | bounded found ih =>
      rcases front_wildcard found with left | whole
      · rw [left, climb_wildcard, found]
        dsimp only
        omega
      · exact Nat.le_of_eq (by rw [whole])
  | unbounded none =>
      rw [front, unwrap_wildcard, none]
      exact Nat.le_refl _
  | other plain => exact Nat.le_of_eq (by rw [front_of_not_wildcard plain])

theorem weight_front_le (type : TypeExpr) : type.front.weight 0 ≤ type.weight 0 := by
  induction type using bound_induction with
  | bounded found ih =>
      have lighter := weight_bound?_lt found 0
      rcases front_wildcard found with left | whole
      · rw [left]
        omega
      · exact Nat.le_of_eq (by rw [whole])
  | unbounded none =>
      rw [front, unwrap_wildcard, none]
      exact Nat.le_refl _
  | other plain => exact Nat.le_of_eq (by rw [front_of_not_wildcard plain])

theorem bound?_map (change : TypeExpr → TypeExpr) (upper lower : List TypeExpr) :
    bound? (upper.map change) (lower.map change) = (bound? upper lower).map change := by
  rw [bound?_eq, bound?_eq]
  match lower, upper with
  | [bound], _ | [], [bound] | _ :: _ :: _, [bound] => rfl
  | [], [] | [], _ :: _ :: _ | _ :: _ :: _, [] | _ :: _ :: _, _ :: _ :: _ => rfl

end TypeExpr

namespace Bindings

/-- A walk from a type with variables replaced climbs no higher than the variables count for. -/
theorem Below.climb_resolve_le (below : bindings.Below graph n)
    (within : type.Within graph.contains)
    (front : ∀ symbol bounds, type.unwrap ≠ some (.var symbol bounds)) :
    (bindings.resolve type).climb 0 n ≤ type.climb n n := by
  induction type using TypeExpr.bound_induction with
  | bounded found ih =>
      rw [TypeExpr.unwrap_wildcard, found, Option.bind_some] at front
      have inner := ih (within.part (TypeExpr.bound?_mem found)) front
      rw [resolve, resolveAll_eq_map, resolveAll_eq_map, TypeExpr.climb_wildcard,
        TypeExpr.climb_wildcard, TypeExpr.bound?_map, found]
      exact Nat.add_le_add_left inner 1
  | unbounded none =>
      rw [resolve, resolveAll_eq_map, resolveAll_eq_map, TypeExpr.climb_wildcard,
        TypeExpr.climb_wildcard, TypeExpr.bound?_map, none]
      exact Nat.le_refl _
  | @other type plain =>
      cases type with
      | plain c => exact Nat.le_refl _
      | parameterized raw arguments =>
          cases within with
          | parameterized _ inside =>
              have lighter := weightAll_map_le fun argument member =>
                below.weight_resolve_le (inside argument member)
              rw [resolve, resolveAll_eq_map]
              exact Class.reach_mono raw (Nat.add_le_add_left lighter n)
      | wildcard upper lower => cases plain
      | var symbol bounds => exact absurd rfl (front symbol bounds)
      | genericArray component =>
          rw [resolve]
          split <;> exact Nat.le_refl _

/-! ## Walking -/

theorem Below.bindAtOnce (below : bindings.Below graph n) {symbols : List TypeVariable}
    {arguments : List TypeExpr}
    (inside : ∀ argument ∈ arguments, argument.Within graph.contains ∧ argument.weight 0 ≤ n) :
    (bindings.bindAtOnce symbols arguments).Below graph n := by
  unfold Bindings.bindAtOnce
  induction symbols generalizing bindings arguments with
  | nil => exact below
  | cons symbol symbols ih =>
      cases arguments with
      | nil => exact below
      | cons argument arguments =>
          have here := inside argument List.mem_cons_self
          have asItIs := (below_empty graph 0).weight_resolve_le here.1
          have bound := below.insert symbol ((below_empty graph 0).within_resolve here.1)
            (Nat.le_trans asItIs here.2)
          exact ih bound fun other member => inside other (List.mem_cons_of_mem argument member)

/-- With this depth, walks get as far as they should, and bind no more than they should. -/
def Walks (graph : ClassGraph) (depth : Nat) : Prop :=
  ∀ {type : TypeExpr} {bindings : Bindings} {n : Nat}, type.Within graph.contains →
    bindings.Below graph n → type.climb 0 n < depth + n →
    ∃ reached, collectAtOnce depth type bindings = .ok reached ∧
      reached.Below graph (type.front.climb 0 n)

/-- Supertypes are walked one after the other, each with all that was bound before. -/
theorem Walks.supertypes {depth : Nat} (walks : Walks graph depth) {supertypes : List TypeExpr}
    (within : ∀ supertype ∈ supertypes, supertype.Within graph.contains)
    (fronts : ∀ supertype ∈ supertypes, ∀ symbol bounds,
      supertype.unwrap ≠ some (.var symbol bounds))
    (below : bindings.Below graph n) (deep : TypeExpr.climbAll supertypes n < depth + n) :
    ∃ reached, supertypes.foldlM (fun bindings supertype =>
        collectAtOnce depth (bindings.resolve supertype) bindings) bindings = .ok reached ∧
      reached.Below graph (TypeExpr.climbAll supertypes n) := by
  induction supertypes generalizing bindings n with
  | nil => exact ⟨bindings, rfl, below⟩
  | cons first rest ih =>
      have inside := within first List.mem_cons_self
      have climbed := below.climb_resolve_le inside (fronts first List.mem_cons_self)
      have upwards := TypeExpr.le_climb first n n
      have further := TypeExpr.le_climbAll rest (first.climb n n)
      rw [TypeExpr.climbAll] at deep ⊢
      rcases walks (below.within_resolve inside) below (by omega) with ⟨between, walked, bounded⟩
      have between_below : between.Below graph (first.climb n n) :=
        bounded.mono (Nat.le_trans (TypeExpr.climb_front_le _ n) climbed)
      obtain ⟨reached, goesOn, last⟩ := ih
        (fun other member => within other (List.mem_cons_of_mem first member))
        (fun other member => fronts other (List.mem_cons_of_mem first member))
        between_below (by omega)
      refine ⟨reached, ?_, last⟩
      rw [List.foldlM_cons, walked]
      exact goesOn

theorem Walks.above {depth : Nat} (walks : Walks graph depth) (orderly : graph.Orderly) {c : Class}
    (within : c.Within graph.contains) (below : bindings.Below graph n)
    (deep : c.reach n < depth + 1 + n) :
    ∃ reached, c.supertypes.foldlM (fun bindings supertype =>
        collectAtOnce depth (bindings.resolve supertype) bindings) bindings = .ok reached ∧
      reached.Below graph (c.reach n) := by
  rw [Class.reach_eq] at deep ⊢
  obtain ⟨reached, walked, bounded⟩ := walks.supertypes
    (fun supertype declared => ClassGraph.within_supertype within declared)
    (fun supertype declared => orderly.supertype_ne_var within declared)
    below (by omega)
  exact ⟨reached, walked, bounded.mono (Nat.le_add_left _ 1)⟩

/-- Where no class stands below a type variable, a depth above the climb suffices for a walk. -/
theorem walks (orderly : graph.Orderly) (depth : Nat) : Walks graph depth := by
  induction depth with
  | zero =>
      intro type bindings n within below deep
      have upwards := TypeExpr.le_climb type 0 n
      omega
  | succ depth walks =>
      intro type bindings n within below deep
      cases within with
      | plain within => exact walks.above orderly within below deep
      | @parameterized raw arguments within inside =>
          have bound : (bindings.bindAtOnce raw.typeVariables arguments).Below graph
              (n + TypeExpr.weightAll arguments 0) :=
            (below.mono (Nat.le_add_right n _)).bindAtOnce fun argument member =>
              ⟨inside argument member, Nat.le_trans (TypeExpr.weight_le_weightAll member 0)
                (Nat.le_add_left _ n)⟩
          rw [TypeExpr.climb] at deep
          exact walks.above orderly within bound (by omega)
      | @wildcard upper lower above under =>
          rw [TypeExpr.climb_wildcard] at deep
          cases found : TypeExpr.bound? upper lower with
          | none =>
              refine ⟨bindings, ?_, below.mono (TypeExpr.le_climb _ 0 n)⟩
              rw [collectAtOnce, found]
          | some bound =>
              rw [found] at deep
              dsimp only at deep
              have inside : bound.Within graph.contains := by
                rcases List.mem_append.mp (TypeExpr.bound?_mem found) with member | member
                · exact above bound member
                · exact under bound member
              rcases walks inside below (by omega) with ⟨reached, walked, bounded⟩
              refine ⟨reached, ?_, ?_⟩
              · rw [collectAtOnce, found]
                exact walked
              · rcases TypeExpr.front_wildcard found with left | whole
                · rw [left]
                  exact bounded
                · apply bounded.mono
                  have lower := TypeExpr.climb_front_le bound n
                  rw [whole, TypeExpr.climb_wildcard, found]
                  dsimp only
                  omega
      | var symbol bounds => exact ⟨bindings, rfl, below⟩
      | genericArray inside =>
          exact ⟨bindings, rfl, below.mono (Nat.le_add_left n 1)⟩

end Bindings
end TestData
