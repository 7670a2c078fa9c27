import Mathlib.Logic.Function.Iterate
import TestData.Proofs.Inheritance.Views
import TestData.Proofs.Transparency

namespace TestData

/-!
# Arrays of arrays

An array of a class can be described by an array class or by a generic array, and resolving turns
the second description into the first.  The strategy for arrays takes array classes of any number of
dimensions, but a generic array only if its component has a class behind it, which a generic array
has not.  So of generic arrays over one another only those of one dimension are accepted as they
are, while all of them are once they have been resolved.
-/

namespace TypeExpr

open Bindings (resolve_genericArray)

variable {type component : TypeExpr}

/-! ## Acceptance -/

theorem isSome_component?_genericArray (component : TypeExpr) :
    (genericArray component).component?.isSome = component.rawType.isSome := by
  unfold component? unwrap
  cases present : component.rawType.isSome <;> simp only [present] <;> rfl

/-- An array has a class behind it, unless it is a generic array. -/
theorem isSome_rawType_of_component? (array : type.component?.isSome = true)
    (noGenericArray : ∀ component, type.unwrap ≠ some (.genericArray component)) :
    type.rawType.isSome = true := by
  unfold component? at array
  cases front : type.unwrap with
  | none =>
      rw [front] at array
      cases array
  | some inner =>
      rw [rawType_of_unwrap front]
      rw [front] at array
      cases inner with
      | plain | parameterized => rfl
      | genericArray component => exact absurd front (noGenericArray component)
      | wildcard | var => cases array

/-- Nothing tells the class behind a generic array. -/
theorem isSome_rawType_iff (either : type.rawType.isSome = true ∨ type.component?.isSome = true) :
    type.rawType.isSome = true ↔ ∀ component, type.unwrap ≠ some (.genericArray component) := by
  constructor
  · intro raw component front
    rw [rawType_of_unwrap front] at raw
    cases raw
  · intro noGenericArray
    exact either.elim id fun array => isSome_rawType_of_component? array noGenericArray

/-! ## Resolving without bindings -/

theorem isWildcard_resolve_empty (plain : type.isWildcard = false) :
    (Bindings.empty.resolve type).isWildcard = false := by
  cases type with
  | wildcard => cases plain
  | plain | parameterized | var => rfl
  | genericArray component =>
      rw [resolve_genericArray]
      cases Bindings.empty.resolve component <;> rfl

/-- Resolving without bindings goes on behind wildcards as it does in front of them. -/
theorem unwrap_resolve_empty (type : TypeExpr) :
    (Bindings.empty.resolve type).unwrap = type.unwrap.map Bindings.empty.resolve := by
  induction type using bound_induction with
  | bounded found ih =>
      rw [Bindings.resolve, unwrap_wildcard, unwrap_wildcard, Bindings.resolveAll_eq_map,
        Bindings.resolveAll_eq_map, bound?_map, found]
      exact ih
  | unbounded none =>
      rw [Bindings.resolve, unwrap_wildcard, unwrap_wildcard, Bindings.resolveAll_eq_map,
        Bindings.resolveAll_eq_map, bound?_map, none]
      rfl
  | other plain =>
      rw [unwrap_of_not_wildcard plain, unwrap_of_not_wildcard (isWildcard_resolve_empty plain)]
      rfl

/-- There is no class behind variables and generic arrays only. -/
theorem unwrap_of_rawType_eq_none (noClass : type.rawType = none) :
    (∃ symbol bounds, type.unwrap = some (.var symbol bounds)) ∨
      ∃ component, type.unwrap = some (.genericArray component) := by
  induction type using bound_induction with
  | bounded found ih =>
      rw [rawType_wildcard, found] at noClass
      rw [unwrap_wildcard, found]
      exact ih noClass
  | unbounded none =>
      rw [rawType_wildcard, none] at noClass
      cases noClass
  | @other type plain =>
      rw [unwrap_of_not_wildcard plain]
      cases type with
      | var symbol bounds => exact .inl ⟨symbol, bounds, rfl⟩
      | genericArray component => exact .inr ⟨component, rfl⟩
      | plain | parameterized => cases noClass
      | wildcard => cases plain

/-- Behind a resolved type there is the class that was there, or the array class of a component. -/
theorem isSome_rawType_resolve_iff :
    (Bindings.empty.resolve type).rawType.isSome = true ↔
      type.rawType.isSome = true ∨
        ∃ component c, type.unwrap = some (.genericArray component) ∧
          Bindings.empty.resolve component = .plain c := by
  cases raw : type.rawType with
  | some c =>
      rw [rawType_resolve Bindings.empty raw]
      exact ⟨fun _ => .inl rfl, fun _ => rfl⟩
  | none =>
      have resolved := unwrap_resolve_empty type
      rcases unwrap_of_rawType_eq_none raw with ⟨symbol, bounds, front⟩ | ⟨component, front⟩
      · rw [front] at resolved
        rw [rawType_of_unwrap resolved, front]
        constructor
        · exact nofun
        · rintro (absent | ⟨component, c, other, -⟩)
          · cases absent
          · cases other
      · rw [front, Option.map_some, resolve_genericArray] at resolved
        rw [rawType_of_unwrap resolved, front]
        cases inner : Bindings.empty.resolve component with
        | plain c => exact ⟨fun _ => .inr ⟨component, c, rfl, inner⟩, fun _ => rfl⟩
        | parameterized | wildcard | var | genericArray =>
            constructor
            · exact nofun
            · rintro (absent | ⟨component', c, same, other⟩)
              · cases absent
              · cases same
                cases inner.symm.trans other

/-- An array of any component that has a class behind it is accepted, in whichever description. -/
theorem isSome_component?_arrayed (component : TypeExpr) :
    component.arrayed.component?.isSome = component.rawType.isSome := by
  cases component with
  | plain c => rfl
  | parameterized | wildcard | var | genericArray => exact isSome_component?_genericArray _

/-- Acceptance goes by what is found behind wildcards. -/
theorem component?_of_unwrap {front : TypeExpr} (unwraps : type.unwrap = some front) :
    type.component? = front.component? := by
  unfold component?
  rw [unwraps, unwrap_of_unwrap unwraps]

theorem isSome_component?_resolve_of_array (front : type.unwrap = some (.genericArray component)) :
    (Bindings.empty.resolve type).component?.isSome =
      (Bindings.empty.resolve component).rawType.isSome := by
  have resolved := unwrap_resolve_empty type
  rw [front, Option.map_some, resolve_genericArray] at resolved
  rw [component?_of_unwrap resolved, isSome_component?_arrayed]

theorem isSome_component?_resolve_of_other
    (other : ∀ component, type.unwrap ≠ some (.genericArray component)) :
    (Bindings.empty.resolve type).component?.isSome = type.component?.isSome := by
  unfold component?
  rw [unwrap_resolve_empty]
  cases front : type.unwrap with
  | none => rfl
  | some inner =>
      cases inner with
      | plain | parameterized | wildcard | var => rfl
      | genericArray component => exact absurd front (other component)

/-- An array is accepted no later than it is resolved, unless its component is then an array class. -/
theorem isSome_component?_resolve_eq_iff (front : type.unwrap = some (.genericArray component)) :
    (Bindings.empty.resolve type).component?.isSome = type.component?.isSome ↔
      ¬ ∃ inner c, component.unwrap = some (.genericArray inner) ∧
        Bindings.empty.resolve inner = .plain c := by
  have classes := @isSome_rawType_resolve_iff component
  rw [isSome_component?_resolve_of_array front, component?_of_unwrap front,
    isSome_component?_genericArray]
  constructor
  · rintro same ⟨inner, c, behind, becomes⟩
    have noClass : component.rawType = none := rawType_of_unwrap behind
    have class' := classes.mpr (.inr ⟨inner, c, behind, becomes⟩)
    rw [same, noClass] at class'
    cases class'
  · intro never
    exact Bool.eq_iff_iff.mpr (classes.trans (or_iff_left never))

/-! ## Generic arrays over one another -/

theorem isSome_rawType_iterate_genericArray (type : TypeExpr) (count : Nat) :
    (genericArray^[count + 1] type).rawType = none := by
  rw [Function.iterate_succ_apply']
  rfl

/-- Over a class they come down to array classes over one another. -/
theorem resolve_iterate_genericArray (c : Class) (count : Nat) :
    Bindings.empty.resolve (genericArray^[count] (.plain c)) = .plain (Class.arrayOf^[count] c) := by
  induction count with
  | zero => rfl
  | succ count ih =>
      rw [Function.iterate_succ_apply', Function.iterate_succ_apply', resolve_genericArray, ih]
      rfl

end TypeExpr

open TypeExpr in
/--
The strategy for arrays accepts a generic array if and only if there is a class behind its
component.  So of an array type that it accepts itself it accepts the generic array just when that
type is no generic array, and of generic arrays over one another only those of one dimension, though
all of them come down to array classes that it accepts.  Resolving without bindings makes it change
its mind about just those generic arrays whose component is a generic array of what becomes a class.
-/
theorem Strategy.generic_arrays_accepted_iff (size : Size) (site : Site) (store : Store) :
    let accepts type := ((Strategy.array size).accepts site type store).1
    (∀ type, accepts (.genericArray type) = type.rawType.isSome) ∧
    (∀ type : TypeExpr, type.rawType.isSome = true ∨ accepts type = true →
      (accepts (.genericArray type) = true ↔
        ∀ component, type.unwrap ≠ some (.genericArray component))) ∧
    (∀ type : TypeExpr, type.rawType.isSome = true → ∀ count,
      accepts (genericArray^[count + 1] type) = true ↔ count = 0) ∧
    (∀ c count, accepts (Bindings.empty.resolve (genericArray^[count + 1] (.plain c))) = true) ∧
    ∀ type : TypeExpr, accepts (Bindings.empty.resolve type) = accepts type ↔
      ¬ ∃ component inner c, type.unwrap = some (.genericArray component) ∧
        component.unwrap = some (.genericArray inner) ∧
        Bindings.empty.resolve inner = .plain c := by
  intro accepts
  have generic : ∀ type, accepts (.genericArray type) = type.rawType.isSome :=
    isSome_component?_genericArray
  refine ⟨generic, ?ofAccepted, ?dimensions, ?resolved, ?agreement⟩
  case ofAccepted =>
    intro type either
    rw [generic]
    exact isSome_rawType_iff either
  case dimensions =>
    intro type raw count
    rw [Function.iterate_succ_apply', generic]
    cases count with
    | zero => exact ⟨fun _ => rfl, fun _ => raw⟩
    | succ count =>
        rw [isSome_rawType_iterate_genericArray]
        exact ⟨nofun, nofun⟩
  case resolved =>
    intro c count
    rw [resolve_iterate_genericArray, Function.iterate_succ_apply']
    rfl
  case agreement =>
    intro type
    by_cases array : ∃ component, type.unwrap = some (.genericArray component)
    · rcases array with ⟨component, front⟩
      refine (isSome_component?_resolve_eq_iff front).trans (not_congr ?_)
      constructor
      · rintro ⟨inner, c, behind, becomes⟩
        exact ⟨component, inner, c, front, behind, becomes⟩
      · rintro ⟨other, inner, c, front', behind, becomes⟩
        cases front.symm.trans front'
        exact ⟨inner, c, behind, becomes⟩
    · have same := isSome_component?_resolve_of_other (not_exists.mp array)
      exact ⟨fun _ ⟨component, _, _, front, _⟩ => array ⟨component, front⟩, fun _ => same⟩

/-- A row of letters is accepted, and a table, which is a row of rows, only once it is resolved. -/
theorem Strategy.table_of_letters_refused :
    let letter : TypeExpr := .plain (.named "Letter")
    let row : TypeExpr := .genericArray letter
    let table : TypeExpr := .genericArray row
    let accepts type := ((Strategy.array (.fixed 2)).accepts .unknown type {}).1
    letter.rawType.isSome = true ∧ accepts row = true ∧ accepts table = false ∧
      accepts (Bindings.empty.resolve table) = true := by
  intro letter row table accepts
  rcases generic_arrays_accepted_iff (.fixed 2) .unknown {} with
    ⟨-, ofAccepted, dimensions, resolved, -⟩
  have isRow : accepts row = true := (dimensions letter rfl 0).mpr rfl
  have noTable : ¬ accepts table = true := fun accepted =>
    (ofAccepted row (.inr isRow)).mp accepted letter rfl
  exact ⟨rfl, isRow, Bool.eq_false_iff.mpr noTable, resolved (.named "Letter") 1⟩

end TestData
