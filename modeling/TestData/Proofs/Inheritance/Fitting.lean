import TestData.Proofs.Inheritance.Resolving
import TestData.Type.WellKnown

namespace TestData

/-!
# Fitting a type to what it resolves to

A factory method is fitted to a request by binding its return type against the requested
type.  When the request is what some bindings make of the return type, the two have the same
shape, but for generic arrays that have turned into array classes, and no class in them has to
be looked for above another one.  Fitting then recovers the bindings: every variable of the
formal type comes to stand for what it stood for.

A variable that was left as it is does not get bound, so it must not have been bound before.
What is put in for a variable may mention variables of the formal type again; it is not
resolved a second time.
-/

namespace TypeExpr

/-- A type already is what it is seen as through the class behind it. -/
theorem asSupertype_rawType {type : TypeExpr} {c : Class} (depth : Nat)
    (raw : type.rawType = some c) : type.asSupertype depth c = .ok (some type) := by
  have itself : (c == c) = true := Class.beq_iff_name_eq.mpr rfl
  unfold asSupertype
  simp only [raw, itself, if_true]

end TypeExpr

namespace Bindings

open TypeExpr

variable {source before between after : Bindings} {v : TypeVariable}

/-- The variable stands for something else than itself. -/
def Moves (bindings : Bindings) (v : TypeVariable) : Prop :=
  (bindings.resolve (.ofVariable v)).key ≠ .var v

/-- The bounds of a variable play no part in whether it stands for itself. -/
theorem moves_iff (bindings : Bindings) (v : TypeVariable) (bounds : List TypeExpr) :
    bindings.Moves v ↔ (bindings.resolve (.var v bounds)).key ≠ .var v := by
  unfold Moves
  rw [ofVariable, resolve_var, resolve_var]
  cases bindings.binding? v <;> exact Iff.rfl

/--
Of some variables those that the source moves are bound as the source binds them.  All others
are bound as they were before.
-/
structure Adopts (source before after : Bindings) (symbols : List TypeVariable) : Prop where
  adopted {v : TypeVariable} : v ∈ symbols → source.Moves v →
    after.binding? v = source.binding? v
  kept {v : TypeVariable} : (v ∈ symbols → ¬ source.Moves v) →
    after.binding? v = before.binding? v

namespace Adopts

theorem refl (source before : Bindings) : source.Adopts before before [] where
  adopted member := nomatch member
  kept _ := rfl

/-- A variable that comes up twice is bound to the same type again. -/
theorem append {first second : List TypeVariable} (one : source.Adopts before between first)
    (other : source.Adopts between after second) : source.Adopts before after (first ++ second) where
  adopted {v} member moves := by
    by_cases again : v ∈ second
    · exact other.adopted again moves
    · have begun : v ∈ first := (List.mem_append.mp member).resolve_right again
      exact (other.kept fun later => absurd later again).trans (one.adopted begun moves)
  kept still := by
    have here := one.kept fun member => still (List.mem_append_left _ member)
    exact (other.kept fun member => still (List.mem_append_right _ member)).trans here

/-- A variable is bound to what it stands for, unless that is the variable. -/
theorem single (source before : Bindings) (symbol : TypeVariable) (bounds : List TypeExpr) :
    source.Adopts before
      (if TypeExpr.var symbol bounds == source.resolve (.var symbol bounds) then before
        else before.insert symbol (source.resolve (.var symbol bounds))) [symbol] := by
  have moves := source.moves_iff symbol bounds
  split
  case isTrue same =>
    have still : ¬ source.Moves symbol := by
      rw [moves, ← beq_iff_key_eq.mp same]
      exact fun other => other rfl
    refine ⟨fun member moved => ?_, fun _ => rfl⟩
    cases List.mem_singleton.mp member
    exact absurd moved still
  case isFalse different =>
    have moved : source.Moves symbol :=
      moves.mpr fun same => different (beq_iff_key_eq.mpr same.symm)
    constructor
    · intro v member _
      cases List.mem_singleton.mp member
      rw [binding?_insert_self, resolve_var]
      cases bound : source.binding? symbol with
      | none =>
          rw [resolve_var, bound] at moves
          exact absurd rfl (moves.mp moved)
      | some value => rfl
    · intro v still
      have other : v ≠ symbol := by
        rintro rfl
        exact still List.mem_cons_self moved
      exact binding?_insert_of_ne _ _ other

end Adopts

/-- An array class takes the place of a generic array whose component has become a class. -/
theorem unify_arrayed (depth : Nat) (formal actual : TypeExpr) (bindings : Bindings) :
    unify depth (.genericArray formal) actual.arrayed bindings =
      unify depth formal actual bindings := by
  cases actual <;> rfl

mutual

/-- Fitting a type to what the source makes of it adopts what the source says of its variables. -/
theorem unify_resolve (source before : Bindings) (depth : Nat) (formal : TypeExpr) :
    ∃ after, unify depth formal (source.resolve formal) before = .ok after ∧
      source.Adopts before after formal.freeVariables := by
  cases formal with
  | plain c => exact ⟨before, rfl, .refl source before⟩
  | var symbol bounds =>
      refine ⟨_, ?_, .single source before symbol bounds⟩
      rw [unify, apply_ite Except.ok]
  | parameterized raw formals =>
      rcases unifyAll_resolve source before depth formals with ⟨after, fits, adopts⟩
      refine ⟨after, ?_, adopts⟩
      rw [resolve, unify, asSupertype_rawType depth rfl]
      exact fits
  | wildcard upper lower =>
      rcases unifyAll_resolve source before depth upper with ⟨between, above, first⟩
      rcases unifyAll_resolve source between depth lower with ⟨after, below, second⟩
      refine ⟨after, ?_, first.append second⟩
      rw [resolve, unify, above]
      exact below
  | genericArray component =>
      rcases unify_resolve source before depth component with ⟨after, fits, adopts⟩
      refine ⟨after, ?_, adopts⟩
      rw [resolve_genericArray, unify_arrayed]
      exact fits

theorem unifyAll_resolve (source before : Bindings) (depth : Nat) (formals : List TypeExpr) :
    ∃ after, unifyAll depth formals (source.resolveAll formals) before = .ok after ∧
      source.Adopts before after (freeVariablesAll formals) := by
  cases formals with
  | nil => exact ⟨before, rfl, .refl source before⟩
  | cons formal formals =>
      rcases unify_resolve source before depth formal with ⟨between, here, first⟩
      rcases unifyAll_resolve source between depth formals with ⟨after, further, second⟩
      refine ⟨after, ?_, first.append second⟩
      rw [resolveAll, unifyAll, here]
      exact further

end

/-- Variables that were not bound come to stand for what the source lets them stand for. -/
theorem Adopts.stands {symbols : List TypeVariable} (adopts : source.Adopts before after symbols)
    (member : v ∈ symbols) (unbound : before.binding? v = none) :
    (after.resolve (.ofVariable v)).byName = (source.resolve (.ofVariable v)).byName := by
  by_cases moves : source.Moves v
  · rw [ofVariable, resolve_var, resolve_var, adopts.adopted member moves]
  · have kept := adopts.kept fun _ => moves
    have itself : after.resolve (.ofVariable v) = .ofVariable v := by
      rw [ofVariable, resolve_var, kept, unbound]
      rfl
    rw [itself, ← beq_iff_byName_eq, beq_iff_key_eq]
    exact (Classical.not_not.mp moves).symm

/--
Bindings that say nothing of the variables of a type can be fitted to what others make of it.
They then make the same of it, and the variables that do not occur in it are as they were.
-/
theorem resolve_bind_resolve {formal : TypeExpr} {bindings : Bindings}
    (unbound : ∀ v ∈ formal.freeVariables, bindings.binding? v = none) (source : Bindings)
    (depth : Nat) :
    ∃ fitted, bindings.bind depth formal (source.resolve formal) = .ok fitted ∧
      (fitted.resolve formal == source.resolve formal) = true ∧
      ∀ v, v ∉ formal.freeVariables → fitted.binding? v = bindings.binding? v := by
  rcases unify_resolve source bindings depth formal with ⟨fitted, fits, adopts⟩
  refine ⟨fitted, fits, ?_, fun v absent => adopts.kept fun occurs => absurd occurs absent⟩
  rw [beq_iff_byName_eq]
  exact sketch_resolve seesArrays_named rfl fun v occurs => adopts.stands occurs (unbound v occurs)

/-- Of a map from `K` to arrays of `V` fitting recovers a `K` that mentions `V` and a text for `V`. -/
theorem map_of_arrays_fitted :
    let k : TypeVariable := ⟨"Maps::copy", "K"⟩
    let v : TypeVariable := ⟨"Maps::copy", "V"⟩
    let formal : TypeExpr := .parameterized .hashMap
      [.parameterized .hashMap [.ofVariable k, .genericArray (.ofVariable v)], .ofVariable k]
    let actual : TypeExpr := .parameterized .hashMap
      [.parameterized .hashMap [.ofVariable v, .plain (.arrayOf .string)], .ofVariable v]
    let before := empty.insert ⟨"Maps", "T"⟩ (.plain .unit)
    let source := (empty.insert v (.plain .string)).insert k (.ofVariable v)
    (∀ u ∈ formal.freeVariables, before.binding? u = none) ∧ source.resolve formal = actual ∧
      ∃ fitted, before.bind 0 formal actual = .ok fitted ∧
        (fitted.resolve formal == actual) = true := by
  intro k v formal actual before source
  have unbound : ∀ u ∈ formal.freeVariables, before.binding? u = none := by
    have occurring : formal.freeVariables = [k, v, k] := rfl
    rw [occurring]
    decide
  have made : source.resolve formal = actual := rfl
  rcases resolve_bind_resolve unbound source 0 with ⟨fitted, fits, same, -⟩
  rw [made] at fits same
  exact ⟨unbound, made, fitted, fits, same⟩

end Bindings
end TestData
