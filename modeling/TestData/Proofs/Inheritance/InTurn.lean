import Mathlib.Data.List.Induction
import Mathlib.Data.List.Nodup
import TestData.Proofs.Inheritance.Views

namespace TestData

/-!
# Arguments bound one after the other

A type binds the parameters of its class to its arguments one after the other, and each
argument is resolved with what has been bound before it.  An argument that mentions a
parameter to its left therefore comes to mention what that parameter was bound to.  This
makes no difference exactly when the parameter was bound to itself: of the two arguments of
`Couple<B, A>` the second is lost.

The walk on to the supertypes of the class binds variables of other classes only, so in the
end the parameters still stand for what binding the arguments made of them.
-/

namespace TypeExpr

/-! ## What tells resolved types apart -/

theorem byName_parameterized (raw : Class) (arguments : List TypeExpr) :
    (parameterized raw arguments).byName =
      .parameterized (.named raw.name) (arguments.map byName) := by
  rw [byName, sketch, sketchAll_eq_map]
  rfl

theorem byName_wildcard (upper lower : List TypeExpr) :
    (wildcard upper lower).byName = .wildcard (upper.map byName) (lower.map byName) := by
  rw [byName, sketch, sketchAll_eq_map, sketchAll_eq_map]
  rfl

/-- Arrays are equal only if their components are. -/
theorem byName_eq_of_arrayed {a b : TypeExpr} (alike : a.arrayed.byName = b.arrayed.byName) :
    a.byName = b.byName := by
  cases a <;> cases b <;>
    simp_all [byName, sketch, arrayed, ofVariable, Class.arrayOf, Class.named]

end TypeExpr

namespace Bindings

open TypeExpr

variable {first second before : Bindings} {type : TypeExpr} {c : Class}

/-- Bindings make equal types of a type exactly when they do so of each of its variables. -/
theorem byName_resolve_eq_iff :
    (first.resolve type).byName = (second.resolve type).byName ↔
      ∀ v ∈ type.freeVariables,
        (first.resolve (.ofVariable v)).byName = (second.resolve (.ofVariable v)).byName := by
  constructor
  · intro same v occurs
    induction type using descriptor_induction with
    | plain c above => cases occurs
    | parameterized raw arguments above inside =>
        simp only [resolve, resolveAll_eq_map, byName_parameterized, List.map_map] at same
        rcases mem_freeVariables_parameterized.mp occurs with ⟨argument, member, occurs⟩
        have each := List.map_inj_left.mp (TypeExpr.parameterized.inj same).2
        exact inside argument member (each argument member) occurs
    | wildcard upper lower inUpper inLower =>
        simp only [resolve, resolveAll_eq_map, byName_wildcard, List.map_map] at same
        rcases TypeExpr.wildcard.inj same with ⟨sameUpper, sameLower⟩
        rcases mem_freeVariables_wildcard.mp occurs with ⟨bound, member, occurs⟩
        rcases List.mem_append.mp member with member | member
        · exact inUpper bound member (List.map_inj_left.mp sameUpper bound member) occurs
        · exact inLower bound member (List.map_inj_left.mp sameLower bound member) occurs
    | var symbol bounds =>
        cases List.mem_singleton.mp occurs
        rw [byName, byName, sketch_resolve_var, sketch_resolve_var _ second] at same
        exact same
    | genericArray component inside =>
        rw [resolve_genericArray, resolve_genericArray] at same
        exact inside (byName_eq_of_arrayed same) occurs
  · exact sketch_resolve seesArrays_named rfl

/-! ## Arguments in turn -/

/-- Bind variables one after the other; each type is resolved with what is bound by then. -/
def bindInTurn (bindings : Bindings) (entries : List (TypeVariable × TypeExpr)) : Bindings :=
  entries.foldl (fun bindings entry => bindings.insert entry.1 (bindings.resolve entry.2)) bindings

theorem bindArguments_eq (bindings : Bindings) (symbols : List TypeVariable)
    (arguments : List TypeExpr) :
    bindings.bindArguments symbols arguments = bindings.bindInTurn (symbols.zip arguments) := rfl

theorem bindInTurn_concat (bindings : Bindings) (entries : List (TypeVariable × TypeExpr))
    (entry : TypeVariable × TypeExpr) :
    bindings.bindInTurn (entries ++ [entry]) =
      (bindings.bindInTurn entries).insert entry.1 ((bindings.bindInTurn entries).resolve entry.2) := by
  rw [bindInTurn, List.foldl_append]
  rfl

theorem binding?_bindInTurn {entries : List (TypeVariable × TypeExpr)} {v : TypeVariable}
    (other : ∀ entry ∈ entries, entry.1 ≠ v) :
    (before.bindInTurn entries).binding? v = before.binding? v := by
  induction entries using List.reverseRecOn with
  | nil => rfl
  | append_singleton entries entry ih =>
      rcases List.forall_mem_append.mp other with ⟨others, last⟩
      have different : v ≠ entry.1 := (last entry List.mem_cons_self).symm
      rw [bindInTurn_concat, binding?_insert_of_ne _ _ different, ih others]

/-- Every type that mentions a variable bound before it was preceded by that variable itself. -/
def Orderly (entries : List (TypeVariable × TypeExpr)) : Prop :=
  entries.Pairwise fun earlier later =>
    earlier.1 ∈ later.2.freeVariables → (earlier.2 == .ofVariable earlier.1) = true

/-- The variables stand for the types they were to be bound to. -/
def Fits (bindings : Bindings) (entries : List (TypeVariable × TypeExpr)) : Prop :=
  ∀ entry ∈ entries,
    (bindings.resolve (.ofVariable entry.1)).byName = (empty.resolve entry.2).byName

theorem Fits.congr {entries : List (TypeVariable × TypeExpr)}
    (same : ∀ entry ∈ entries, first.binding? entry.1 = second.binding? entry.1) :
    first.Fits entries ↔ second.Fits entries := by
  apply forall₂_congr
  intro entry member
  rw [ofVariable, resolve_var, resolve_var, same entry member]

/-- Resolving without bindings makes a variable of nothing but the variable. -/
theorem byName_resolve_eq_ofVariable_iff {symbol : TypeVariable} :
    (empty.resolve type).byName = (ofVariable symbol).byName ↔
      (type == .ofVariable symbol) = true := by
  rw [beq_iff_byName_eq]
  cases type with
  | plain | parameterized | wildcard => exact ⟨nofun, nofun⟩
  | var => exact Iff.rfl
  | genericArray component =>
      rw [resolve_genericArray]
      cases empty.resolve component <;> exact ⟨nofun, nofun⟩

/--
After the types before it have fitted, a further type is taken as it is exactly when the
variables of theirs that it mentions have been bound to themselves.
-/
theorem Fits.byName_resolve_eq_iff {entries : List (TypeVariable × TypeExpr)}
    (fits : (empty.bindInTurn entries).Fits entries) :
    ((empty.bindInTurn entries).resolve type).byName = (empty.resolve type).byName ↔
      ∀ entry ∈ entries, entry.1 ∈ type.freeVariables →
        (entry.2 == .ofVariable entry.1) = true := by
  rw [Bindings.byName_resolve_eq_iff]
  constructor
  · intro same entry member occurs
    have itself : (empty.resolve entry.2).byName = (ofVariable entry.1).byName :=
      (fits entry member).symm.trans (same entry.1 occurs)
    exact byName_resolve_eq_ofVariable_iff.mp itself
  · intro itself v occurs
    by_cases bound : ∃ entry ∈ entries, entry.1 = v
    · rcases bound with ⟨entry, member, rfl⟩
      rw [fits entry member]
      exact byName_resolve_eq_ofVariable_iff.mpr (itself entry member occurs)
    · have unbound : ∀ entry ∈ entries, entry.1 ≠ v := fun entry member same =>
        bound ⟨entry, member, same⟩
      rw [ofVariable, resolve_var, binding?_bindInTurn unbound]
      rfl

/-- Distinct variables stand for the types they were to be bound to if these come in order. -/
theorem fits_bindInTurn_iff {entries : List (TypeVariable × TypeExpr)}
    (distinct : (entries.map Prod.fst).Nodup) :
    (empty.bindInTurn entries).Fits entries ↔ Orderly entries := by
  induction entries using List.reverseRecOn with
  | nil => exact ⟨fun _ => .nil, fun _ => nofun⟩
  | append_singleton entries entry ih =>
      rw [List.map_append, List.nodup_append] at distinct
      rcases distinct with ⟨others, -, apart⟩
      have different : ∀ earlier ∈ entries, earlier.1 ≠ entry.1 := fun earlier member =>
        apart earlier.1 (List.mem_map_of_mem member) entry.1 List.mem_cons_self
      have before : (empty.bindInTurn (entries ++ [entry])).Fits entries ↔
          (empty.bindInTurn entries).Fits entries := by
        apply Fits.congr
        intro earlier member
        rw [bindInTurn_concat, binding?_insert_of_ne _ _ (different earlier member)]
      have last : (empty.bindInTurn (entries ++ [entry])).Fits [entry] ↔
          ((empty.bindInTurn entries).resolve entry.2).byName =
            (empty.resolve entry.2).byName := by
        rw [Fits, List.forall_mem_singleton, bindInTurn_concat, ofVariable, resolve_var,
          binding?_insert_self]
        rfl
      calc
        (empty.bindInTurn (entries ++ [entry])).Fits (entries ++ [entry])
            ↔ (empty.bindInTurn (entries ++ [entry])).Fits entries ∧
                (empty.bindInTurn (entries ++ [entry])).Fits [entry] := List.forall_mem_append
        _ ↔ (empty.bindInTurn entries).Fits entries ∧
              ((empty.bindInTurn entries).resolve entry.2).byName =
                (empty.resolve entry.2).byName := and_congr before last
        _ ↔ (empty.bindInTurn entries).Fits entries ∧
              ∀ earlier ∈ entries, earlier.1 ∈ entry.2.freeVariables →
                (earlier.2 == .ofVariable earlier.1) = true :=
            and_congr_right Fits.byName_resolve_eq_iff
        _ ↔ Orderly entries ∧ ∀ earlier ∈ entries, earlier.1 ∈ entry.2.freeVariables →
              (earlier.2 == .ofVariable earlier.1) = true := and_congr_left' (ih others)
        _ ↔ Orderly (entries ++ [entry]) := by
            rw [Orderly, Orderly, List.pairwise_append]
            simp only [List.pairwise_singleton, List.forall_mem_singleton, true_and]

end Bindings

/-! ## What the supertypes add -/

/-- Neither the class nor any class above it has a type variable for a supertype. -/
def Class.ExtendsNoVariable (c : Class) : Prop :=
  ∀ d, d = c ∨ c.Extends d → ∀ supertype ∈ d.supertypes, ∀ symbol bounds,
    supertype.unwrap ≠ some (.var symbol bounds)

/-- A supertype is no variable, and what holds of the class holds of the class behind it. -/
theorem Class.ExtendsNoVariable.supertype {c : Class} (proper : c.ExtendsNoVariable)
    {supertype : TypeExpr} (declared : supertype ∈ c.supertypes) :
    (∀ symbol bounds, supertype.unwrap ≠ some (.var symbol bounds)) ∧
      ∀ d, supertype.rawType = some d → d.ExtendsNoVariable := by
  refine ⟨proper c (.inl rfl) supertype declared, fun d raw => ?_⟩
  have direct : d ∈ c.rawSupertypes := List.mem_filterMap.mpr ⟨supertype, declared, raw⟩
  rintro e (rfl | higher)
  · exact proper e (.inr (.direct direct))
  · exact proper e (.inr (.further direct higher))

namespace Bindings

open TypeExpr

variable {before : Bindings} {type : TypeExpr} {c : Class}

/--
Whatever has been put in for variables of the type, a walk from there ends, and it binds no
variable but those of the class behind the type and of classes above that.
-/
def Passes (type : TypeExpr) : Prop :=
  ∀ put before : Bindings, ∃ after,
    Eventually (fun depth => collect depth (put.resolve type) before) after ∧
    ∀ v : TypeVariable,
      (∀ c, type.rawType = some c → ∀ d, d = c ∨ c.Extends d → v.declaredBy ≠ d.name) →
      after.binding? v = before.binding? v

theorem collectAll_passes {supertypes : List TypeExpr}
    (declared : ∀ supertype ∈ supertypes, supertype ∈ c.supertypes)
    (each : ∀ supertype ∈ supertypes, Passes supertype) (before : Bindings) :
    ∃ after, Eventually (fun depth => collectAll depth supertypes before) after ∧
      ∀ v : TypeVariable, (∀ d, c.Extends d → v.declaredBy ≠ d.name) →
        after.binding? v = before.binding? v := by
  induction supertypes generalizing before with
  | nil => exact ⟨before, .const before, fun _ _ => rfl⟩
  | cons supertype rest ih =>
      rcases List.forall_mem_cons.mp declared with ⟨first, others⟩
      rcases List.forall_mem_cons.mp each with ⟨passes, pass⟩
      rcases passes before before with ⟨between, ends, keeps⟩
      rcases ih others pass between with ⟨after, goesOn, alsoKeeps⟩
      refine ⟨after, ends.bind goesOn, fun v apart => (alsoKeeps v apart).trans (keeps v ?_)⟩
      intro d raw e reached
      have direct : d ∈ c.rawSupertypes := List.mem_filterMap.mpr ⟨supertype, first, raw⟩
      rcases reached with rfl | higher
      · exact apart e (.direct direct)
      · exact apart e (.further direct higher)

/-- A walk from a type that unwraps to no variable passes, if no class behind it extends one. -/
theorem passes (front : ∀ symbol bounds, type.unwrap ≠ some (.var symbol bounds))
    (proper : ∀ c, type.rawType = some c → c.ExtendsNoVariable) : Passes type := by
  have supertypes : ∀ {c : Class}, c.ExtendsNoVariable →
      (∀ supertype ∈ c.supertypes,
        (∀ symbol bounds, supertype.unwrap ≠ some (.var symbol bounds)) →
        (∀ d, supertype.rawType = some d → d.ExtendsNoVariable) → Passes supertype) →
      ∀ supertype ∈ c.supertypes, Passes supertype := by
    intro c proper each supertype member
    rcases proper.supertype member with ⟨noVariable, above⟩
    exact each supertype member noVariable above
  induction type using descriptor_induction with
  | plain c above =>
      intro put before
      rcases collectAll_passes (fun _ member => member) (supertypes (proper c rfl) above) before with
        ⟨after, ends, keeps⟩
      refine ⟨after, ends.deeper fun depth => collect_plain depth c before, fun v apart => ?_⟩
      exact keeps v fun d higher => apart c rfl d (.inr higher)
  | parameterized raw arguments above inside =>
      intro put before
      rcases collectAll_passes (fun _ member => member) (supertypes (proper raw rfl) above)
        (before.bindArguments raw.typeVariables (arguments.map put.resolve)) with
        ⟨after, ends, keeps⟩
      refine ⟨after, ends.deeper fun depth => ?_, fun v apart => ?_⟩
      · rw [resolve, resolveAll_eq_map, collect_parameterized]
      · have other : v ∉ raw.typeVariables := by
          intro declared
          rcases List.mem_map.mp declared with ⟨name, _, rfl⟩
          exact apart raw rfl raw (.inl rfl) rfl
        rw [keeps v fun d higher => apart raw rfl d (.inr higher), binding?_bindArguments other]
  | wildcard upper lower inUpper inLower =>
      intro put before
      have behind : ∀ {bound}, bound? upper lower = some bound → Passes bound := by
        intro bound found
        rw [unwrap_wildcard, found] at front
        rw [rawType_wildcard, found] at proper
        rcases List.mem_append.mp (bound?_mem found) with member | member
        · exact inUpper bound member front proper
        · exact inLower bound member front proper
      rw [resolve, resolveAll_eq_map, resolveAll_eq_map]
      cases found : bound? upper lower with
      | none =>
          refine ⟨before, (Eventually.const before).deeper fun depth => ?_, fun _ _ => rfl⟩
          rw [collect_wildcard, bound?_map, found]
          rfl
      | some bound =>
          rcases behind found put before with ⟨after, ends, keeps⟩
          refine ⟨after, ends.deeper fun depth => ?_, fun v apart => keeps v ?_⟩
          · rw [collect_wildcard, bound?_map, found]
            rfl
          · rw [rawType_wildcard, found] at apart
            exact apart
  | var symbol bounds => exact absurd rfl (front symbol bounds)
  | genericArray component inside =>
      intro put before
      -- An array class that an array turns into has no supertypes.
      refine ⟨before, (Eventually.const before).deeper fun depth => ?_, fun _ _ => rfl⟩
      rw [resolve_genericArray]
      cases put.resolve component <;> rfl

end Bindings

/--
For a class with distinct parameters that extends no variable and no class of its own name,
every walk ends; and the parameters come to stand for the arguments as they were given exactly
if no argument mentions a parameter to its left that is not its own argument.
-/
theorem parameters_stand_for_arguments_iff {c : Class} {arguments : List TypeExpr}
    (distinct : c.typeParameters.Nodup) (each : arguments.length = c.typeParameters.length)
    (proper : c.ExtendsNoVariable) (apart : ∀ d, c.Extends d → d.name ≠ c.name) :
    ∃ bindings,
      Eventually (fun depth => Bindings.ofType depth (.parameterized c arguments)) bindings ∧
      ((∀ entry ∈ c.typeVariables.zip arguments, ∀ bounds,
          (bindings.resolve (.var entry.1 bounds) == Bindings.empty.resolve entry.2) = true) ↔
        Bindings.Orderly (c.typeVariables.zip arguments)) := by
  have passes : ∀ supertype ∈ c.supertypes, Bindings.Passes supertype := by
    intro supertype member
    rcases proper.supertype member with ⟨noVariable, above⟩
    exact Bindings.passes noVariable above
  rcases Bindings.collectAll_passes (fun _ member => member) passes
    (Bindings.empty.bindArguments c.typeVariables arguments) with ⟨bindings, ends, keeps⟩
  refine ⟨bindings, ends.deeper fun depth => Bindings.collect_parameterized depth c arguments _, ?_⟩
  have own : ((c.typeVariables.zip arguments).map Prod.fst).Nodup := by
    have enough : c.typeVariables.length ≤ arguments.length :=
      Nat.le_of_eq ((List.length_map _).trans each.symm)
    rw [List.map_fst_zip enough]
    exact distinct.map fun _ _ same => (TypeVariable.mk.inj same).2
  have kept : ∀ entry ∈ c.typeVariables.zip arguments, bindings.binding? entry.1 =
      (Bindings.empty.bindInTurn (c.typeVariables.zip arguments)).binding? entry.1 := by
    intro entry member
    rw [← Bindings.bindArguments_eq]
    apply keeps
    intro d higher same
    rcases List.mem_map.mp (List.of_mem_zip member).1 with ⟨name, _, declared⟩
    rw [← declared] at same
    exact apart d higher same.symm
  have compared : (∀ entry ∈ c.typeVariables.zip arguments, ∀ bounds,
      (bindings.resolve (.var entry.1 bounds) == Bindings.empty.resolve entry.2) = true) ↔
      bindings.Fits (c.typeVariables.zip arguments) := by
    apply forall₂_congr
    intro entry _
    simp only [TypeExpr.beq_iff_byName_eq, TypeExpr.byName, Bindings.sketch_resolve_var]
    exact forall_const _
  exact compared.trans ((Bindings.Fits.congr kept).trans (Bindings.fits_bindInTurn_iff own))

namespace Class

def couple : Class :=
  generic "Couple" ["A", "B"]

theorem not_couple_extends (d : Class) : ¬ couple.Extends d := by
  intro above
  cases above with
  | direct declared => cases declared
  | further declared above => cases declared

end Class

/-- A couple applied to its own parameters the other way round does not swap them. -/
theorem swapped_couple_not_swapped :
    let arguments := [TypeExpr.ofVariable ⟨"Couple", "B"⟩, .ofVariable ⟨"Couple", "A"⟩]
    ∃ bindings,
      Eventually (fun depth => Bindings.ofType depth (.parameterized .couple arguments)) bindings ∧
      ¬ ∀ entry ∈ Class.couple.typeVariables.zip arguments, ∀ bounds,
        (bindings.resolve (.var entry.1 bounds) == Bindings.empty.resolve entry.2) = true := by
  intro arguments
  have proper : Class.couple.ExtendsNoVariable := by
    rintro d (rfl | above)
    · nofun
    · exact absurd above (Class.not_couple_extends d)
  have apart : ∀ d, Class.couple.Extends d → d.name ≠ Class.couple.name :=
    fun d above => absurd above (Class.not_couple_extends d)
  rcases @parameters_stand_for_arguments_iff .couple arguments (by decide) rfl proper apart with
    ⟨bindings, ends, exactly⟩
  refine ⟨bindings, ends, fun stand => ?_⟩
  have ordered := exactly.mp stand
  have mentioned := (List.pairwise_cons.mp ordered).1 _ List.mem_cons_self List.mem_cons_self
  revert mentioned
  decide

end TestData
