import TestData.Proofs.Termination.Graph

namespace TestData

/-!
# Bindings stay within the graph

Whatever the types of a graph are put together to, nothing but the classes of the graph
comes up in them: replacing variables, walking up the hierarchy and fitting a formal type
to an actual one all leave a graph only if what they start from did.  This needs no order
in the graph and no depth; a computation that gives a result gives one within the graph.
-/

variable {graph : ClassGraph} {type : TypeExpr}

/-- What variables are bound to lies within the graph. -/
structure Bindings.Within (graph : ClassGraph) (bindings : Bindings) : Prop where
  values {symbol : TypeVariable} {value : TypeExpr} :
    bindings.binding? symbol = some value → value.Within graph.contains

namespace Bindings

variable {bindings : Bindings}

theorem within_empty (graph : ClassGraph) : empty.Within graph where
  values bound := nomatch bound

theorem Within.insert (within : bindings.Within graph) (symbol : TypeVariable) {value : TypeExpr}
    (inside : value.Within graph.contains) : (bindings.insert symbol value).Within graph := by
  constructor
  intro other found bound
  rcases of_binding?_insert bound with ⟨-, rfl⟩ | before
  · exact inside
  · exact within.values before

theorem Within.resolve (bound : bindings.Within graph) (within : type.Within graph.contains) :
    (bindings.resolve type).Within graph.contains := by
  induction within with
  | plain within => exact .plain within
  | parameterized within _ ih =>
      rw [Bindings.resolve, resolveAll_eq_map]
      refine .parameterized within fun argument member => ?_
      rcases List.mem_map.mp member with ⟨original, declared, rfl⟩
      exact ih original declared
  | wildcard _ _ above below =>
      rw [Bindings.resolve, resolveAll_eq_map, resolveAll_eq_map]
      refine .wildcard (fun bound member => ?_) fun bound member => ?_
      · rcases List.mem_map.mp member with ⟨original, declared, rfl⟩
        exact above original declared
      · rcases List.mem_map.mp member with ⟨original, declared, rfl⟩
        exact below original declared
  | var symbol bounds =>
      rw [Bindings.resolve]
      cases known : bindings.binding? symbol with
      | none => exact .var symbol bounds
      | some value => exact bound.values known
  | genericArray _ ih =>
      rw [Bindings.resolve]
      split
      · next c resolved =>
          rw [resolved] at ih
          cases ih with
          | plain within => exact .plain (.arrayOf within)
      · exact .genericArray ih

theorem Within.bindArguments (within : bindings.Within graph) (symbols : List TypeVariable)
    {arguments : List TypeExpr}
    (inside : ∀ argument ∈ arguments, argument.Within graph.contains) :
    (bindings.bindArguments symbols arguments).Within graph := by
  unfold Bindings.bindArguments
  induction symbols generalizing arguments bindings with
  | nil => exact within
  | cons symbol symbols ih =>
      cases arguments with
      | nil => exact within
      | cons argument arguments =>
          have first := within.insert symbol (within.resolve (inside argument List.mem_cons_self))
          exact ih first fun other member => inside other (List.mem_cons_of_mem argument member)

/-- A walk up the hierarchy meets the supertypes that the graph declares. -/
theorem Within.collect (within : bindings.Within graph) {depth : Nat} {collected : Bindings}
    (inside : type.Within graph.contains) (walk : collect depth type bindings = .ok collected) :
    collected.Within graph := by
  induction depth generalizing type bindings collected with
  | zero => cases walk
  | succ depth ih =>
      have above : ∀ {supertypes : List TypeExpr} {bindings collected : Bindings},
          (∀ supertype ∈ supertypes, supertype.Within graph.contains) → bindings.Within graph →
          supertypes.foldlM (fun bindings supertype =>
            Bindings.collect depth (bindings.resolve supertype) bindings) bindings
              = .ok collected → collected.Within graph := by
        intro supertypes
        induction supertypes with
        | nil =>
            rintro bindings collected - within ⟨⟩
            exact within
        | cons supertype rest goesOn =>
            intro bindings collected declared within walk
            rw [List.foldlM_cons] at walk
            rcases Bounded.of_bind_eq_ok walk with ⟨between, first, walk⟩
            have here := within.resolve (declared supertype List.mem_cons_self)
            exact goesOn (fun other member => declared other (List.mem_cons_of_mem _ member))
              (ih within here first) walk
      cases inside with
      | plain member =>
          exact above (fun supertype declared => ClassGraph.within_supertype member declared)
            within walk
      | @parameterized raw arguments member inside =>
          exact above (fun supertype declared => ClassGraph.within_supertype member declared)
            (within.bindArguments raw.typeVariables inside) walk
      | @wildcard upper lower bounded lowered =>
          rw [Bindings.collect] at walk
          cases found : TypeExpr.bound? upper lower with
          | none =>
              rw [found] at walk
              cases walk
              exact within
          | some bound =>
              rw [found] at walk
              have whole : (TypeExpr.wildcard upper lower).Within graph.contains :=
                .wildcard bounded lowered
              exact ih within (whole.part (TypeExpr.bound?_mem found)) walk
      | var | genericArray =>
          cases walk
          exact within

theorem within_ofType {depth : Nat} {bindings : Bindings} (inside : type.Within graph.contains)
    (bound : ofType depth type = .ok bindings) : bindings.Within graph :=
  (within_empty graph).collect inside bound

end Bindings

/-- A type seen as one of its supertypes is within the graph as the type is. -/
theorem TypeExpr.Within.asSupertype {depth : Nat} {target : Class} {seen : TypeExpr}
    (inside : type.Within graph.contains) (within : target.Within graph.contains)
    (viewed : type.asSupertype depth target = .ok (some seen)) : seen.Within graph.contains := by
  unfold TypeExpr.asSupertype at viewed
  split at viewed
  · cases viewed
  · next raw behind =>
      split at viewed
      · cases viewed
        exact inside
      · split at viewed
        · cases viewed
        · split at viewed
          · cases viewed
            exact .plain within
          · rcases Bounded.of_bind_eq_ok viewed with ⟨bindings, bound, viewed⟩
            cases viewed
            refine .parameterized within fun argument member => ?_
            rcases List.mem_map.mp member with ⟨symbol, declared, rfl⟩
            exact (Bindings.within_ofType inside bound).resolve (.var symbol [])

namespace Bindings

variable {depth : Nat} {bindings fitted : Bindings}

/-- Fitting lists is fitting their members, as far as the shorter one goes. -/
theorem Within.unifyAll {formals actuals : List TypeExpr}
    (each : ∀ formal ∈ formals, ∀ {bindings fitted actual}, actual.Within graph.contains →
      bindings.Within graph → Bindings.unify depth formal actual bindings = .ok fitted →
      fitted.Within graph)
    (inside : ∀ actual ∈ actuals, actual.Within graph.contains) (within : bindings.Within graph)
    (fits : unifyAll depth formals actuals bindings = .ok fitted) : fitted.Within graph := by
  induction formals generalizing actuals bindings with
  | nil =>
      cases fits
      exact within
  | cons formal formals ih =>
      cases actuals with
      | nil =>
          cases fits
          exact within
      | cons actual actuals =>
          rw [Bindings.unifyAll] at fits
          rcases Bounded.of_bind_eq_ok fits with ⟨between, first, fits⟩
          have here := each formal List.mem_cons_self (inside actual List.mem_cons_self) within first
          exact ih (fun other member => each other (List.mem_cons_of_mem formal member))
            (fun other member => inside other (List.mem_cons_of_mem actual member)) here fits

/-- What variables of a formal type are bound to are parts of the actual one, or seen in it. -/
theorem Within.unify {formal actual : TypeExpr} (declared : formal.Within graph.contains)
    (inside : actual.Within graph.contains) (within : bindings.Within graph)
    (fits : unify depth formal actual bindings = .ok fitted) : fitted.Within graph := by
  induction declared generalizing actual bindings fitted with
  | plain =>
      cases fits
      exact within
  | @parameterized raw formals member arguments ih =>
      rw [Bindings.unify] at fits
      rcases Bounded.of_bind_eq_ok fits with ⟨view, viewed, fits⟩
      rcases view with _ | (c | ⟨applied, actuals⟩ | _ | _ | _)
      · cases fits
        exact within
      · cases fits
        exact within
      · have seen := inside.asSupertype member viewed
        exact Within.unifyAll ih (fun actual among => seen.part among) within fits
      all_goals
        cases fits
        exact within
  | @wildcard upper lower above under aboveIh underIh =>
      cases actual with
      | wildcard upperActuals lowerActuals =>
          rw [Bindings.unify] at fits
          rcases Bounded.of_bind_eq_ok fits with ⟨between, first, fits⟩
          have upperFits := Within.unifyAll aboveIh
            (fun part member => inside.part (List.mem_append_left _ member)) within first
          exact Within.unifyAll underIh
            (fun part member => inside.part (List.mem_append_right _ member)) upperFits fits
      | plain | parameterized | var | genericArray =>
          cases fits
          exact within
  | var symbol bounds =>
      rw [Bindings.unify] at fits
      split at fits
      · cases fits
        exact within
      · cases fits
        exact within.insert symbol inside
  | @genericArray formal _ ih =>
      cases actual with
      | genericArray component => exact ih (inside.part List.mem_cons_self) within fits
      | plain c =>
          rw [Bindings.unify] at fits
          cases array : c.component? with
          | none =>
              rw [array] at fits
              cases fits
              exact within
          | some component =>
              rw [array] at fits
              have member : .plain component ∈ (TypeExpr.plain c).parts :=
                List.mem_map_of_mem (Option.mem_toList.mpr array)
              exact ih (inside.part member) within fits
      | parameterized | wildcard | var =>
          cases fits
          exact within

theorem Within.bind {formal actual : TypeExpr} (within : bindings.Within graph)
    (declared : formal.Within graph.contains) (inside : actual.Within graph.contains)
    (fits : bindings.bind depth formal actual = .ok fitted) : fitted.Within graph :=
  Within.unify declared inside within fits

/-- What the variables of a method are bound to lies within the graph if the type does. -/
theorem within_ofMethod {c : Class} {m : Method} (member : graph.contains c)
    (declared : m.declaration ∈ c.methodDeclarations) (inside : type.Within graph.contains)
    (bound : (do (← ofType depth type).bind depth m.returnType type) = .ok bindings) :
    bindings.Within graph := by
  rcases Bounded.of_bind_eq_ok bound with ⟨own, collected, fits⟩
  have returned := ClassGraph.within_returnType member declared
  exact (within_ofType inside collected).bind returned inside fits

end Bindings
end TestData
