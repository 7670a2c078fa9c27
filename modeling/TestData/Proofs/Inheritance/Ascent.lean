import TestData.Proofs.Inheritance.Resolving
import TestData.Proofs.Termination.Walk

namespace TestData

/-!
# Above a type

Above a type stand the supertypes that its class declares, with the arguments of the type
put in for the parameters of the class.  No bindings of other classes play a part here, so
this is what the supertypes of a type are meant to be; and there is always an end to them,
since a declared supertype is part of the descriptor of the class.

A hierarchy is coherent if each class occurs in it with one descriptor and with the same
arguments, and declares its supertypes in terms of its own parameters.  No class then stands
above itself.
-/

/-! ## Bindings that are alike -/

namespace Bindings

open TypeExpr

variable {see : Class → Class} {first second bindings : Bindings}

/-- Both bind the same variables, to types that look the same. -/
def Alike (see : Class → Class) (first second : Bindings) : Prop :=
  ∀ v, (first.binding? v).map (sketch see) = (second.binding? v).map (sketch see)

theorem Alike.refl (see : Class → Class) (bindings : Bindings) : Alike see bindings bindings :=
  fun _ => rfl

theorem Alike.stands (alike : Alike see first second) (v : TypeVariable) :
    (first.resolve (.ofVariable v)).sketch see = (second.resolve (.ofVariable v)).sketch see := by
  have same := alike v
  rw [ofVariable, resolve_var, resolve_var]
  cases one : first.binding? v with
  | none =>
      cases other : second.binding? v with
      | none => rfl
      | some type =>
          rw [one, other] at same
          cases same
  | some type =>
      cases other : second.binding? v with
      | none =>
          rw [one, other] at same
          cases same
      | some value =>
          rw [one, other] at same
          exact Option.some.inj same

theorem Alike.insert (alike : Alike see first second) (symbol : TypeVariable) {a b : TypeExpr}
    (same : a.sketch see = b.sketch see) :
    Alike see (first.insert symbol a) (second.insert symbol b) := by
  intro v
  by_cases it : v = symbol
  · rw [it, binding?_insert_self, binding?_insert_self]
    exact congrArg some same
  · rw [binding?_insert_of_ne _ _ it, binding?_insert_of_ne _ _ it]
    exact alike v

theorem bindAtOnce_cons (bindings : Bindings) (symbol : TypeVariable) (symbols : List TypeVariable)
    (argument : TypeExpr) (arguments : List TypeExpr) :
    bindings.bindAtOnce (symbol :: symbols) (argument :: arguments) =
      (bindings.insert symbol (empty.resolve argument)).bindAtOnce symbols arguments := rfl

theorem Alike.bindAtOnce (sees : SeesArrays see) (alike : Alike see first second)
    (symbols : List TypeVariable) {as bs : List TypeExpr}
    (same : as.map (sketch see) = bs.map (sketch see)) :
    Alike see (first.bindAtOnce symbols as) (second.bindAtOnce symbols bs) := by
  induction symbols generalizing as bs first second with
  | nil => exact alike
  | cons symbol symbols ih =>
      cases as with
      | nil =>
          cases bs with
          | nil => exact alike
          | cons b bs => cases same
      | cons a as =>
          cases bs with
          | nil => cases same
          | cons b bs =>
              rcases List.cons.inj same with ⟨heads, tails⟩
              rw [bindAtOnce_cons, bindAtOnce_cons]
              apply ih _ tails
              exact alike.insert symbol (sketch_resolve sees heads fun _ _ => rfl)

/-- What is bound after binding arguments was bound before, or is one of them. -/
theorem binding?_bindAtOnce {symbols : List TypeVariable} {arguments : List TypeExpr}
    {v : TypeVariable} {type : TypeExpr}
    (bound : (bindings.bindAtOnce symbols arguments).binding? v = some type) :
    bindings.binding? v = some type ∨
      v ∈ symbols ∧ ∃ argument ∈ arguments, type = empty.resolve argument := by
  induction symbols generalizing arguments bindings with
  | nil => exact .inl bound
  | cons symbol symbols ih =>
      cases arguments with
      | nil => exact .inl bound
      | cons argument arguments =>
          rw [bindAtOnce_cons] at bound
          rcases ih bound with before | ⟨member, value, within, rfl⟩
          · rcases of_binding?_insert before with ⟨rfl, rfl⟩ | earlier
            · exact .inr ⟨List.mem_cons_self, argument, List.mem_cons_self, rfl⟩
            · exact .inl earlier
          · exact .inr ⟨List.mem_cons_of_mem _ member, value, List.mem_cons_of_mem _ within, rfl⟩

/-- Every parameter that has an argument is bound. -/
theorem isSome_bindAtOnce {symbols : List TypeVariable} {arguments : List TypeExpr}
    {v : TypeVariable}
    (given : (bindings.binding? v).isSome ∨ ∃ argument, (v, argument) ∈ symbols.zip arguments) :
    ((bindings.bindAtOnce symbols arguments).binding? v).isSome := by
  induction symbols generalizing arguments bindings with
  | nil =>
      rcases given with before | ⟨argument, member⟩
      · exact before
      · cases member
  | cons symbol symbols ih =>
      cases arguments with
      | nil =>
          rcases given with before | ⟨argument, member⟩
          · exact before
          · cases member
      | cons argument arguments =>
          rw [bindAtOnce_cons]
          apply ih
          by_cases it : v = symbol
          · rw [it, binding?_insert_self]
            exact .inl rfl
          · rw [binding?_insert_of_ne _ _ it]
            rcases given with before | ⟨value, member⟩
            · exact .inl before
            · rcases List.mem_cons.mp member with same | later
              · cases same
                exact absurd rfl it
              · exact .inr ⟨value, later⟩

end Bindings

/-! ## Supertypes with arguments put in -/

namespace TypeExpr

/-- The class a type begins with; wildcards begin with none. -/
def head? : TypeExpr → Option Class
  | .plain c => some c
  | .parameterized raw _ => some raw
  | .wildcard .. => none
  | .var .. => none
  | .genericArray _ => none

/-- What the arguments of a type bind, and nothing else. -/
def ownBindings : TypeExpr → Bindings
  | .parameterized raw arguments => Bindings.empty.bindAtOnce raw.typeVariables arguments
  | _ => .empty

/-- The types directly above a type; above a wildcard there is its bound. -/
def above : TypeExpr → List TypeExpr
  | .plain c => c.supertypes.map Bindings.empty.resolve
  | .parameterized raw arguments =>
      raw.supertypes.map (ownBindings (.parameterized raw arguments)).resolve
  | .wildcard upper lower => (bound? upper lower).toList
  | .var .. => []
  | .genericArray _ => []

theorem above_of_head? {type : TypeExpr} {c : Class} (headed : type.head? = some c) :
    type.above = c.supertypes.map type.ownBindings.resolve := by
  cases type with
  | plain | parameterized =>
      cases headed
      rfl
  | wildcard | var | genericArray => cases headed

theorem binding?_ownBindings {type value : TypeExpr} {v : TypeVariable}
    (bound : type.ownBindings.binding? v = some value) :
    ∃ raw arguments, type = .parameterized raw arguments ∧ v ∈ raw.typeVariables ∧
      ∃ argument ∈ arguments, value = Bindings.empty.resolve argument := by
  cases type with
  | parameterized raw arguments =>
      rcases Bindings.binding?_bindAtOnce bound with before | ⟨member, made⟩
      · cases before
      · exact ⟨raw, arguments, rfl, member, made⟩
  | plain | wildcard | var | genericArray => cases bound

/-- What the arguments bind has no variables that do not occur in the type. -/
theorem freeVariables_ownBindings {type value : TypeExpr} {v w : TypeVariable}
    (bound : type.ownBindings.binding? v = some value) (occurs : w ∈ value.freeVariables) :
    w ∈ type.freeVariables := by
  rcases binding?_ownBindings bound with ⟨raw, arguments, rfl, _, argument, member, rfl⟩
  rcases Bindings.freeVariables_resolve _ occurs with ⟨u, inArgument, same⟩
  cases List.mem_singleton.mp same
  exact mem_freeVariables_parameterized.mpr ⟨argument, member, inArgument⟩

theorem ownBindings_alike {see : Class → Class} (sees : SeesArrays see) {a b : TypeExpr} {c : Class}
    (first : a.head? = some c) (second : b.head? = some c) (same : a.sketch see = b.sketch see) :
    Bindings.Alike see a.ownBindings b.ownBindings := by
  cases a with
  | plain =>
      cases b with
      | plain => exact .refl see _
      | parameterized | wildcard | var | genericArray => cases same
  | parameterized raw arguments =>
      cases b with
      | parameterized other others =>
          cases first
          cases second
          have inside := (TypeExpr.parameterized.inj same).2
          rw [sketchAll_eq_map, sketchAll_eq_map] at inside
          exact (Bindings.Alike.refl see .empty).bindAtOnce sees _ inside
      | plain | wildcard | var | genericArray => cases same
  | wildcard | var | genericArray => cases first

/-- Wildcards that look the same have bounds that look the same. -/
theorem bound?_alike {see : Class → Class} {upper lower upper' lower' : List TypeExpr}
    (same : (wildcard upper lower).sketch see = (wildcard upper' lower').sketch see) :
    (bound? upper lower).map (sketch see) = (bound? upper' lower').map (sketch see) := by
  rcases TypeExpr.wildcard.inj same with ⟨sameUpper, sameLower⟩
  rw [sketchAll_eq_map, sketchAll_eq_map] at sameUpper sameLower
  rw [← bound?_map, ← bound?_map, sameUpper, sameLower]

/-- The second type is the first one or stands above it, at any distance. -/
inductive LeadsTo : TypeExpr → TypeExpr → Prop where
  | self (type : TypeExpr) : LeadsTo type type
  | further {type next higher : TypeExpr} (step : next ∈ type.above)
      (leads : LeadsTo next higher) : LeadsTo type higher

namespace LeadsTo

variable {type between higher : TypeExpr}

theorem trans (leads : type.LeadsTo between) (further : between.LeadsTo higher) :
    type.LeadsTo higher := by
  induction leads with
  | self => exact further
  | further step _ ih => exact .further step (ih further)

theorem above (leads : type.LeadsTo between) (step : higher ∈ between.above) :
    type.LeadsTo higher :=
  leads.trans (.further step (.self higher))

/-- A collection with everything directly above its members has all that these lead to. -/
theorem mem_of_closed {types : List TypeExpr}
    (closed : ∀ type ∈ types, ∀ higher ∈ type.above, higher ∈ types)
    (leads : type.LeadsTo higher) (member : type ∈ types) : higher ∈ types := by
  induction leads with
  | self => exact member
  | further step _ ih => exact ih (closed _ member _ step)

end LeadsTo

/-! ## The ascent ends -/

/-- From the type on there is no way up that goes on forever. -/
def Ends (type : TypeExpr) : Prop :=
  Acc (fun higher lower : TypeExpr => higher ∈ lower.above) type

theorem ends_of_above {type : TypeExpr} (ends : ∀ higher ∈ type.above, higher.Ends) : type.Ends :=
  Acc.intro type ends

/-- Nothing is above the type. -/
theorem ends_of_highest {type : TypeExpr} (highest : type.above = []) : type.Ends :=
  ends_of_above fun _ step => absurd (highest ▸ step) List.not_mem_nil

theorem ends_arrayed (component : TypeExpr) : component.arrayed.Ends := by
  apply ends_of_above
  intro higher step
  cases component <;> cases step

/-- The way up from a resolved type ends if it does from all that is bound.  The induction is on
the type as it was: a supertype is part of a descriptor, whatever is put in for its variables. -/
theorem ends_resolve {bindings : Bindings}
    (ends : ∀ {v value}, bindings.binding? v = some value → value.Ends)
    (normal : ∀ {v value}, bindings.binding? v = some value → value.Normal) (type : TypeExpr) :
    (bindings.resolve type).Ends := by
  induction type using descriptor_induction generalizing bindings with
  | plain c above =>
      apply ends_of_above
      intro higher step
      rcases List.mem_map.mp step with ⟨supertype, declared, rfl⟩
      exact above supertype declared Bindings.unbound Bindings.unbound
  | parameterized raw arguments above inside =>
      apply ends_of_above
      intro higher step
      rw [Bindings.resolve] at step
      rcases List.mem_map.mp step with ⟨supertype, declared, rfl⟩
      have argument : ∀ {v value}, (ownBindings (.parameterized raw
          (bindings.resolveAll arguments))).binding? v = some value →
          ∃ argument ∈ arguments, value = bindings.resolve argument := by
        intro v value bound
        rcases binding?_ownBindings bound with ⟨_, _, same, _, resolved, member, rfl⟩
        cases same
        rw [Bindings.resolveAll_eq_map] at member
        rcases List.mem_map.mp member with ⟨argument, inside, rfl⟩
        exact ⟨argument, inside, Bindings.normal_resolve normal argument⟩
      apply above supertype declared
      · intro v value bound
        rcases argument bound with ⟨argument, member, rfl⟩
        exact inside argument member ends normal
      · intro v value bound
        rcases argument bound with ⟨argument, member, rfl⟩
        exact Bindings.normal_resolve normal argument
  | wildcard upper lower inUpper inLower =>
      apply ends_of_above
      intro higher step
      simp only [Bindings.resolve, Bindings.resolveAll_eq_map, TypeExpr.above, bound?_map,
        Option.mem_toList, Option.map_eq_some_iff] at step
      rcases step with ⟨bound, found, rfl⟩
      rcases List.mem_append.mp (bound?_mem found) with above | below
      · exact inUpper bound above ends normal
      · exact inLower bound below ends normal
  | var symbol bounds =>
      rw [Bindings.resolve_var]
      cases bound : bindings.binding? symbol with
      | none => exact ends_of_highest rfl
      | some value => exact ends bound
  | genericArray component inside =>
      rw [Bindings.resolve_genericArray]
      exact ends_arrayed _

/-- There is no way up that goes on forever. -/
theorem ends (type : TypeExpr) : type.Ends := by
  have resolved (type : TypeExpr) : (Bindings.empty.resolve type).Ends :=
    ends_resolve Bindings.unbound Bindings.unbound type
  have headed : ∀ {type : TypeExpr} {c : Class}, type.head? = some c → type.Ends := by
    intro type c head
    apply ends_of_above
    intro higher step
    rw [above_of_head? head] at step
    rcases List.mem_map.mp step with ⟨supertype, declared, rfl⟩
    apply ends_resolve
    · intro v value bound
      rcases binding?_ownBindings bound with ⟨_, _, _, _, argument, _, rfl⟩
      exact resolved argument
    · intro v value bound
      rcases binding?_ownBindings bound with ⟨_, _, _, _, argument, _, rfl⟩
      exact Bindings.normal_resolve Bindings.unbound argument
  induction type using bound_induction with
  | bounded found ih =>
      apply ends_of_above
      intro higher step
      rw [above, found] at step
      cases List.mem_singleton.mp step
      exact ih
  | unbounded none =>
      apply ends_of_above
      intro higher step
      rw [above, none] at step
      cases step
  | other plain =>
      rename_i type
      cases type with
      | plain | parameterized => exact headed rfl
      | var | genericArray => exact ends_of_highest rfl
      | wildcard => cases plain

/-! ## Coherent hierarchies -/

/--
Above a type each class occurs with one descriptor and with the same arguments, and declares
its supertypes in terms of its own parameters.
-/
structure Coherent (root : TypeExpr) : Prop where
  descriptor {a b : TypeExpr} {c d : Class} (first : root.LeadsTo a) (second : root.LeadsTo b)
    (firstHead : a.head? = some c) (secondHead : b.head? = some d) (named : c.name = d.name) : c = d
  instantiation {a b : TypeExpr} {c d : Class} (first : root.LeadsTo a) (second : root.LeadsTo b)
    (firstHead : a.head? = some c) (secondHead : b.head? = some d) (named : c.name = d.name) :
    (a == b) = true
  ownVariables {a : TypeExpr} {c : Class} (leads : root.LeadsTo a) (head : a.head? = some c)
    {supertype : TypeExpr} (declared : supertype ∈ c.supertypes) {v : TypeVariable}
    (occurs : v ∈ supertype.freeVariables) : v ∈ c.typeVariables

namespace Coherent

variable {root a b : TypeExpr} {c d : Class}

/-- A hierarchy is coherent if each class has its place there, and no other. -/
theorem of_places {types : List TypeExpr} (start : root ∈ types)
    (closed : ∀ type ∈ types, ∀ higher ∈ type.above, higher ∈ types) (place : String → TypeExpr)
    (places : ∀ type ∈ types, ∀ c, type.head? = some c → place c.name = type)
    (ownVariables : ∀ type ∈ types, ∀ c, type.head? = some c → ∀ supertype ∈ c.supertypes,
      ∀ v ∈ supertype.freeVariables, v ∈ c.typeVariables) : root.Coherent := by
  have same : ∀ {a b : TypeExpr} {c d : Class}, root.LeadsTo a → root.LeadsTo b →
      a.head? = some c → b.head? = some d → c.name = d.name → a = b := by
    intro a b c d first second firstHead secondHead named
    rw [← places a (first.mem_of_closed closed start) c firstHead,
      ← places b (second.mem_of_closed closed start) d secondHead, named]
  constructor
  · intro a b c d first second firstHead secondHead named
    cases same first second firstHead secondHead named
    exact Option.some.inj (firstHead.symm.trans secondHead)
  · intro a b c d first second firstHead secondHead named
    rw [same first second firstHead secondHead named]
    exact beq_iff_key_eq.mpr rfl
  · intro a c leads head supertype declared v occurs
    exact ownVariables a (leads.mem_of_closed closed start) c head supertype declared v occurs

/-- Equal types have equal types above them. -/
theorem above_alike (coherent : root.Coherent) (first : root.LeadsTo a) (second : root.LeadsTo b)
    (same : a.byName = b.byName) : a.above.map byName = b.above.map byName := by
  have headed : ∀ {c d : Class}, a.head? = some c → b.head? = some d → c.name = d.name →
      a.above.map byName = b.above.map byName := by
    intro c d firstHead secondHead named
    cases coherent.descriptor first second firstHead secondHead named
    rw [above_of_head? firstHead, above_of_head? secondHead, List.map_map, List.map_map]
    have alike := ownBindings_alike seesArrays_named firstHead secondHead same
    apply List.map_congr_left
    intro supertype declared
    exact Bindings.sketch_resolve seesArrays_named rfl fun v _ => alike.stands v
  cases a with
  | plain c =>
      cases b with
      | plain d =>
          have named : c.name = d.name := by injection same with same; injection same
          exact headed rfl rfl named
      | parameterized | wildcard | var | genericArray => cases same
  | parameterized raw arguments =>
      cases b with
      | parameterized other others =>
          have named : raw.name = other.name := by injection same with same; injection same
          exact headed rfl rfl named
      | plain | wildcard | var | genericArray => cases same
  | wildcard upper lower =>
      cases b with
      | wildcard upper' lower' =>
          have bounds : (bound? upper lower).map byName = (bound? upper' lower').map byName :=
            bound?_alike same
          rw [above, above]
          cases found : bound? upper lower <;> cases found' : bound? upper' lower' <;>
            simp_all
      | plain | parameterized | var | genericArray => cases same
  | var symbol bounds =>
      cases b with
      | var => rfl
      | plain | parameterized | wildcard | genericArray => cases same
  | genericArray component =>
      cases b with
      | genericArray => rfl
      | plain | parameterized | wildcard | var => cases same

/-- A step up from one of two equal types can be made from the other as well. -/
theorem step_alike (coherent : root.Coherent) (first : root.LeadsTo a) (second : root.LeadsTo b)
    (same : a.byName = b.byName) {next : TypeExpr} (step : next ∈ a.above) :
    ∃ other ∈ b.above, next.byName = other.byName := by
  have seen : next.byName ∈ a.above.map byName := List.mem_map_of_mem step
  rw [coherent.above_alike first second same] at seen
  rcases List.mem_map.mp seen with ⟨other, alsoStep, equal⟩
  exact ⟨other, alsoStep, equal.symm⟩

/-- What one of two equal types leads to, the other leads to as well. -/
theorem leads_alike (coherent : root.Coherent) {higher : TypeExpr} (leads : a.LeadsTo higher)
    (first : root.LeadsTo a) (second : root.LeadsTo b) (same : a.byName = b.byName) :
    ∃ other, b.LeadsTo other ∧ higher.byName = other.byName := by
  induction leads generalizing b with
  | self => exact ⟨b, .self b, same⟩
  | further step leads ih =>
      rcases coherent.step_alike first second same step with ⟨next, alsoStep, alike⟩
      rcases ih (first.above step) (second.above alsoStep) alike with ⟨other, goesOn, equal⟩
      exact ⟨other, .further alsoStep goesOn, equal⟩

/-- No type stands above itself: otherwise the way there could be gone again and again. -/
theorem no_return (coherent : root.Coherent) (start : root.LeadsTo a) (leads : a.LeadsTo b)
    {next higher : TypeExpr} (step : next ∈ b.above) (further : next.LeadsTo higher) :
    higher.byName ≠ b.byName := by
  induction a.ends generalizing b next higher with
  | intro a _ ih =>
      intro same
      cases leads with
      | further first leads => exact ih _ first (start.above first) leads step further same
      | self =>
          -- The way from `a` up to `higher` is gone once more from there.
          have reached := (start.above step).trans further
          rcases coherent.step_alike start reached same.symm step with ⟨again, alsoStep, alike⟩
          rcases coherent.leads_alike further (start.above step) (reached.above alsoStep) alike with
            ⟨highest, goesOn, equal⟩
          exact ih next step (start.above step) further alsoStep goesOn equal.symm

/-- No class stands above a type that begins with it. -/
theorem head_ne (coherent : root.Coherent) (start : root.LeadsTo a) (head : a.head? = some c)
    {next : TypeExpr} (step : next ∈ a.above) (further : next.LeadsTo b)
    (higherHead : b.head? = some d) : d.name ≠ c.name := by
  intro named
  have same := coherent.instantiation ((start.above step).trans further) start higherHead head named
  exact coherent.no_return start (.self a) step further (beq_iff_byName_eq.mp same)

/-- Of two types that begin with the same class the arguments bind equal types. -/
theorem ownBindings_alike (coherent : root.Coherent) (first : root.LeadsTo a)
    (second : root.LeadsTo b) (firstHead : a.head? = some c) (secondHead : b.head? = some d)
    (named : c.name = d.name) :
    Bindings.Alike (fun c => .named c.name) a.ownBindings b.ownBindings := by
  have same := coherent.instantiation first second firstHead secondHead named
  cases coherent.descriptor first second firstHead secondHead named
  exact TypeExpr.ownBindings_alike seesArrays_named firstHead secondHead
    (beq_iff_byName_eq.mp same)

end Coherent

/-! ## Open variables -/

/-- A type above the given one begins with the class of the variable and does not bind it. -/
def Open (root : TypeExpr) (v : TypeVariable) : Prop :=
  ∃ a c, root.LeadsTo a ∧ a.head? = some c ∧ v ∈ c.typeVariables ∧ a.ownBindings.binding? v = none

section

variable {root a : TypeExpr} {c : Class} {v : TypeVariable}

/-- A variable tells the name of the class that declares it. -/
theorem name_eq_of_mem_typeVariables {d : Class} (first : v ∈ c.typeVariables)
    (second : v ∈ d.typeVariables) : c.name = d.name := by
  rcases List.mem_map.mp first with ⟨name, _, rfl⟩
  rcases List.mem_map.mp second with ⟨other, _, same⟩
  exact (congrArg TypeVariable.declaredBy same).symm

/-- A class does not bind its variables in one place and leave them open in another. -/
theorem Coherent.not_open (coherent : root.Coherent) (leads : root.LeadsTo a) {value : TypeExpr}
    (bound : a.ownBindings.binding? v = some value) : ¬ root.Open v := by
  rintro ⟨b, d, other, otherHead, declared, unbound⟩
  rcases binding?_ownBindings bound with ⟨raw, arguments, rfl, alsoDeclared, _⟩
  have named := name_eq_of_mem_typeVariables alsoDeclared declared
  have alike := coherent.ownBindings_alike leads other rfl otherHead named v
  rw [bound, unbound] at alike
  cases alike

/-- If all variables of a type are left open, so are those in what its parameters stand for. -/
theorem open_of_stands (leads : root.LeadsTo a) (head : a.head? = some c)
    (known : ∀ w ∈ a.freeVariables, root.Open w) {u : TypeVariable} (own : u ∈ c.typeVariables)
    (occurs : v ∈ (a.ownBindings.resolve (.ofVariable u)).freeVariables) : root.Open v := by
  rw [ofVariable, Bindings.resolve_var] at occurs
  cases bound : a.ownBindings.binding? u with
  | none =>
      rw [bound] at occurs
      cases List.mem_singleton.mp occurs
      exact ⟨a, c, leads, head, own, bound⟩
  | some value =>
      rw [bound] at occurs
      exact known v (freeVariables_ownBindings bound occurs)

/-- If all variables of a type are left open, then so are those of the types directly above. -/
theorem Coherent.open_of_step (coherent : root.Coherent) (leads : root.LeadsTo a)
    (known : ∀ w ∈ a.freeVariables, root.Open w) {next : TypeExpr} (step : next ∈ a.above)
    (occurs : v ∈ next.freeVariables) : root.Open v := by
  have headed : ∀ {c}, a.head? = some c → root.Open v := by
    intro c head
    rw [above_of_head? head] at step
    rcases List.mem_map.mp step with ⟨supertype, declared, rfl⟩
    rcases Bindings.freeVariables_resolve _ occurs with ⟨u, inSupertype, stands⟩
    have own := coherent.ownVariables leads head declared inSupertype
    exact open_of_stands leads head known own stands
  cases a with
  | plain | parameterized => exact headed rfl
  | wildcard upper lower =>
      apply known
      have found := Option.mem_toList.mp step
      exact mem_freeVariables_wildcard.mpr ⟨next, bound?_mem found, occurs⟩
  | var | genericArray => cases step

/-- The variables that occur above a type without variables are left open. -/
theorem Coherent.open_of_occurs (coherent : root.Coherent) (ground : root.freeVariables = [])
    (leads : root.LeadsTo a) (occurs : v ∈ a.freeVariables) : root.Open v := by
  -- The way up starts at a type that has no variables; the induction allows open ones.
  have passes : ∀ {b a}, b.LeadsTo a → root.LeadsTo b → (∀ w ∈ b.freeVariables, root.Open w) →
      ∀ w ∈ a.freeVariables, root.Open w := by
    intro b a up reached known
    induction up with
    | self => exact known
    | further step up ih =>
        exact ih (reached.above step) fun w => coherent.open_of_step reached known step
  apply passes leads (.self root) _ v occurs
  rw [ground]
  nofun

end
end TypeExpr
end TestData
