import TestData.Proofs.Inheritance.Collecting
import TestData.Type.WellKnown

namespace TestData

/-!
# A type seen as one of its supertypes

A type can be seen as any class above it: as the class applied to what the type makes of its
parameters.  A walk from the view then binds the variables of that class, and of every class
above it, to what the walk from the type binds them to, however far up the class stands.
A class that is extended without arguments has open variables, and its view binds them to
themselves.
-/

/-! ## Supertypes of classes -/

namespace Class

variable {c d : Class}

/-- The second class is a supertype of the first one, directly or through others. -/
inductive Extends : Class → Class → Prop where
  | direct {c d : Class} (declared : d ∈ c.rawSupertypes) : Extends c d
  | further {c between d : Class} (declared : between ∈ c.rawSupertypes)
      (above : Extends between d) : Extends c d

theorem not_object_extends (d : Class) : ¬ object.Extends d := by
  intro above
  cases above with
  | direct declared => cases declared
  | further declared above => cases declared

/-- Neither primitive nor an array class. -/
def Ordinary (c : Class) : Prop :=
  c.isPrimitive = false ∧ c.isArray = false

/-- What can be used as a supertype of an ordinary class can be used as the class. -/
theorem isAssignableFrom_of_supertype {b : Class} (ordinary : c.Ordinary)
    (declared : b ∈ c.rawSupertypes) (fits : d.isAssignableFrom b = true) :
    d.isAssignableFrom c = true := by
  have noArray : c.component? = none := by
    cases array : c.component? with
    | none => rfl
    | some component =>
        have isArray := ordinary.2
        rw [Class.isArray, array] at isArray
        cases isArray
  have upward : c.rawSupertypes.any d.isAssignableFrom = true :=
    List.any_eq_true.mpr ⟨b, declared, fits⟩
  rw [isAssignableFrom_eq, ordinary.1, noArray]
  split
  · rfl
  · split
    · contradiction
    · split
      · rfl
      · cases d.component? <;> exact upward

/-- Among ordinary classes every class above another one is assignable from it. -/
theorem Extends.isAssignableFrom (above : c.Extends d) (ordinary : c.Ordinary)
    (ordinaryAbove : ∀ b, c.Extends b → b.Ordinary) : d.isAssignableFrom c = true := by
  induction above with
  | direct declared =>
      apply isAssignableFrom_of_supertype ordinary declared
      rw [isAssignableFrom_eq, beq_iff_name_eq.mpr rfl]
      rfl
  | further declared above ih =>
      apply isAssignableFrom_of_supertype ordinary declared
      apply ih (ordinaryAbove _ (.direct declared))
      intro b higher
      exact ordinaryAbove b (.further declared higher)

end Class

/-! ## Classes above a class and types above a type -/

namespace TypeExpr

variable {type a : TypeExpr} {c d : Class}

/-- The class behind a type is still behind it when variables are replaced. -/
theorem rawType_resolve (bindings : Bindings) (raw : type.rawType = some c) :
    (bindings.resolve type).rawType = some c := by
  induction type using bound_induction with
  | bounded found ih =>
      rw [rawType_wildcard, found] at raw
      rw [Bindings.resolve, rawType_wildcard, Bindings.resolveAll_eq_map,
        Bindings.resolveAll_eq_map, bound?_map, found]
      exact ih raw
  | unbounded none =>
      rw [rawType_wildcard, none] at raw
      rw [Bindings.resolve, rawType_wildcard, Bindings.resolveAll_eq_map,
        Bindings.resolveAll_eq_map, bound?_map, none]
      exact raw
  | other plain =>
      rename_i type
      cases type with
      | plain | parameterized => exact raw
      | wildcard => cases plain
      | var | genericArray => cases raw

/-- A type leads to one that begins with the class behind it, or it is a wildcard that cannot be
used through a bound. -/
theorem leads_of_rawType (raw : type.rawType = some c) :
    (∃ a, type.LeadsTo a ∧ a.head? = some c) ∨ c = .object := by
  induction type using bound_induction with
  | @bounded upper lower bound found ih =>
      rw [rawType_wildcard, found] at raw
      rcases ih raw with ⟨a, leads, head⟩ | top
      · have step : bound ∈ (wildcard upper lower).above := by
          rw [TypeExpr.above, found]
          exact List.mem_cons_self
        exact .inl ⟨a, .further step leads, head⟩
      · exact .inr top
  | unbounded none =>
      rw [rawType_wildcard, none] at raw
      exact .inr (Option.some.inj raw).symm
  | other plain =>
      rename_i type
      cases type with
      | plain | parameterized => exact .inl ⟨_, .self _, raw⟩
      | wildcard => cases plain
      | var | genericArray => cases raw

/-- Above a type there is a type with each class above the class of the type. -/
theorem leads_of_extends (head : a.head? = some c) (above : c.Extends d) :
    (∃ b, a.LeadsTo b ∧ b.head? = some d) ∨ d = .object := by
  have directly : ∀ {a : TypeExpr} {c d : Class}, a.head? = some c → d ∈ c.rawSupertypes →
      (∃ b, a.LeadsTo b ∧ b.head? = some d) ∨ d = .object := by
    intro a c d head declared
    rcases List.mem_filterMap.mp declared with ⟨supertype, member, raw⟩
    rcases leads_of_rawType (rawType_resolve a.ownBindings raw) with ⟨b, leads, found⟩ | top
    · have step : a.ownBindings.resolve supertype ∈ a.above := by
        rw [above_of_head? head]
        exact List.mem_map_of_mem member
      exact .inl ⟨b, .further step leads, found⟩
    · exact .inr top
  induction above generalizing a with
  | direct declared => exact directly head declared
  | further declared above ih =>
      rcases directly head declared with ⟨between, leads, found⟩ | rfl
      · rcases ih found with ⟨b, further, last⟩ | top
        · exact .inl ⟨b, leads.trans further, last⟩
        · exact .inr top
      · exact absurd above (Class.not_object_extends _)

/-! ## Views -/

/-- The class applied to what its parameters stand for, or the class alone if it has none. -/
def viewOf (bindings : Bindings) (target : Class) : TypeExpr :=
  if target.typeParameters.isEmpty then .plain target
  else .parameterized target
    (target.typeVariables.map fun symbol => bindings.resolve (.ofVariable symbol))

/-- What is seen of a type through a class above it. -/
theorem asSupertype_eventually {target : Class} {bindings : Bindings}
    (raw : type.rawType = some c) (other : c.name ≠ target.name)
    (fits : target.isAssignableFrom c = true)
    (binds : Eventually (fun depth => Bindings.ofType depth type) bindings) :
    Eventually (fun depth => type.asSupertype depth target) (some (viewOf bindings target)) := by
  have different : (c == target) = false := Bool.eq_false_iff.mpr (mt Class.beq_iff_name_eq.mp other)
  unfold asSupertype viewOf
  rw [raw]
  simp only [different, fits, Bool.false_eq_true, Bool.not_true, if_false]
  split
  · exact .const _
  · exact binds.bind (.const _)

end TypeExpr

namespace Bindings

open TypeExpr

variable {root a : TypeExpr} {target : Class} {first : Bindings}

/-- Parameters bound to values of a function stand for these values. -/
theorem binding?_bindAtOnce_map {bindings : Bindings} {symbols : List TypeVariable}
    (value : TypeVariable → TypeExpr) {v : TypeVariable}
    (given : bindings.binding? v = some (empty.resolve (value v)) ∨ v ∈ symbols) :
    (bindings.bindAtOnce symbols (symbols.map value)).binding? v =
      some (empty.resolve (value v)) := by
  induction symbols generalizing bindings with
  | nil =>
      rcases given with before | member
      · exact before
      · cases member
  | cons symbol symbols ih =>
      rw [List.map_cons, bindAtOnce_cons]
      apply ih
      by_cases it : v = symbol
      · rw [it, binding?_insert_self]
        exact .inl rfl
      · rw [binding?_insert_of_ne _ _ it]
        rcases given with before | member
        · exact .inl before
        · exact .inr (List.mem_of_ne_of_mem it member)

/-- The parameters of a view stand for what they stood for when it was taken. -/
theorem binds_view (coherent : root.Coherent) (ground : root.freeVariables = [])
    (leads : root.LeadsTo a) (head : a.head? = some target) (keeps : first.KeepsOpen root)
    (carries : first.Carries a.ownBindings) :
    let values := target.typeVariables.map fun symbol => first.resolve (.ofVariable symbol)
    (empty.bindArguments target.typeVariables values).KeepsOpen root ∧
      (empty.bindArguments target.typeVariables values).Carries a.ownBindings := by
  intro values
  have inside : ∀ value ∈ values, ∀ w ∈ value.freeVariables, root.Open w := by
    intro value member w occurs
    rcases List.mem_map.mp member with ⟨v, declared, rfl⟩
    rw [freeVariables_eq_of_sketch_eq (carries.stands keeps leads head declared)] at occurs
    exact open_of_stands leads head (fun u => coherent.open_of_occurs ground leads) declared occurs
  have itself : ∀ symbol value, (symbol, value) ∈ target.typeVariables.zip values →
      root.Open symbol → value.bare = .ofVariable symbol := by
    intro symbol value member left
    rw [← List.map_prod_left_eq_zip] at member
    rcases List.mem_map.mp member with ⟨v, _, same⟩
    cases same
    exact keeps symbol left
  rcases (keepsOpen_empty root).bindArguments (carries_empty empty) inside itself with
    ⟨stillKeeps, binds⟩
  refine ⟨stillKeeps, fun v value bound => ?_⟩
  rcases binding?_ownBindings bound with ⟨raw, arguments, rfl, declared, argument, _, rfl⟩
  cases head
  have normal : (empty.resolve argument).Normal := normal_resolve unbound argument
  rw [binds v _ (binding?_bindAtOnce_map (fun v => first.resolve (.ofVariable v)) (.inr declared))]
  calc
    (empty.resolve (first.resolve (.ofVariable v))).bare
        = (empty.resolve (empty.resolve argument)).bare :=
          sketch_resolve seesArrays_id (carries v _ bound) fun _ _ => rfl
    _ = (empty.resolve argument).bare := congrArg bare normal

/-- The walk from a view covers the class it was taken through, and every class above. -/
theorem ofType_view (coherent : root.Coherent) (ground : root.freeVariables = [])
    (leads : root.LeadsTo a) (head : a.head? = some target) (keeps : first.KeepsOpen root)
    (carries : first.Carries a.ownBindings) :
    ∃ second, Eventually (fun depth => ofType depth (viewOf first target)) second ∧
      Walked root [a] empty second := by
  have above : ∀ higher ∈ a.above, Collects root higher :=
    fun higher step => collects coherent ground (leads.above step)
  unfold viewOf
  split
  case isTrue alone =>
    have noParameters : target.typeVariables = [] := by
      rw [Class.typeVariables, List.isEmpty_iff.mp alone]
      rfl
    have nothing : empty.Carries a.ownBindings := by
      intro v value bound
      rcases binding?_ownBindings bound with ⟨raw, arguments, rfl, declared, _⟩
      cases head
      rw [noParameters] at declared
      cases declared
    rcases walks_above coherent leads head above (keepsOpen_empty root) nothing
      (fun _ _ => rfl) with ⟨second, ends, walked⟩
    exact ⟨second, ends.deeper fun depth => collect_plain depth target empty, walked⟩
  case isFalse =>
    rcases binds_view coherent ground leads head keeps carries with ⟨stillKeeps, binds⟩
    rcases walks_above coherent leads head above stillKeeps binds
      (fun v other => binding?_bindArguments other) with ⟨second, ends, walked⟩
    exact ⟨second, ends.deeper fun depth => collect_parameterized depth target _ empty, walked⟩

/-- What a type binds agrees with what a view of it binds, on the class of the view and above. -/
theorem view_agrees (coherent : root.Coherent) (ground : root.freeVariables = [])
    (walked : Walked root [root] empty first) (leads : root.LeadsTo a)
    (head : a.head? = some target) :
    ∃ second, Eventually (fun depth => ofType depth (viewOf first target)) second ∧
      ∀ d, d = target ∨ target.Extends d → ∀ v ∈ d.typeVariables, ∀ bounds,
        (first.resolve (.var v bounds) == second.resolve (.var v bounds)) = true := by
  rcases walked.covers List.mem_cons_self leads head with ⟨b, leads, head, carries⟩
  rcases ofType_view coherent ground leads head walked.keepsOpen carries with ⟨second, ends, again⟩
  have agree : ∀ {higher d}, b.LeadsTo higher → higher.head? = some d → ∀ v ∈ d.typeVariables,
      ∀ bounds, (first.resolve (.var v bounds) == second.resolve (.var v bounds)) = true := by
    intro higher d further found v declared bounds
    apply Covers.stands_alike coherent walked.keepsOpen again.keepsOpen _ _ declared
    · exact walked.covers List.mem_cons_self (leads.trans further) found
    · exact again.covers List.mem_cons_self further found
  refine ⟨second, ends, ?_⟩
  rintro d (rfl | higher)
  · exact agree (.self b) head
  · rcases leads_of_extends head higher with ⟨highest, further, found⟩ | rfl
    · exact agree further found
    · nofun

end Bindings

/--
A class applied to arguments without variables, in a coherent hierarchy of ordinary classes,
can be seen as every class above it, and what it binds agrees with what the view binds: on
the variables of that class, and of every class above that.
-/
theorem hierarchy_bindings_agree {c target : Class} {arguments : List TypeExpr}
    (ground : ∀ argument ∈ arguments, argument.freeVariables = [])
    (coherent : (TypeExpr.parameterized c arguments).Coherent) (ordinary : c.Ordinary)
    (ordinaryAbove : ∀ b, c.Extends b → b.Ordinary) (above : c.Extends target) :
    ∃ view first second,
      Eventually (fun depth => TypeExpr.asSupertype depth (.parameterized c arguments) target)
        (some view) ∧
      Eventually (fun depth => Bindings.ofType depth (.parameterized c arguments)) first ∧
      Eventually (fun depth => Bindings.ofType depth view) second ∧
      ∀ d, d = target ∨ target.Extends d → ∀ v ∈ d.typeVariables, ∀ bounds,
        (first.resolve (.var v bounds) == second.resolve (.var v bounds)) = true := by
  have groundRoot : (TypeExpr.parameterized c arguments).freeVariables = [] := by
    rw [TypeExpr.freeVariables, TypeExpr.freeVariablesAll_eq_flatMap]
    exact List.flatMap_eq_nil_iff.mpr ground
  rcases Bindings.ofType_walked coherent groundRoot with ⟨first, binds, walked⟩
  by_cases same : c.name = target.name
  · refine ⟨.parameterized c arguments, first, first, ?_, binds, binds, ?_⟩
    · have itself : (c == target) = true := Class.beq_iff_name_eq.mpr same
      unfold TypeExpr.asSupertype TypeExpr.rawType
      simp only [itself, if_true]
      exact .const _
    · intro d _ v _ bounds
      exact TypeExpr.beq_iff_key_eq.mpr rfl
  · have fits := above.isAssignableFrom ordinary ordinaryAbove
    have seen := TypeExpr.asSupertype_eventually rfl same fits binds
    have root : (TypeExpr.parameterized c arguments).head? = some c := rfl
    rcases TypeExpr.leads_of_extends root above with ⟨a, leads, head⟩ | rfl
    · rcases Bindings.view_agrees coherent groundRoot walked leads head with ⟨second, again, agree⟩
      exact ⟨_, first, second, seen, binds, again, agree⟩
    · have nothing : Eventually (fun depth => Bindings.ofType depth
          (TypeExpr.viewOf first .object)) .empty := (Eventually.const _).deeper fun _ => rfl
      refine ⟨_, first, _, seen, binds, nothing, ?_⟩
      rintro d (rfl | higher)
      · exact fun _ member => absurd member List.not_mem_nil
      · exact absurd higher (Class.not_object_extends d)

/-! ## A class that is extended without arguments -/

namespace Class

def cell : Class :=
  generic "Cell" ["X"]

/-- A generic class above which its own parameter is an argument. -/
def registry : Class :=
  { generic "Registry" ["R"] with
    interfaces := [.parameterized cell [.ofVariable ⟨"Registry", "R"⟩]] }

def sequence : Class :=
  generic "Sequence" ["E"]

def row : Class where
  name := "Row"
  kind := .abstract
  typeParameters := ["V"]
  superclass := some (.parameterized sequence [.ofVariable ⟨"Row", "V"⟩])

/-- A generic class that is a registry of nothing in particular. -/
def table : Class where
  name := "Table"
  kind := .concrete
  typeParameters := ["U"]
  superclass := some (.parameterized row [.parameterized vec [.ofVariable ⟨"Table", "U"⟩]])
  interfaces := [.plain registry]

end Class

namespace TypeExpr

/-- A table of texts, and everything above it. -/
def tableOfTexts : List TypeExpr :=
  [.parameterized .table [.plain .string],
    .parameterized .row [.parameterized .vec [.plain .string]],
    .plain .registry,
    .parameterized .sequence [.parameterized .vec [.plain .string]],
    .parameterized .cell [.ofVariable ⟨"Registry", "R"⟩]]

theorem tableOfTexts_closed :
    ∀ type ∈ tableOfTexts, ∀ higher ∈ type.above, higher ∈ tableOfTexts := by
  have directly : tableOfTexts.flatMap above = tableOfTexts.tail := rfl
  intro type member higher step
  have found := List.mem_flatMap.mpr ⟨type, member, step⟩
  rw [directly] at found
  exact List.mem_of_mem_tail found

theorem tableOfTexts_coherent : (TypeExpr.parameterized .table [.plain .string]).Coherent := by
  apply Coherent.of_places List.mem_cons_self tableOfTexts_closed
    fun name => (tableOfTexts.find? fun type => type.head?.any fun c => c.name == name).getD default
  · simp only [List.forall_mem_cons]
    refine ⟨?_, ?_, ?_, ?_, ?_, nofun⟩ <;>
    · intro c head
      cases head
      rfl
  · simp only [List.forall_mem_cons]
    refine ⟨?_, ?_, ?_, ?_, ?_, nofun⟩ <;>
    · intro c head
      cases head
      simp [Class.supertypes, Class.typeVariables, Class.table, Class.row, Class.registry,
        Class.sequence, Class.cell, Class.generic, freeVariables, ofVariable]

theorem tableOfTexts_ordinary (b : Class) (extended : Class.table.Extends b) : b.Ordinary := by
  have root : (TypeExpr.parameterized .table [.plain .string]).head? = some .table := rfl
  have members : ∀ type ∈ tableOfTexts, ∀ c, type.head? = some c → c.Ordinary := by
    simp only [tableOfTexts, List.forall_mem_cons]
    refine ⟨?_, ?_, ?_, ?_, ?_, nofun⟩ <;>
    · intro c head
      cases head
      exact ⟨rfl, rfl⟩
  rcases leads_of_extends root extended with ⟨a, leads, head⟩ | rfl
  · exact members a (leads.mem_of_closed tableOfTexts_closed List.mem_cons_self) b head
  · exact ⟨rfl, rfl⟩

end TypeExpr

/-- A table seen as the registry that it is without arguments: the views agree on cells. -/
theorem table_agrees_with_registry :
    let table : TypeExpr := .parameterized .table [.plain .string]
    let registry : TypeExpr := .parameterized .registry [.ofVariable ⟨"Registry", "R"⟩]
    Eventually (fun depth => table.asSupertype depth .registry) (some registry) ∧
    ∃ first second, Eventually (fun depth => Bindings.ofType depth table) first ∧
      Eventually (fun depth => Bindings.ofType depth registry) second ∧
      ∀ bounds, (first.resolve (.var ⟨"Cell", "X"⟩ bounds) ==
        second.resolve (.var ⟨"Cell", "X"⟩ bounds)) = true := by
  intro table registry
  have seenAs : Eventually (fun depth => table.asSupertype depth .registry) (some registry) := by
    refine ⟨3, fun depth deep => ?_⟩
    rcases Nat.exists_eq_add_of_le' deep with ⟨less, rfl⟩
    rfl
  have ground : ∀ argument ∈ [TypeExpr.plain .string], argument.freeVariables = [] :=
    List.forall_mem_cons.mpr ⟨rfl, nofun⟩
  have extendsRegistry : Class.table.Extends .registry :=
    .direct (List.mem_cons_of_mem _ List.mem_cons_self)
  have extendsCell : Class.registry.Extends .cell := .direct List.mem_cons_self
  rcases hierarchy_bindings_agree ground TypeExpr.tableOfTexts_coherent ⟨rfl, rfl⟩
    TypeExpr.tableOfTexts_ordinary extendsRegistry with ⟨view, first, second, seen, binds, again, agree⟩
  cases Option.some.inj (seen.unique seenAs)
  exact ⟨seenAs, first, second, binds, again, agree .cell (.inr extendsCell) _ List.mem_cons_self⟩

end TestData
