import TestData.Type.Bindings

namespace TestData

/-!
# What a resolved type depends on

Types are equal when their keys are, but a walk over types also looks into the class
descriptors in them, and those may differ in types that are equal.  What no walk looks at
are the bounds of type variables.  A sketch of a type leaves these bounds out and shows
every class in a given way: as it is, or as no more than its name.

The sketch of a resolved type depends on nothing but the sketches of the type and of what
its variables stand for.
-/

namespace TypeExpr

/-! ## Induction over descriptors -/

/-- What has to be shown of the forms of types, supertypes of classes included. -/
private structure Cases (motive : TypeExpr → Prop) : Prop where
  plain (c : Class) (above : ∀ type ∈ c.supertypes, motive type) : motive (.plain c)
  parameterized (raw : Class) (arguments : List TypeExpr)
    (above : ∀ type ∈ raw.supertypes, motive type)
    (inside : ∀ argument ∈ arguments, motive argument) : motive (.parameterized raw arguments)
  wildcard (upper lower : List TypeExpr) (inUpper : ∀ bound ∈ upper, motive bound)
    (inLower : ∀ bound ∈ lower, motive bound) : motive (.wildcard upper lower)
  var (symbol : TypeVariable) (bounds : List TypeExpr) : motive (.var symbol bounds)
  genericArray (component : TypeExpr) (inside : motive component) : motive (.genericArray component)

mutual

private theorem Cases.type {motive : TypeExpr → Prop} (cases : Cases motive) (type : TypeExpr) :
    motive type := by
  cases type with
  | plain c => exact cases.plain c (cases.supertypes c)
  | parameterized raw arguments =>
      exact cases.parameterized raw arguments (cases.supertypes raw) (cases.types arguments)
  | wildcard upper lower => exact cases.wildcard upper lower (cases.types upper) (cases.types lower)
  | var symbol bounds => exact cases.var symbol bounds
  | genericArray component => exact cases.genericArray component (cases.type component)

private theorem Cases.types {motive : TypeExpr → Prop} (cases : Cases motive)
    (types : List TypeExpr) : ∀ type ∈ types, motive type := by
  cases types with
  | nil =>
      intro type member
      cases member
  | cons first rest => exact List.forall_mem_cons.mpr ⟨cases.type first, cases.types rest⟩

private theorem Cases.supertypes {motive : TypeExpr → Prop} (cases : Cases motive) (c : Class) :
    ∀ type ∈ c.supertypes, motive type := by
  rcases c with ⟨_, _, _, _, superclass, interfaces, _, _, _, _, _⟩
  have above := cases.types interfaces
  cases superclass with
  | none => exact above
  | some supertype => exact List.forall_mem_cons.mpr ⟨cases.type supertype, above⟩

end

/-- Types along the descriptors in them: of a class the supertypes come before the class. -/
@[elab_as_elim]
theorem descriptor_induction {motive : TypeExpr → Prop}
    (plain : ∀ (c : Class), (∀ type ∈ c.supertypes, motive type) → motive (.plain c))
    (parameterized : ∀ (raw : Class) (arguments : List TypeExpr),
      (∀ type ∈ raw.supertypes, motive type) → (∀ argument ∈ arguments, motive argument) →
      motive (.parameterized raw arguments))
    (wildcard : ∀ (upper lower : List TypeExpr), (∀ bound ∈ upper, motive bound) →
      (∀ bound ∈ lower, motive bound) → motive (.wildcard upper lower))
    (var : ∀ (symbol : TypeVariable) (bounds : List TypeExpr), motive (.var symbol bounds))
    (genericArray : ∀ (component : TypeExpr), motive component → motive (.genericArray component))
    (type : TypeExpr) : motive type :=
  Cases.type ⟨plain, parameterized, wildcard, var, genericArray⟩ type

/-! ## Variables -/

mutual

/-- The type variables that occur in a type; the bounds of variables do not count. -/
def freeVariables : TypeExpr → List TypeVariable
  | .plain _ => []
  | .parameterized _ arguments => freeVariablesAll arguments
  | .wildcard upper lower => freeVariablesAll upper ++ freeVariablesAll lower
  | .var symbol _ => [symbol]
  | .genericArray component => component.freeVariables

def freeVariablesAll : List TypeExpr → List TypeVariable
  | [] => []
  | type :: types => type.freeVariables ++ freeVariablesAll types

end

@[simp]
theorem freeVariablesAll_eq_flatMap (types : List TypeExpr) :
    freeVariablesAll types = types.flatMap freeVariables := by
  induction types with
  | nil => rfl
  | cons type types ih => rw [freeVariablesAll, ih, List.flatMap_cons]

theorem mem_freeVariables_parameterized {raw : Class} {arguments : List TypeExpr}
    {v : TypeVariable} :
    v ∈ (parameterized raw arguments).freeVariables ↔
      ∃ argument ∈ arguments, v ∈ argument.freeVariables := by
  rw [freeVariables, freeVariablesAll_eq_flatMap, List.mem_flatMap]

theorem mem_freeVariables_wildcard {upper lower : List TypeExpr} {v : TypeVariable} :
    v ∈ (wildcard upper lower).freeVariables ↔
      ∃ bound ∈ upper ++ lower, v ∈ bound.freeVariables := by
  rw [freeVariables, freeVariablesAll_eq_flatMap, freeVariablesAll_eq_flatMap,
    ← List.flatMap_append, List.mem_flatMap]

/-! ## Sketches -/

mutual

/-- The type with every class seen in the given way and without the bounds of its variables. -/
def sketch (see : Class → Class) : TypeExpr → TypeExpr
  | .plain c => .plain (see c)
  | .parameterized raw arguments => .parameterized (see raw) (sketchAll see arguments)
  | .wildcard upper lower => .wildcard (sketchAll see upper) (sketchAll see lower)
  | .var symbol _ => .ofVariable symbol
  | .genericArray component => .genericArray (component.sketch see)

def sketchAll (see : Class → Class) : List TypeExpr → List TypeExpr
  | [] => []
  | type :: types => type.sketch see :: sketchAll see types

end

@[simp]
theorem sketchAll_eq_map (see : Class → Class) (types : List TypeExpr) :
    sketchAll see types = types.map (sketch see) := by
  induction types with
  | nil => rfl
  | cons type types ih => rw [sketchAll, ih, List.map_cons]

/-- The type without the bounds of its variables. -/
def bare (type : TypeExpr) : TypeExpr :=
  type.sketch id

/-- The type with no more than the names of its classes. -/
def byName (type : TypeExpr) : TypeExpr :=
  type.sketch fun c => .named c.name

mutual

theorem freeVariables_sketch (see : Class → Class) (type : TypeExpr) :
    (type.sketch see).freeVariables = type.freeVariables := by
  cases type with
  | plain | var => rfl
  | parameterized raw arguments => exact freeVariablesAll_sketchAll see arguments
  | wildcard upper lower =>
      rw [sketch, freeVariables, freeVariables, freeVariablesAll_sketchAll see upper,
        freeVariablesAll_sketchAll see lower]
  | genericArray component => exact freeVariables_sketch see component

theorem freeVariablesAll_sketchAll (see : Class → Class) (types : List TypeExpr) :
    freeVariablesAll (sketchAll see types) = freeVariablesAll types := by
  cases types with
  | nil => rfl
  | cons type types =>
      rw [sketchAll, freeVariablesAll, freeVariablesAll, freeVariables_sketch see type,
        freeVariablesAll_sketchAll see types]

end

theorem freeVariables_eq_of_sketch_eq {see : Class → Class} {a b : TypeExpr}
    (alike : a.sketch see = b.sketch see) : a.freeVariables = b.freeVariables := by
  rw [← freeVariables_sketch see a, alike, freeVariables_sketch]

end TypeExpr

mutual

/-- A type with the given key. -/
def TypeKey.type : TypeKey → TypeExpr
  | .plain name => .plain (.named name)
  | .parameterized raw arguments => .parameterized (.named raw) (TypeKey.types arguments)
  | .wildcard upper lower => .wildcard (TypeKey.types upper) (TypeKey.types lower)
  | .var symbol => .ofVariable symbol
  | .genericArray component => .genericArray component.type

def TypeKey.types : List TypeKey → List TypeExpr
  | [] => []
  | key :: keys => key.type :: TypeKey.types keys

end

namespace TypeExpr

mutual

theorem byName_eq_type (type : TypeExpr) : type.byName = type.key.type := by
  cases type with
  | plain | var => rfl
  | parameterized raw arguments =>
      exact congrArg (TypeExpr.parameterized _) (byNames_eq_types arguments)
  | wildcard upper lower =>
      exact congr (congrArg TypeExpr.wildcard (byNames_eq_types upper)) (byNames_eq_types lower)
  | genericArray component => exact congrArg TypeExpr.genericArray (byName_eq_type component)

theorem byNames_eq_types (types : List TypeExpr) :
    sketchAll (fun c => .named c.name) types = TypeKey.types (keys types) := by
  cases types with
  | nil => rfl
  | cons type types =>
      rw [sketchAll, keys, TypeKey.types, ← byName_eq_type type, ← byNames_eq_types types]
      rfl

end

mutual

theorem key_sketch {see : Class → Class} (names : ∀ c, (see c).name = c.name) (type : TypeExpr) :
    (type.sketch see).key = type.key := by
  cases type with
  | plain c => rw [sketch, key, key, names]
  | parameterized raw arguments =>
      rw [sketch, key, key, names, keys_sketchAll names arguments]
  | wildcard upper lower =>
      rw [sketch, key, key, keys_sketchAll names upper, keys_sketchAll names lower]
  | var => rfl
  | genericArray component => rw [sketch, key, key, key_sketch names component]

theorem keys_sketchAll {see : Class → Class} (names : ∀ c, (see c).name = c.name)
    (types : List TypeExpr) : keys (sketchAll see types) = keys types := by
  cases types with
  | nil => rfl
  | cons type types =>
      rw [sketchAll, keys, keys, key_sketch names type, keys_sketchAll names types]

end

theorem key_eq_of_sketch_eq {see : Class → Class} (names : ∀ c, (see c).name = c.name)
    {a b : TypeExpr} (alike : a.sketch see = b.sketch see) : a.key = b.key := by
  rw [← key_sketch names a, alike, key_sketch names]

/-- Types are equal when they are the same by the names of their classes. -/
theorem beq_iff_byName_eq {a b : TypeExpr} : (a == b) = true ↔ a.byName = b.byName := by
  rw [beq_iff_key_eq]
  constructor
  · intro same
    rw [byName_eq_type, byName_eq_type, same]
  · intro same
    apply key_eq_of_sketch_eq _ same
    intro c
    rfl

theorem byName_eq_of_bare_eq {a b : TypeExpr} (alike : a.bare = b.bare) : a.byName = b.byName := by
  rw [← beq_iff_byName_eq, beq_iff_key_eq]
  exact key_eq_of_sketch_eq (fun _ => rfl) alike

/-! ## Arrays of resolved components -/

/-- What a generic array becomes when its component is resolved. -/
def arrayed : TypeExpr → TypeExpr
  | .plain c => .plain c.arrayOf
  | component => .genericArray component

theorem freeVariables_arrayed (component : TypeExpr) :
    component.arrayed.freeVariables = component.freeVariables := by
  cases component <;> rfl

/-- Classes that look the same have array classes that look the same. -/
def SeesArrays (see : Class → Class) : Prop :=
  ∀ c d : Class, see c = see d → see c.arrayOf = see d.arrayOf

theorem seesArrays_id : SeesArrays id :=
  fun _ _ same => congrArg Class.arrayOf same

theorem seesArrays_named : SeesArrays fun c => .named c.name := by
  intro c d (same : Class.named c.name = Class.named d.name)
  have names : c.name = d.name := by injection same
  show Class.named c.arrayOf.name = Class.named d.arrayOf.name
  rw [Class.arrayOf, Class.arrayOf, names]

theorem sketch_arrayed {see : Class → Class} (sees : SeesArrays see) {a b : TypeExpr}
    (alike : a.sketch see = b.sketch see) : a.arrayed.sketch see = b.arrayed.sketch see := by
  cases a <;> cases b <;> simp_all [sketch, arrayed, ofVariable]
  exact sees _ _ alike

end TypeExpr

namespace Bindings

open TypeExpr

theorem resolve_genericArray (bindings : Bindings) (component : TypeExpr) :
    bindings.resolve (.genericArray component) = (bindings.resolve component).arrayed := by
  rw [resolve]
  cases bindings.resolve component <;> rfl

theorem resolve_var (bindings : Bindings) (symbol : TypeVariable) (bounds : List TypeExpr) :
    bindings.resolve (.var symbol bounds) =
      (bindings.binding? symbol).getD (.var symbol bounds) := rfl

/-- The bounds of a variable play no part in what it stands for. -/
theorem sketch_resolve_var (see : Class → Class) (bindings : Bindings) (symbol : TypeVariable)
    (bounds : List TypeExpr) :
    (bindings.resolve (.var symbol bounds)).sketch see =
      (bindings.resolve (.ofVariable symbol)).sketch see := by
  rw [ofVariable, resolve_var, resolve_var]
  cases bindings.binding? symbol <;> rfl

/-- Types that look alike, one by one, are taken to the same. -/
theorem map_eq_map_of_alike {α β : Type} {look : TypeExpr → α} {first second : TypeExpr → β}
    {as bs : List TypeExpr} (alike : as.map look = bs.map look)
    (each : ∀ a ∈ as, ∀ b, look a = look b → first a = second b) :
    as.map first = bs.map second := by
  induction as generalizing bs with
  | nil =>
      cases bs with
      | nil => rfl
      | cons b bs => cases alike
  | cons a as ih =>
      cases bs with
      | nil => cases alike
      | cons b bs =>
          rcases List.cons.inj alike with ⟨head, tail⟩
          rw [List.map_cons, List.map_cons, each a List.mem_cons_self b head,
            ih tail fun a member => each a (List.mem_cons_of_mem _ member)]

/--
A resolved type looks like another one if the types look alike and their variables stand
for what looks alike.
-/
theorem sketch_resolve {see : Class → Class} (sees : SeesArrays see) {first second : Bindings}
    {a b : TypeExpr} (alike : a.sketch see = b.sketch see)
    (stands : ∀ v ∈ a.freeVariables, (first.resolve (.ofVariable v)).sketch see =
      (second.resolve (.ofVariable v)).sketch see) :
    (first.resolve a).sketch see = (second.resolve b).sketch see := by
  induction a using descriptor_induction generalizing b with
  | plain c above =>
      cases b with
      | plain d => exact alike
      | parameterized | wildcard | var | genericArray => cases alike
  | parameterized raw arguments above inside =>
      cases b with
      | parameterized other others =>
          rcases TypeExpr.parameterized.inj alike with ⟨heads, same⟩
          rw [sketchAll_eq_map, sketchAll_eq_map] at same
          rw [resolve, resolve, sketch, sketch, heads]
          simp only [resolveAll_eq_map, sketchAll_eq_map, List.map_map]
          congr 1
          apply map_eq_map_of_alike same
          intro argument member b alike
          apply inside argument member alike
          intro v occurs
          exact stands v (mem_freeVariables_parameterized.mpr ⟨argument, member, occurs⟩)
      | plain | wildcard | var | genericArray => cases alike
  | wildcard upper lower inUpper inLower =>
      cases b with
      | wildcard upper' lower' =>
          rcases TypeExpr.wildcard.inj alike with ⟨sameUpper, sameLower⟩
          rw [sketchAll_eq_map, sketchAll_eq_map] at sameUpper sameLower
          rw [resolve, resolve, sketch, sketch]
          have within : ∀ bound ∈ upper ++ lower, ∀ v ∈ bound.freeVariables,
              (first.resolve (.ofVariable v)).sketch see =
                (second.resolve (.ofVariable v)).sketch see := fun bound member v occurs =>
            stands v (mem_freeVariables_wildcard.mpr ⟨bound, member, occurs⟩)
          rcases List.forall_mem_append.mp within with ⟨standsUpper, standsLower⟩
          simp only [resolveAll_eq_map, sketchAll_eq_map, List.map_map]
          congr 1
          · apply map_eq_map_of_alike sameUpper
            intro bound member b alike
            exact inUpper bound member alike (standsUpper bound member)
          · apply map_eq_map_of_alike sameLower
            intro bound member b alike
            exact inLower bound member alike (standsLower bound member)
      | plain | parameterized | var | genericArray => cases alike
  | var symbol bounds =>
      cases b with
      | var other bounds' =>
          cases alike
          rw [sketch_resolve_var, sketch_resolve_var]
          exact stands symbol List.mem_cons_self
      | plain | parameterized | wildcard | genericArray => cases alike
  | genericArray component inside =>
      cases b with
      | genericArray other =>
          rw [resolve_genericArray, resolve_genericArray]
          exact sketch_arrayed sees (inside (TypeExpr.genericArray.inj alike) stands)
      | plain | parameterized | wildcard | var => cases alike

/-- A variable of a resolved type comes from what a variable of the type stands for. -/
theorem freeVariables_resolve (bindings : Bindings) {type : TypeExpr} {v : TypeVariable}
    (occurs : v ∈ (bindings.resolve type).freeVariables) :
    ∃ w ∈ type.freeVariables, v ∈ (bindings.resolve (.ofVariable w)).freeVariables := by
  induction type using descriptor_induction with
  | plain c above => cases occurs
  | parameterized raw arguments above inside =>
      rw [resolve, resolveAll_eq_map] at occurs
      rcases mem_freeVariables_parameterized.mp occurs with ⟨_, among, occurs⟩
      rcases List.mem_map.mp among with ⟨argument, member, rfl⟩
      rcases inside argument member occurs with ⟨w, inArgument, stands⟩
      exact ⟨w, mem_freeVariables_parameterized.mpr ⟨argument, member, inArgument⟩, stands⟩
  | wildcard upper lower inUpper inLower =>
      rw [resolve, resolveAll_eq_map, resolveAll_eq_map] at occurs
      rcases mem_freeVariables_wildcard.mp occurs with ⟨_, among, occurs⟩
      rw [← List.map_append] at among
      rcases List.mem_map.mp among with ⟨bound, member, rfl⟩
      have inEither := List.forall_mem_append.mpr ⟨inUpper, inLower⟩
      rcases inEither bound member occurs with ⟨w, inBound, stands⟩
      exact ⟨w, mem_freeVariables_wildcard.mpr ⟨bound, member, inBound⟩, stands⟩
  | var symbol bounds =>
      refine ⟨symbol, List.mem_cons_self, ?_⟩
      rw [← freeVariables_sketch id, ← sketch_resolve_var id bindings symbol bounds,
        freeVariables_sketch]
      exact occurs
  | genericArray component inside =>
      rw [resolve_genericArray, freeVariables_arrayed] at occurs
      exact inside occurs

/-- Resolving depends on what the variables in the type are bound to. -/
theorem resolve_congr {first second : Bindings} {type : TypeExpr}
    (same : ∀ v ∈ type.freeVariables, first.binding? v = second.binding? v) :
    first.resolve type = second.resolve type := by
  induction type using descriptor_induction with
  | plain c above => rfl
  | parameterized raw arguments above inside =>
      simp only [resolve, resolveAll_eq_map]
      congr 1
      exact List.map_congr_left fun argument member => inside argument member fun v occurs =>
        same v (mem_freeVariables_parameterized.mpr ⟨argument, member, occurs⟩)
  | wildcard upper lower inUpper inLower =>
      have within : ∀ bound ∈ upper ++ lower, ∀ v ∈ bound.freeVariables,
          first.binding? v = second.binding? v := fun bound member v occurs =>
        same v (mem_freeVariables_wildcard.mpr ⟨bound, member, occurs⟩)
      rcases List.forall_mem_append.mp within with ⟨sameUpper, sameLower⟩
      simp only [resolve, resolveAll_eq_map]
      congr 1
      · exact List.map_congr_left fun bound member => inUpper bound member (sameUpper bound member)
      · exact List.map_congr_left fun bound member => inLower bound member (sameLower bound member)
  | var symbol bounds => rw [resolve_var, resolve_var, same symbol List.mem_cons_self]
  | genericArray component inside => rw [resolve_genericArray, resolve_genericArray, inside same]

theorem resolve_of_ground {first second : Bindings} {type : TypeExpr}
    (ground : type.freeVariables = []) : first.resolve type = second.resolve type := by
  apply resolve_congr
  rw [ground]
  nofun

end Bindings

/-! ## Types that resolving has been through -/

/-- Resolving without bindings changes nothing: no class stands in a generic array. -/
def TypeExpr.Normal (type : TypeExpr) : Prop :=
  Bindings.empty.resolve type = type

namespace TypeExpr

theorem Normal.arrayed {component : TypeExpr} (normal : component.Normal) :
    component.arrayed.Normal := by
  unfold Normal at normal
  cases component with
  | plain c => rfl
  | parameterized | wildcard | var | genericArray =>
      show Bindings.empty.resolve (.genericArray _) = .genericArray _
      rw [Bindings.resolve_genericArray, normal]
      rfl

end TypeExpr

/-- Nothing is bound before anything is. -/
theorem Bindings.unbound {v : TypeVariable} {value : TypeExpr} {goal : Prop}
    (bound : empty.binding? v = some value) : goal :=
  absurd ((binding?_empty v).symm.trans bound) (Option.some_ne_none value).symm

/-- A resolved type is normal if everything that is bound is. -/
theorem Bindings.normal_resolve {bindings : Bindings}
    (normal : ∀ {v type}, bindings.binding? v = some type → type.Normal) (type : TypeExpr) :
    (bindings.resolve type).Normal := by
  induction type using TypeExpr.descriptor_induction with
  | plain c above => rfl
  | parameterized raw arguments above inside =>
      unfold TypeExpr.Normal
      simp only [resolve, resolveAll_eq_map, List.map_map]
      congr 1
      exact List.map_congr_left inside
  | wildcard upper lower inUpper inLower =>
      unfold TypeExpr.Normal
      simp only [resolve, resolveAll_eq_map, List.map_map]
      congr 1
      · exact List.map_congr_left inUpper
      · exact List.map_congr_left inLower
  | var symbol bounds =>
      rw [resolve_var]
      cases bound : bindings.binding? symbol with
      | none => rfl
      | some type => exact normal bound
  | genericArray component inside =>
      rw [resolve_genericArray]
      exact inside.arrayed

end TestData
