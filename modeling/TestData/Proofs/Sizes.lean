import TestData.Proofs.Containers
import TestData.Proofs.Contract
import TestData.Proofs.Nullable
import TestData.Proofs.Separation.ReadyMade

namespace TestData

/-!
# The configured size

Settings with a collection size put strategies of that size in front of the baseline, and
nested requests go to the whole chain again.  So in a stub for a type that is put together
from collections, maps and arrays, all of these have the configured size, at every depth.
-/

/-! ## Types that are put together, and complete trees for them -/

/-- A text or a primitive, and what a stub for it holds. -/
inductive Class.Scalar : Class → Content → Prop where
  | text : Scalar Class.string (.text "")
  | truth : Scalar (.primitive "bool") (.truth false)
  | character : Scalar (.primitive "char") (.character '\x00')
  | number (kind : NumberKind) : Scalar (.primitive kind.name) (.number kind 0)

/-- A standard collection of elements, and what a stub for it is built as. -/
inductive Class.Collects : Class → (List Value → Content) → Prop where
  | vec : Collects Class.vec .list
  | vecDeque : Collects Class.vecDeque .deque
  | hashSet : Collects Class.hashSet .list
  | btreeSet : Collects Class.btreeSet .list

/-- A standard map. -/
inductive Class.Maps : Class → Prop where
  | hashMap : Maps Class.hashMap
  | btreeMap : Maps Class.btreeMap

namespace TypeExpr

/-- An array type and the type of its elements. -/
inductive ArrayOf : TypeExpr → TypeExpr → Prop where
  | arrayClass (component : Class) : ArrayOf (.plain component.arrayOf) (.plain component)
  | generic (component : TypeExpr) : ArrayOf (.genericArray component) component

/-- Put together from collections, maps and arrays over scalars; no generic array of generic arrays. -/
inductive Nesting : TypeExpr → Prop where
  | scalar {c : Class} {content : Content} (scalar : c.Scalar content) : Nesting (.plain c)
  | collection {c : Class} {build : List Value → Content} (collects : c.Collects build)
      {argument : TypeExpr} (inside : Nesting argument) : Nesting (.parameterized c [argument])
  | map {c : Class} (maps : c.Maps) {key value : TypeExpr} (keys : Nesting key)
      (values : Nesting value) : Nesting (.parameterized c [key, value])
  | array {type component : TypeExpr} (array : type.ArrayOf component) (inside : Nesting component)
      (proper : ∀ inner, component ≠ .genericArray inner) : Nesting type

/-- A tree of the shape of the type in which everything has just as many elements or entries. -/
inductive Complete (count : Nat) : TypeExpr → Value → Prop where
  | scalar {c : Class} {content : Content} (scalar : c.Scalar content) (identity : Nat) :
      Complete count (.plain c) (.object identity content)
  | collection {c : Class} {build : List Value → Content} (collects : c.Collects build)
      {argument : TypeExpr} (identity : Nat) {items : List Value} (size : items.length = count)
      (each : ∀ item ∈ items, Complete count argument item) :
      Complete count (.parameterized c [argument]) (.object identity (build items))
  | map {c : Class} (maps : c.Maps) {key value : TypeExpr} (identity : Nat)
      {pairs : List (Value × Value)} (size : pairs.length = count)
      (keys : ∀ pair ∈ pairs, Complete count key pair.1)
      (values : ∀ pair ∈ pairs, Complete count value pair.2) :
      Complete count (.parameterized c [key, value]) (.object identity (.entries pairs))
  | array {type component : TypeExpr} (array : type.ArrayOf component) (identity : Nat)
      {items : List Value} (size : items.length = count)
      (each : ∀ item ∈ items, Complete count component item) :
      Complete count type (.object identity (.list items))

variable {type component : TypeExpr}

/-- All that is put together has a class, but for generic arrays. -/
theorem Nesting.rawType_isSome (nesting : type.Nesting)
    (proper : ∀ inner, type ≠ .genericArray inner) : type.rawType.isSome = true := by
  cases nesting with
  | scalar | collection | map => rfl
  | array array inside _ =>
      cases array with
      | arrayClass => rfl
      | generic => exact absurd rfl (proper _)

theorem ArrayOf.component?_eq (array : type.ArrayOf component)
    (behind : component.rawType.isSome = true) : type.component? = some component := by
  cases array with
  | arrayClass => rfl
  | generic => exact if_pos behind

end TypeExpr

/-! ## Which strategy serves what -/

namespace Class

theorem Scalar.noContainer {c : Class} {content : Content} (scalar : c.Scalar content) :
    c.NoContainer := by
  cases scalar with
  | text | truth | character => unfold NoContainer; decide
  | number kind => cases kind <;> (unfold NoContainer; decide)

theorem noContainer_arrayOf (component : Class) : component.arrayOf.NoContainer := by
  intro d member
  refine name_arrayOf_ne ?_
  revert d
  decide

end Class

/-- Nothing is asked of the store, and no failure is allowed. -/
def Contract.certain : Contract where
  holds _ := True
  fails _ := False
  alike _ _ := trivial

namespace Strategy

/-- Neither an option nor an enum constant is made for the type. -/
structure Unchosen (type : TypeExpr) : Prop where
  optional (mode : OptionalMode) : acceptsOptional mode type = false
  constant (selector : Selector Value) (site : Site) : chosenConstant selector site type = pure none

theorem unchosen_plain {c : Class} (other : c.NoContainer) (plain : c.isEnum = false) :
    Unchosen (.plain c) where
  optional mode := acceptsOptional_of_ne (.inl rfl) (other _ List.mem_cons_self) mode
  constant := chosenConstant_of_not_enum (.inl rfl) plain

theorem unchosen_of_scalar {c : Class} {content : Content} (scalar : c.Scalar content) :
    Unchosen (.plain c) := by
  refine unchosen_plain scalar.noContainer ?_
  cases scalar <;> rfl

theorem unchosen_of_array {type component : TypeExpr} (array : type.ArrayOf component) :
    Unchosen type := by
  cases array with
  | arrayClass component => exact unchosen_plain component.noContainer_arrayOf rfl
  | generic => exact ⟨fun _ => rfl, fun _ _ => rfl⟩

/-- Whatever the host and the store, a stub for the type holds the content. -/
def Supplies (strategy : Strategy) (type : TypeExpr) (content : Content) : Prop :=
  ∀ host site, Contract.certain.Gives (strategy.produce host site type)
    (Contract.Holding (· = content))

end Strategy

namespace Chain

variable {count : Nat} {c : Class} {content : Content} {type component : TypeExpr} {site : Site}

/-- The chain makes everything of the size, and knows the scalars. -/
structure SizedTo (chain : Chain) (count : Nat) : Prop where
  collections {c : Class} {build : List Value → Content} (collects : c.Collects build)
    (argument : TypeExpr) (site : Site) :
    firstAccepting chain.strategies ⟨.parameterized c [argument], site⟩ =
      pure (some (.collection c build (.fixed count)))
  maps {c : Class} (maps : c.Maps) (key value : TypeExpr) (site : Site) :
    firstAccepting chain.strategies ⟨.parameterized c [key, value], site⟩ =
      pure (some (.map c .entries (.fixed count)))
  arrays {type component : TypeExpr} (array : type.ArrayOf component)
    (behind : component.rawType.isSome = true) (site : Site) :
    firstAccepting chain.strategies ⟨type, site⟩ = pure (some (.array (.fixed count)))
  scalars {c : Class} {content : Content} (scalar : c.Scalar content) {site : Site}
    (apart : site.element? = none) :
    ∃ strategy, firstAccepting chain.strategies ⟨.plain c, site⟩ = pure (some strategy) ∧
      strategy.Supplies (.plain c) content

/-! ### The strategies for a configured size -/

/-- The strategies for a configured size, in the order in which they are asked. -/
def sized (count : Nat) : List Strategy :=
  (Strategy.defaultCollections count).reverse ++ [.array (.fixed count)]

theorem sized_collection {build : List Value → Content} (collects : c.Collects build)
    (argument : TypeExpr) (rest : List Strategy) :
    firstAccepting (sized count ++ rest) ⟨.parameterized c [argument], site⟩ =
      pure (some (.collection c build (.fixed count))) := by
  cases collects <;> rfl

theorem sized_map (maps : c.Maps) (key value : TypeExpr) (rest : List Strategy) :
    firstAccepting (sized count ++ rest) ⟨.parameterized c [key, value], site⟩ =
      pure (some (.map c .entries (.fixed count))) := by
  cases maps <;> rfl

theorem collections_passed (isOf : type.IsOf c) (other : c.NoContainer) (site : Site) :
    ∀ strategy ∈ (Strategy.defaultCollections count).reverse,
      strategy.accepts site type = pure false :=
  fun strategy member =>
    Strategy.collections_decline isOf other count site strategy (List.mem_reverse.mp member)

theorem sized_array (array : type.ArrayOf component) (behind : component.rawType.isSome = true)
    (rest : List Strategy) :
    firstAccepting (sized count ++ rest) ⟨type, site⟩ = pure (some (.array (.fixed count))) := by
  have declined : ∀ strategy ∈ (Strategy.defaultCollections count).reverse,
      strategy.accepts site type = pure false := by
    cases array with
    | arrayClass component => exact collections_passed (.inl rfl) component.noContainer_arrayOf site
    | generic => simp [Strategy.defaultCollections, Strategy.accepts, Strategy.acceptsShape,
        TypeExpr.shape?, TypeExpr.unwrap]
  have accepts : (Strategy.array (.fixed count)).accepts site type = pure true := by
    simp only [Strategy.accepts, array.component?_eq behind, Option.isSome_some]
  rw [sized, List.append_assoc, firstAccepting_of_passed declined]
  simp only [List.singleton_append, firstAccepting, accepts, pure_bind, if_true]

/-- A scalar is none of their business. -/
theorem sized_scalar (scalar : c.Scalar content) (rest : List Strategy) :
    firstAccepting (sized count ++ rest) ⟨.plain c, site⟩ = firstAccepting rest ⟨.plain c, site⟩ := by
  refine firstAccepting_of_passed (List.forall_mem_append.mpr ⟨?_, ?_⟩) rest
  · exact collections_passed (.inl rfl) scalar.noContainer site
  · intro strategy member
    cases List.mem_singleton.mp member
    cases scalar <;> rfl

/-! ### Scalars in the baselines -/

theorem full_serves_scalar (scalar : c.Scalar content) (before : Store) (site : Site) :
    ∃ strategy, firstAccepting (full before).1.strategies ⟨.plain c, site⟩ = pure (some strategy) ∧
      strategy.Supplies (.plain c) content := by
  cases scalar with
  | text => exact ⟨_, rfl, fun _ _ => Contract.gives_pure ⟨_, _, rfl, rfl⟩⟩
  | truth | character => exact ⟨.defaultValue, rfl, fun _ _ => Contract.gives_create rfl⟩
  | number kind =>
      refine ⟨.defaultValue, ?_, fun host site => ?_⟩
      · cases kind <;> rfl
      · cases kind <;> exact Contract.gives_create rfl

/-- Where nothing says that null is welcome, there is no null. -/
theorem conditionalNull_declines (apart : site.element? = none) (type : TypeExpr) :
    (Strategy.conditional .nullValue (Matcher.annotatedSiteIs Matcher.nullable)).accepts site type =
      pure false := by
  have verdict : Matcher.annotatedSiteIs Matcher.nullable site type = Verdict.of false := by
    simp only [Matcher.annotatedSiteIs, Matcher.projected, apart]
  simp only [Strategy.accepts, pure_bind, verdict]
  cases Strategy.acceptsNull type <;> rfl

theorem minimal_serves_scalar (scalar : c.Scalar content) (before : Store)
    (apart : site.element? = none) :
    firstAccepting (minimal before).1.strategies ⟨.plain c, site⟩ =
      firstAccepting (full before).1.strategies ⟨.plain c, site⟩ := by
  have solid : Hollow.standard.find? (fun hollow => hollow.fits (.plain c)) = none := by
    cases scalar with
    | text | truth | character => rfl
    | number kind => cases kind <;> rfl
  have declines := conditionalNull_declines apart (.plain c)
  rw [minimal_strategies]
  funext store
  have passed := firstAccepting_emptying emptying_empties
    (.conditional .nullValue (Matcher.annotatedSiteIs Matcher.nullable) ::
      (full before).1.strategies) ⟨.plain c, site⟩ store
  rw [solid] at passed
  exact passed.trans (firstAccepting_of_declines (congrFun declines store) _)

theorem baseline_serves_scalar {baseline : Baseline} (based : baseline ≠ .empty)
    (scalar : c.Scalar content) (before : Store) (apart : site.element? = none) :
    ∃ strategy, firstAccepting (baseline.chain before).1.strategies ⟨.plain c, site⟩ =
        pure (some strategy) ∧ strategy.Supplies (.plain c) content := by
  have inFull := full_serves_scalar scalar before site
  cases baseline with
  | full => exact inFull
  | minimal =>
      rw [← minimal_serves_scalar scalar before apart] at inFull
      exact inFull
  | empty => exact absurd rfl based

end Chain

/-! ## Chains for settings -/

namespace Settings

variable {settings : Settings} {size : UInt64}

/-- The strategies in front of those for the size: what enums and options are made by. -/
def choices (settings : Settings) (cell : Nat) : List Strategy :=
  (match settings.randomSeed with
    | some seed => [.enumValue (.random ⟨cell⟩ (.ofSeed seed))]
    | none => [])
  ++ (match settings.optionalMode with
    | some mode => [.optional mode]
    | none => [])

theorem chain_strategies (configured : settings.collectionSize = some size) (before : Store) :
    ∃ begun : Store, (settings.chain before).1.strategies = settings.choices before.nextCell ++
      (Chain.sized size.toNat ++ (settings.baseline.chain begun).1.strategies) := by
  refine ⟨{ before with nextCell := before.nextCell + settings.cells }, ?_⟩
  rw [settings.chain_apply]
  unfold Chain.assemble added choices collectionStrategies Chain.sized
  rw [configured]
  cases settings.optionalMode <;> cases settings.randomSeed <;> simp

/-- Where there is nothing to choose the choices are passed over. -/
theorem choices_decline {type : TypeExpr} (unchosen : Strategy.Unchosen type) (settings : Settings)
    (cell : Nat) (site : Site) :
    ∀ strategy ∈ settings.choices cell, strategy.accepts site type = pure false := by
  unfold choices
  refine List.forall_mem_append.mpr ⟨?_, ?_⟩
  · cases settings.randomSeed <;> simp [Strategy.accepts, unchosen.constant]
  · cases settings.optionalMode <;> simp [Strategy.accepts, unchosen.optional]

/-- A chain for settings makes everything of the configured size. -/
theorem chain_sizedTo (configured : settings.collectionSize = some size)
    (based : settings.baseline ≠ .empty) (before : Store) :
    (settings.chain before).1.SizedTo size.toNat := by
  obtain ⟨begun, strategies⟩ := chain_strategies configured before
  have passed {type : TypeExpr} (unchosen : Strategy.Unchosen type) (site : Site) :
      Chain.firstAccepting (settings.chain before).1.strategies ⟨type, site⟩ =
        Chain.firstAccepting (Chain.sized size.toNat ++
          (settings.baseline.chain begun).1.strategies) ⟨type, site⟩ := by
    rw [strategies]
    exact Chain.firstAccepting_of_passed (settings.choices_decline unchosen _ site) _
  constructor
  · intro c build collects argument site
    have unchosen : Strategy.Unchosen (.parameterized c [argument]) := by
      cases collects <;> exact ⟨fun _ => rfl, fun _ _ => rfl⟩
    rw [passed unchosen]
    exact Chain.sized_collection collects argument _
  · intro c maps key value site
    have unchosen : Strategy.Unchosen (.parameterized c [key, value]) := by
      cases maps <;> exact ⟨fun _ => rfl, fun _ _ => rfl⟩
    rw [passed unchosen]
    exact Chain.sized_map maps key value _
  · intro type component array behind site
    rw [passed (Strategy.unchosen_of_array array)]
    exact Chain.sized_array array behind _
  · intro c content scalar site apart
    rw [passed (Strategy.unchosen_of_scalar scalar), Chain.sized_scalar scalar]
    exact Chain.baseline_serves_scalar based scalar begun apart

end Settings

/-! ## Stubs for types that are put together -/

namespace Chain.SizedTo

variable {chain : Chain} {count depth : Nat}

/-- The request is certain to be answered by the strategy that is the first to accept it. -/
theorem gives_request {wanted : Request} {strategy : Strategy} {kind : Value → Prop}
    (found : firstAccepting chain.strategies wanted = pure (some strategy))
    (makes : Contract.certain.Gives
      (strategy.produce (chain.hostWithin depth) wanted.site wanted.type) kind) :
    Contract.certain.Gives ((chain.hostWithin (depth + 1)).request wanted) kind := by
  intro store held
  have first : firstAccepting chain.strategies wanted
      (Store.record (.requested wanted.type wanted.site) store).2 =
        (some strategy, (Store.record (.requested wanted.type wanted.site) store).2) := by
    rw [found]
    rfl
  rw [request_of_found first]
  exact makes _ held

theorem gives_scalar (sized : chain.SizedTo count) {c : Class} {content : Content}
    (scalar : c.Scalar content) {site : Site} (apart : site.element? = none) :
    Contract.certain.Gives ((chain.hostWithin (depth + 1)).request ⟨.plain c, site⟩)
      ((TypeExpr.plain c).Complete count) := by
  obtain ⟨strategy, found, supplies⟩ := sized.scalars scalar apart
  refine gives_request found ((supplies _ _).mono ?_)
  rintro _ ⟨identity, _, rfl, rfl⟩
  exact .scalar scalar identity

theorem gives_collection (sized : chain.SizedTo count) {c : Class}
    {build : List Value → Content} (collects : c.Collects build) {argument : TypeExpr} {site : Site}
    (elements : Contract.certain.Gives ((chain.hostWithin depth).request
      ⟨argument, .child (.typeArgument c [argument] 0) site⟩) (argument.Complete count)) :
    Contract.certain.Gives ((chain.hostWithin (depth + 1)).request ⟨.parameterized c [argument], site⟩)
      ((TypeExpr.parameterized c [argument]).Complete count) := by
  have each : ∀ raw arguments (inRange : 0 < arguments.length),
      (TypeExpr.parameterized c [argument]).unwrap = some (.parameterized raw arguments) →
      Contract.certain.Gives ((chain.hostWithin depth).request
        (Contract.argumentAt site raw arguments 0 inRange)) (argument.Complete count) := by
    rintro _ _ _ ⟨⟩
    exact elements
  have accepted : Strategy.acceptsShape (.parameterized c [argument]) c 1 count = true := by
    cases collects <;> rfl
  refine gives_request (sized.collections collects argument site) ?_
  show Contract.certain.Gives (Strategy.produceCollection _ c build count site _) _
  refine (Contract.gives_produceCollection each ?_).mono ?_
  · intro declined
    cases accepted.symm.trans declined
  rintro _ ⟨identity, _, rfl, items, rfl, size, given⟩
  exact .collection collects identity size given

theorem gives_map (sized : chain.SizedTo count) {c : Class} (maps : c.Maps)
    {key value : TypeExpr} {site : Site}
    (keys : Contract.certain.Gives ((chain.hostWithin depth).request
      ⟨key, .child (.typeArgument c [key, value] 0) site⟩) (key.Complete count))
    (values : Contract.certain.Gives ((chain.hostWithin depth).request
      ⟨value, .child (.typeArgument c [key, value] 1) site⟩) (value.Complete count)) :
    Contract.certain.Gives
      ((chain.hostWithin (depth + 1)).request ⟨.parameterized c [key, value], site⟩)
      ((TypeExpr.parameterized c [key, value]).Complete count) := by
  have each : ∀ raw arguments (inRange : 1 < arguments.length),
      (TypeExpr.parameterized c [key, value]).unwrap = some (.parameterized raw arguments) →
      Contract.certain.Gives ((chain.hostWithin depth).request
          (Contract.argumentAt site raw arguments 0 (by omega))) (key.Complete count) ∧
        Contract.certain.Gives ((chain.hostWithin depth).request
          (Contract.argumentAt site raw arguments 1 inRange)) (value.Complete count) := by
    rintro _ _ _ ⟨⟩
    exact ⟨keys, values⟩
  have accepted : Strategy.acceptsShape (.parameterized c [key, value]) c 2 count = true := by
    cases maps <;> rfl
  refine gives_request (sized.maps maps key value site) ?_
  show Contract.certain.Gives (Strategy.produceMap _ c .entries count site _) _
  refine (Contract.gives_produceMap each ?_).mono ?_
  · intro declined
    cases accepted.symm.trans declined
  rintro _ ⟨identity, _, rfl, pairs, rfl, size, given⟩
  exact .map maps identity size (fun pair member => (given pair member).1)
    fun pair member => (given pair member).2

theorem gives_array (sized : chain.SizedTo count) {type component : TypeExpr}
    (array : type.ArrayOf component) (behind : component.rawType.isSome = true) {site : Site}
    (elements : Contract.certain.Gives
      ((chain.hostWithin depth).request ⟨component, site.arrayElement component⟩)
      (component.Complete count)) :
    Contract.certain.Gives ((chain.hostWithin (depth + 1)).request ⟨type, site⟩)
      (type.Complete count) := by
  have isArray := array.component?_eq behind
  have each : ∀ other, type.component? = some other →
      Contract.certain.Gives ((chain.hostWithin depth).request ⟨other, site.arrayElement other⟩)
        (component.Complete count) := by
    intro other same
    cases isArray.symm.trans same
    exact elements
  refine gives_request (sized.arrays array behind site) ?_
  show Contract.certain.Gives (Strategy.produceArray _ count site type) _
  refine (Contract.gives_produceArray each ?_).mono ?_
  · intro none
    cases isArray.symm.trans none
  rintro _ ⟨identity, _, rfl, items, rfl, size, given⟩
  exact .array array identity size given

/-- By induction on the type: within some depth the stub is a complete tree. -/
theorem gives_complete (sized : chain.SizedTo count) {type : TypeExpr} (nesting : type.Nesting) :
    ∃ enough, ∀ depth, enough ≤ depth → ∀ site : Site, site.element? = none →
      Contract.certain.Gives ((chain.hostWithin depth).request ⟨type, site⟩) (type.Complete count) := by
  induction nesting with
  | scalar scalar =>
      refine ⟨1, fun depth deep site apart => ?_⟩
      obtain ⟨depth, rfl⟩ : ∃ inner, depth = inner + 1 := ⟨depth - 1, by omega⟩
      exact sized.gives_scalar scalar apart
  | collection collects inside ih =>
      obtain ⟨enough, elements⟩ := ih
      refine ⟨enough + 1, fun depth deep site apart => ?_⟩
      obtain ⟨depth, rfl⟩ : ∃ inner, depth = inner + 1 := ⟨depth - 1, by omega⟩
      exact sized.gives_collection collects (elements depth (by omega) _ rfl)
  | map maps inKeys inValues ihKeys ihValues =>
      obtain ⟨enough, keys⟩ := ihKeys
      obtain ⟨more, values⟩ := ihValues
      refine ⟨max enough more + 1, fun depth deep site apart => ?_⟩
      obtain ⟨depth, rfl⟩ : ∃ inner, depth = inner + 1 := ⟨depth - 1, by omega⟩
      exact sized.gives_map maps (keys depth (by omega) _ rfl) (values depth (by omega) _ rfl)
  | array array inside proper ih =>
      obtain ⟨enough, elements⟩ := ih
      refine ⟨enough + 1, fun depth deep site apart => ?_⟩
      obtain ⟨depth, rfl⟩ : ∃ inner, depth = inner + 1 := ⟨depth - 1, by omega⟩
      exact sized.gives_array array (inside.rawType_isSome proper) (elements depth (by omega) _ rfl)

end Chain.SizedTo

/--
Whatever else settings say, as long as there is a baseline: if they set a collection size,
a stub for a type that is put together from collections, maps and arrays over texts and
primitives is there, and all of these have just this size, at every depth.
-/
theorem configured_size_at_every_depth {settings : Settings} {size : UInt64}
    (configured : settings.collectionSize = some size) (based : settings.baseline ≠ .empty)
    (before : Store) {type : TypeExpr} (nesting : type.Nesting) :
    ∃ enough, ∀ depth, enough ≤ depth → ∀ store, ∃ value after,
      ((settings.chain before).1.hostWithin depth).request ⟨type, .unknown⟩ store =
        .ok value after ∧ type.Complete size.toNat value := by
  have sized := Settings.chain_sizedTo configured based before
  obtain ⟨enough, complete⟩ := sized.gives_complete nesting
  refine ⟨enough, fun depth deep store => ?_⟩
  have given := complete depth deep .unknown rfl store trivial
  cases outcome : ((settings.chain before).1.hostWithin depth).request ⟨type, .unknown⟩ store with
  | ok value after =>
      rw [outcome] at given
      exact ⟨value, after, rfl, given.2⟩
  | error failure after =>
      rw [outcome] at given
      exact given.2.elim

/-- A map from texts to generic arrays of deques of arrays of flags, each of them with two of all. -/
theorem table_of_flags_complete :
    let settings : Settings :=
      { baseline := .minimal, collectionSize := some 2, optionalMode := some .presentIfPossible,
        randomSeed := some 7 }
    let flags : TypeExpr :=
      .genericArray (.parameterized Class.vecDeque [.plain (Class.primitive "bool").arrayOf])
    let type : TypeExpr := .parameterized Class.hashMap [.plain Class.string, flags]
    settings.collectionSize = some 2 ∧ settings.baseline ≠ .empty ∧ type.Nesting ∧
      ∃ enough, ∀ depth, enough ≤ depth → ∀ store, ∃ value after,
        ((settings.chain {}).1.hostWithin depth).request ⟨type, .unknown⟩ store = .ok value after ∧
          type.Complete 2 value := by
  intro settings flags type
  have nesting : type.Nesting := by
    refine .map .hashMap (.scalar .text) (.array (.generic _) ?_ nofun)
    exact .collection .vecDeque (.array (.arrayClass _) (.scalar .truth) nofun)
  have configured : settings.collectionSize = some 2 := rfl
  have based : settings.baseline ≠ .empty := by decide
  exact ⟨configured, based, nesting, configured_size_at_every_depth configured based {} nesting⟩

end TestData
