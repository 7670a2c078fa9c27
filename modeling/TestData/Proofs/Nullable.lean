import Mathlib.Data.List.Forall2
import TestData.Proofs.Integrity
import TestData.Proofs.Termination.Unending
import TestData.Chain.Preset

namespace TestData

/-!
# Null where it is welcome

The minimal chain asks for null only after it has asked for what can be empty: options,
collections and maps, with the type arguments they need or with none.  So at a site that
welcomes null these are empty all the same, and null is given in place of everything else
whose class is known not to be primitive.
-/

/-- The element the site is about says that null is welcome. -/
def Site.WelcomesNull (site : Site) : Prop :=
  ∃ element, site.element? = some element ∧ Annotated.isAnnotatedWith element "Nullable" = true

/-- Something that can be empty: its class, its number of type arguments and what it then holds. -/
structure Hollow where
  descriptor : Class
  arity : Nat
  content : Content

namespace Hollow

/-- The options, maps and collections, in the order in which the minimal chain looks for them. -/
def standard : List Hollow :=
  [⟨Class.option, 1, .option none⟩,
   ⟨Class.btreeMap, 2, .entries []⟩,
   ⟨Class.hashMap, 2, .entries []⟩,
   ⟨Class.btreeSet, 1, .list []⟩,
   ⟨Class.hashSet, 1, .list []⟩,
   ⟨Class.vecDeque, 1, .deque []⟩,
   ⟨Class.vec, 1, .list []⟩]

/-- Behind the wildcards in front, the type is the class by itself or with all its arguments. -/
def fits (hollow : Hollow) (type : TypeExpr) : Bool :=
  match type.unwrap with
  | some (.plain c) => c == hollow.descriptor
  | some (.parameterized raw arguments) =>
      raw == hollow.descriptor && arguments.length == hollow.arity
  | _ => false

end Hollow

/-- What a type stands for that can be empty. -/
def TypeExpr.hollow? (type : TypeExpr) : Option Hollow :=
  Hollow.standard.find? fun hollow => hollow.fits type

namespace Strategy

/-- The strategy serves what fits with a new empty object, and nothing else. -/
structure Empties (strategy : Strategy) (hollow : Hollow) : Prop where
  accepts (site : Site) (type : TypeExpr) : strategy.accepts site type = pure (hollow.fits type)
  produces (host : Host) (site : Site) {type : TypeExpr} : hollow.fits type = true →
    strategy.produce host site type = Store.create hollow.content

theorem shape?_isSome (hollow : Hollow) (type : TypeExpr) :
    (type.shape? hollow.descriptor hollow.arity).isSome = hollow.fits type := by
  unfold TypeExpr.shape? Hollow.fits
  cases type.unwrap with
  | none => rfl
  | some front =>
      cases front with
      | plain c | parameterized raw arguments => dsimp only; split <;> simp_all
      | wildcard | var | genericArray => rfl

theorem acceptsShape_zero (hollow : Hollow) (type : TypeExpr) :
    acceptsShape type hollow.descriptor hollow.arity 0 = hollow.fits type := by
  rw [← shape?_isSome]
  unfold acceptsShape
  rcases type.shape? hollow.descriptor hollow.arity with _ | (_ | ⟨raw, arguments⟩) <;> rfl

theorem collection_empties (c : Class) (build : List Value → Content) :
    (collection c build (.fixed 0)).Empties ⟨c, 1, build []⟩ where
  accepts site type := congrArg pure (acceptsShape_zero ⟨c, 1, build []⟩ type)
  produces host site type fits := by
    rw [← shape?_isSome] at fits
    show produceCollection host c build 0 site type = _
    unfold produceCollection
    cases shape : type.shape? c 1 with
    | none =>
        rw [shape] at fits
        cases fits
    | some form =>
        cases form with
        | raw => rfl
        | applied raw arguments =>
            have inRange : 0 < arguments.length := by
              rw [Course.length_of_shape_applied shape]
              exact Nat.one_pos
            dsimp only
            rw [argumentRequest_of_lt inRange]
            rfl

theorem map_empties (c : Class) (build : List (Value × Value) → Content) :
    (map c build (.fixed 0)).Empties ⟨c, 2, build []⟩ where
  accepts site type := congrArg pure (acceptsShape_zero ⟨c, 2, build []⟩ type)
  produces host site type fits := by
    rw [← shape?_isSome] at fits
    show produceMap host c build 0 site type = _
    unfold produceMap
    cases shape : type.shape? c 2 with
    | none =>
        rw [shape] at fits
        cases fits
    | some form =>
        cases form with
        | raw => rfl
        | applied raw arguments =>
            have both := Course.length_of_shape_applied shape
            dsimp only
            rw [argumentRequest_of_lt (by omega : 0 < arguments.length),
              argumentRequest_of_lt (by omega : 1 < arguments.length)]
            rfl

theorem optional_empties : (optional .empty).Empties ⟨Class.option, 1, .option none⟩ where
  accepts site type := by
    show pure (acceptsOptional .empty type) = _
    unfold acceptsOptional Hollow.fits
    cases type.unwrap with
    | none => rfl
    | some front =>
        cases front with
        | plain c => exact congrArg pure (Bool.and_true _)
        | parameterized | wildcard | var | genericArray => rfl
  produces host site type fits := by
    show produceOptional host .empty site type = _
    unfold Hollow.fits at fits
    unfold produceOptional
    cases front : type.unwrap with
    | none =>
        rw [front] at fits
        cases fits
    | some unwrapped =>
        rw [front] at fits
        cases unwrapped with
        | plain c =>
            dsimp only at fits ⊢
            rw [if_pos (by simpa [OptionalMode.allowsEmpty] using fits)]
        | parameterized raw arguments =>
            dsimp only at fits ⊢
            obtain ⟨option, single⟩ := Bool.and_eq_true_iff.mp fits
            have inRange : 0 < arguments.length := by
              rw [beq_iff_eq.mp single]
              exact Nat.one_pos
            rw [if_pos option, argumentRequest_of_lt inRange]
            rfl
        | wildcard | var | genericArray => cases fits

end Strategy

namespace Chain

/-- Strategies that empty what fits are found in the order of what they empty. -/
theorem firstAccepting_emptying {front : List Strategy} {hollows : List Hollow}
    (empties : List.Forall₂ Strategy.Empties front hollows) (rest : List Strategy)
    (wanted : Request) (store : Store) :
    match hollows.find? fun hollow => hollow.fits wanted.type with
    | some hollow => ∃ strategy, strategy.Empties hollow ∧
        firstAccepting (front ++ rest) wanted store = (some strategy, store)
    | none => firstAccepting (front ++ rest) wanted store = firstAccepting rest wanted store := by
  induction empties with
  | nil => rfl
  | @cons strategy hollow front hollows here behind ih =>
      have answer : strategy.accepts wanted.site wanted.type store
          = (hollow.fits wanted.type, store) := by
        rw [here.accepts]
        rfl
      rw [List.find?_cons]
      cases fits : hollow.fits wanted.type with
      | true =>
          rw [fits] at answer
          exact ⟨strategy, here, firstAccepting_of_accepts answer _⟩
      | false =>
          rw [fits] at answer
          rw [List.cons_append, firstAccepting_of_declines answer]
          exact ih

/-- The strategies of the minimal chain for what can be empty. -/
def emptying : List Strategy :=
  .optional .empty :: Strategy.emptyDefaultCollections.reverse

theorem emptying_empties : List.Forall₂ Strategy.Empties emptying Hollow.standard :=
  .cons Strategy.optional_empties <|
    .cons (Strategy.map_empties _ _) <| .cons (Strategy.map_empties _ _) <|
    .cons (Strategy.collection_empties _ _) <| .cons (Strategy.collection_empties _ _) <|
    .cons (Strategy.collection_empties _ _) <| .cons (Strategy.collection_empties _ _) .nil

theorem minimal_strategies (before : Store) :
    (minimal before).1.strategies = emptying ++
      .conditional .nullValue (Matcher.annotatedSiteIs Matcher.nullable) ::
        (full before).1.strategies := by
  show _ ++ [(full before).1].flatMap Chain.strategies ++ [] = _
  simp [emptying, minimalStrategies]

end Chain

theorem Strategy.acceptsNull_of_boxed {type : TypeExpr} {c : Class}
    (behind : type.rawType = some c) (boxed : c.isPrimitive = false) : acceptsNull type = true := by
  rw [acceptsNull, behind]
  exact congrArg (!·) boxed

/-- Where null is welcome it is accepted for every class that is not primitive. -/
theorem Strategy.conditionalNull_accepts {site : Site} (welcome : site.WelcomesNull)
    {type : TypeExpr} {c : Class} (behind : type.rawType = some c) (boxed : c.isPrimitive = false)
    (store : Store) :
    (conditional .nullValue (Matcher.annotatedSiteIs Matcher.nullable)).accepts site type store
      = (true, store) := by
  obtain ⟨element, about, annotated⟩ := welcome
  have acceptable := acceptsNull_of_boxed behind boxed
  have verdict : Matcher.annotatedSiteIs Matcher.nullable site type = Verdict.of true := by
    simp only [Matcher.annotatedSiteIs, Matcher.projected, about]
    exact congrArg Verdict.of annotated
  simp only [accepts, acceptable, pure_bind, if_true, verdict]
  rfl

/--
At a site that welcomes null the minimal chain has a stub for every type whose class is
not primitive: a new empty object if the type is that of an option, a collection or a map,
and null if it is any other.
-/
theorem minimal_stub_where_null_welcome {site : Site} (welcome : site.WelcomesNull)
    {type : TypeExpr} {c : Class} (behind : type.rawType = some c) (boxed : c.isPrimitive = false)
    (before store : Store) (depth : Nat) :
    let asked := (Store.record (.requested type site) store).2
    ((Chain.minimal before).1.hostWithin (depth + 1)).request ⟨type, site⟩ store =
      match type.hollow? with
      | some hollow =>
          .ok (.object store.nextIdentity hollow.content) (Store.create hollow.content asked).2
      | none => .ok .null asked := by
  intro asked
  have search := Chain.firstAccepting_emptying Chain.emptying_empties
    (.conditional .nullValue (Matcher.annotatedSiteIs Matcher.nullable) ::
      (Chain.full before).1.strategies) ⟨type, site⟩ asked
  rw [← Chain.minimal_strategies] at search
  unfold TypeExpr.hollow?
  cases found : Hollow.standard.find? fun hollow => hollow.fits type with
  | some hollow =>
      rw [found] at search
      obtain ⟨strategy, empties, first⟩ := search
      have fits := List.find?_some found
      have made := empties.produces ((Chain.minimal before).1.hostWithin depth) site fits
      rw [Chain.request_of_found first, made]
      rfl
  | none =>
      rw [found] at search
      have first := search.trans (Chain.firstAccepting_of_accepts
        (Strategy.conditionalNull_accepts welcome behind boxed asked) _)
      have acceptable := Strategy.acceptsNull_of_boxed behind boxed
      rw [Chain.request_of_found first]
      simp only [Strategy.produce, acceptable, if_true]
      rfl

/-- The parameter of a greeting, which may be null. -/
def Site.ofNullableParameter : Site :=
  let name : ParameterDeclaration :=
    { name := "name", type := .plain Class.string, annotations := [⟨"javax.annotation.Nullable", []⟩] }
  let greet : MethodDeclaration :=
    { name := "greet", returnType := .plain Class.unit, parameters := [name] }
  .root (.testParameter (.method ⟨"Service", greet⟩) ⟨"Service::greet", 0, name⟩)

/-- For the parameter there is null in place of a text or an array, but an empty list. -/
theorem list_empty_where_null_welcome :
    let site := Site.ofNullableParameter
    let text : TypeExpr := .plain Class.string
    let array : TypeExpr := .plain Class.string.arrayOf
    let list : TypeExpr := .parameterized Class.vec [.plain Class.string]
    let stub (type : TypeExpr) :=
      ((Chain.minimal {}).1.hostWithin 1).request ⟨type, site⟩ (Chain.minimal {}).2
    site.WelcomesNull ∧
    (∃ after, stub text = .ok .null after) ∧
    (∃ after, stub array = .ok .null after) ∧
    ∃ identity after, stub list = .ok (.object identity (.list [])) after := by
  intro site text array list stub
  have welcome : site.WelcomesNull := ⟨_, rfl, by decide⟩
  refine ⟨welcome, ⟨_, minimal_stub_where_null_welcome welcome rfl rfl {} _ 0⟩,
    ⟨_, minimal_stub_where_null_welcome welcome rfl rfl {} _ 0⟩,
    ⟨_, _, minimal_stub_where_null_welcome welcome rfl rfl {} _ 0⟩⟩

end TestData
