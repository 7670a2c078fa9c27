import Mathlib.Data.List.Basic
import TestData.Proofs.Requests
import TestData.Strategy.Produce

namespace TestData

/-!
# The elements of collections, maps and arrays

A collection asks for its elements one after the other, a map in turn for a key and for its value,
an array for its components, each at a site directly below its own.  The content is built from all
the answers in their order, or not at all: the first element that fails is where the request ends.
-/

namespace Strategy

/-- The strategies that make collections, maps and arrays. -/
inductive HoldsElements : Strategy → Prop where
  | collection (c : Class) (build : List Value → Content) (size : Size) :
      HoldsElements (.collection c build size)
  | map (c : Class) (build : List (Value × Value) → Content) (size : Size) :
      HoldsElements (.map c build size)
  | array (size : Size) : HoldsElements (.array size)

/--
What a strategy asks for, to make a type at a site, and what it builds from the answers.  A class
by itself is for collections and maps that are to be empty.  An array is described by an array class,
or by a generic array whose component has a class behind it.
-/
inductive AsksFor (site : Site) (type : TypeExpr) :
    Strategy → List Request → (List Value → Content) → Prop where
  | emptyCollection {c raw : Class} {build : List Value → Content} {size : Size}
      (front : type.unwrap = some (.plain raw)) (named : (raw == c) = true)
      (empty : size.at site = 0) :
      AsksFor site type (.collection c build size) [] build
  | collection {c raw : Class} {build : List Value → Content} {size : Size} {element : TypeExpr}
      (front : type.unwrap = some (.parameterized raw [element])) (named : (raw == c) = true) :
      AsksFor site type (.collection c build size)
        (List.replicate (size.at site) ⟨element, .child (.typeArgument raw [element] 0) site⟩) build
  | emptyMap {c raw : Class} {build : List (Value × Value) → Content} {size : Size}
      (front : type.unwrap = some (.plain raw)) (named : (raw == c) = true)
      (empty : size.at site = 0) :
      AsksFor site type (.map c build size) [] fun values => build (pairUp values)
  | map {c raw : Class} {build : List (Value × Value) → Content} {size : Size}
      {key value : TypeExpr} (front : type.unwrap = some (.parameterized raw [key, value]))
      (named : (raw == c) = true) :
      AsksFor site type (.map c build size)
        (List.replicate (size.at site)
          [⟨key, .child (.typeArgument raw [key, value] 0) site⟩,
            ⟨value, .child (.typeArgument raw [key, value] 1) site⟩]).flatten
        fun values => build (pairUp values)
  | arrayClass {size : Size} {raw component : Class} (front : type.unwrap = some (.plain raw))
      (array : raw.kind = .array component) :
      AsksFor site type (.array size)
        (List.replicate (size.at site)
          ⟨.plain component, .child (.arrayElement (.plain component)) site⟩) .list
  | genericArray {size : Size} {component : TypeExpr} {behind : Class}
      (front : type.unwrap = some (.genericArray component))
      (bounded : component.rawType = some behind) :
      AsksFor site type (.array size)
        (List.replicate (size.at site) ⟨component, .child (.arrayElement component) site⟩) .list

variable {s : Strategy} {site : Site} {type : TypeExpr} {c raw : Class} {requests : List Request}
  {build : List Value → Content}

/-! ## Acceptance -/

theorem shape?_of_raw (front : type.unwrap = some (.plain raw)) (named : (raw == c) = true)
    (arity : Nat) : type.shape? c arity = some .raw := by
  unfold TypeExpr.shape?
  rw [front]
  exact if_pos named

theorem shape?_of_applied {arguments : List TypeExpr} {arity : Nat}
    (front : type.unwrap = some (.parameterized raw arguments)) (named : (raw == c) = true)
    (count : arguments.length = arity) :
    type.shape? c arity = some (.applied raw arguments) := by
  unfold TypeExpr.shape?
  rw [front]
  exact if_pos (Bool.and_eq_true_iff.mpr ⟨named, beq_iff_eq.mpr count⟩)

/-- A class by itself is accepted exactly if nothing is to be in it. -/
theorem acceptsShape_raw (front : type.unwrap = some (.plain raw)) (named : (raw == c) = true)
    (arity size : Nat) : acceptsShape type c arity size = decide (size = 0) := by
  unfold acceptsShape
  rw [shape?_of_raw front named]
  rfl

/-- The two ways to be accepted: by itself if nothing is to be in it, or with arguments. -/
theorem front_of_acceptsShape {arity size : Nat}
    (accepted : acceptsShape type c arity size = true) :
    (∃ raw, type.unwrap = some (.plain raw) ∧ (raw == c) = true ∧ size = 0) ∨
      ∃ raw arguments, type.unwrap = some (.parameterized raw arguments) ∧ (raw == c) = true ∧
        arguments.length = arity := by
  unfold acceptsShape TypeExpr.shape? at accepted
  cases front : type.unwrap with
  | none =>
      rw [front] at accepted
      cases accepted
  | some inner =>
      rw [front] at accepted
      cases inner with
      | plain raw =>
          cases named : raw == c with
          | true =>
              simp only [named, if_true] at accepted
              exact .inl ⟨raw, rfl, named, beq_iff_eq.mp accepted⟩
          | false =>
              simp only [named, Bool.false_eq_true, if_false] at accepted
      | parameterized raw arguments =>
          cases fits : raw == c && arguments.length == arity with
          | true =>
              rcases Bool.and_eq_true_iff.mp fits with ⟨named, count⟩
              exact .inr ⟨raw, arguments, rfl, named, beq_iff_eq.mp count⟩
          | false =>
              simp only [fits, Bool.false_eq_true, if_false] at accepted
      | wildcard | var | genericArray => cases accepted

theorem component?_of_arrayClass {component : Class} (front : type.unwrap = some (.plain raw))
    (array : raw.kind = .array component) : type.component? = some (.plain component) := by
  simp only [TypeExpr.component?, Class.component?, front, array, Option.map_some]

theorem component?_of_genericArray {component : TypeExpr} {behind : Class}
    (front : type.unwrap = some (.genericArray component))
    (bounded : component.rawType = some behind) : type.component? = some component := by
  simp only [TypeExpr.component?, front, bounded, Option.isSome_some, if_true]

/-- The two ways to be an array: by an array class, or over a component with a class behind it. -/
theorem front_of_component? {component : TypeExpr} (found : type.component? = some component) :
    (∃ raw element : Class, type.unwrap = some (.plain raw) ∧ raw.kind = .array element ∧
        component = .plain element) ∨
      ∃ behind, type.unwrap = some (.genericArray component) ∧
        component.rawType = some behind := by
  unfold TypeExpr.component? at found
  cases front : type.unwrap with
  | none =>
      rw [front] at found
      cases found
  | some inner =>
      rw [front] at found
      cases inner with
      | plain raw =>
          cases kind : raw.kind with
          | array element =>
              simp only [Class.component?, kind, Option.map_some, Option.some.injEq] at found
              exact .inl ⟨raw, element, rfl, kind, found.symm⟩
          | primitive | concrete | abstract | interface | enum =>
              simp only [Class.component?, kind, Option.map_none, reduceCtorEq] at found
      | genericArray inner =>
          cases bounded : inner.rawType with
          | some behind =>
              simp only [bounded, Option.isSome_some, if_true, Option.some.injEq] at found
              subst found
              exact .inr ⟨behind, rfl, bounded⟩
          | none => simp only [bounded, Option.isSome_none, Bool.false_eq_true, if_false,
              reduceCtorEq] at found
      | parameterized | wildcard | var => cases found

theorem accepts_of_asksFor (asks : AsksFor site type s requests build) :
    s.accepts site type = pure true := by
  cases asks with
  | emptyCollection front named empty | emptyMap front named empty =>
      rw [accepts, acceptsShape_raw front named, empty]
      rfl
  | @collection c raw _ _ element front named =>
      have shape : type.shape? c 1 = some (.applied raw [element]) :=
        shape?_of_applied front named rfl
      rw [accepts, acceptsShape, shape]
  | @map c raw _ _ key value front named =>
      have shape : type.shape? c 2 = some (.applied raw [key, value]) :=
        shape?_of_applied front named rfl
      rw [accepts, acceptsShape, shape]
  | arrayClass front array =>
      rw [accepts, component?_of_arrayClass front array]
      rfl
  | genericArray front bounded =>
      rw [accepts, component?_of_genericArray front bounded]
      rfl

/-- For what is accepted there is something to ask for. -/
theorem exists_asksFor_of_accepts (holds : s.HoldsElements) {store : Store}
    (accepted : (s.accepts site type store).1 = true) :
    ∃ requests build, AsksFor site type s requests build := by
  cases holds with
  | collection c build size =>
      rcases front_of_acceptsShape accepted with
        ⟨raw, front, named, empty⟩ | ⟨raw, arguments, front, named, count⟩
      · exact ⟨_, _, .emptyCollection front named empty⟩
      · rcases List.length_eq_one_iff.mp count with ⟨element, rfl⟩
        exact ⟨_, _, .collection front named⟩
  | map c build size =>
      rcases front_of_acceptsShape accepted with
        ⟨raw, front, named, empty⟩ | ⟨raw, arguments, front, named, count⟩
      · exact ⟨_, _, .emptyMap front named empty⟩
      · rcases List.length_eq_two.mp count with ⟨key, value, rfl⟩
        exact ⟨_, _, .map front named⟩
  | array size =>
      rcases Option.isSome_iff_exists.mp accepted with ⟨component, found⟩
      rcases front_of_component? found with ⟨raw, element, front, array, rfl⟩ | ⟨_, front, bounded⟩
      · exact ⟨_, _, .arrayClass front array⟩
      · exact ⟨_, _, .genericArray front bounded⟩

/-! ## Making -/

theorem produce_of_asksFor (asks : AsksFor site type s requests build) (host : Host) :
    s.produce host site type = (do
      let values ← host.requestAll requests
      Store.create (build values)) := by
  cases asks with
  | emptyCollection front named empty =>
      rw [produce, produceCollection, shape?_of_raw front named, empty]
      rfl
  | emptyMap front named empty =>
      rw [produce, produceMap, shape?_of_raw front named, empty]
      rfl
  | @collection c raw _ _ element front named =>
      have shape : type.shape? c 1 = some (.applied raw [element]) :=
        shape?_of_applied front named rfl
      rw [produce, produceCollection, shape, ← Host.times_request]
      rfl
  | @map c raw build _ key value front named =>
      have shape : type.shape? c 2 = some (.applied raw [key, value]) :=
        shape?_of_applied front named rfl
      have paired (requests : List Request) := bind_map_left pairUp (host.requestAll requests)
        fun pairs => Run.ofStep (Store.create (build pairs))
      rw [produce, produceMap, shape]
      apply Eq.trans _ (paired _)
      rw [← Host.times_requestBoth]
      rfl
  | arrayClass front array =>
      rw [produce, produceArray, component?_of_arrayClass front array, ← Host.times_request]
      rfl
  | genericArray front bounded =>
      rw [produce, produceArray, component?_of_genericArray front bounded, ← Host.times_request]
      rfl

variable {host : Host} {store after : Store} {value : Value} {failure : Failure}

theorem produce_ok_iff (asks : AsksFor site type s requests build) :
    s.produce host site type store = .ok value after ↔
      ∃ values between, host.GivesInTurn requests values store between ∧
        Store.create (build values) between = (value, after) := by
  rw [produce_of_asksFor asks]
  constructor
  · intro outcome
    cases answers : host.requestAll requests store with
    | error failure last =>
        rw [Run.bind_of_error answers] at outcome
        cases outcome
    | ok values between =>
        rw [Run.bind_of_ok answers] at outcome
        cases outcome
        exact ⟨values, between, Host.requestAll_ok_iff.mp answers, rfl⟩
  · rintro ⟨values, between, given, created⟩
    rw [Run.bind_of_ok (Host.requestAll_of_given given)]
    cases created
    rfl

theorem produce_error_iff (asks : AsksFor site type s requests build) :
    s.produce host site type store = .error failure after ↔
      host.FailsInTurn requests store failure after := by
  rw [produce_of_asksFor asks]
  constructor
  · intro outcome
    cases answers : host.requestAll requests store with
    | error cause last =>
        rw [Run.bind_of_error answers] at outcome
        cases outcome
        exact Host.requestAll_error_iff.mp answers
    | ok values between =>
        rw [Run.bind_of_ok answers] at outcome
        cases outcome
  · intro fails
    exact Run.bind_of_error (Host.requestAll_error_iff.mpr fails)

/--
A strategy for collections, maps or arrays accepts the types for which it has something to ask for.
It asks for that, one after the other, and builds its content from the answers if all are given; if
not, the first request that fails is the last, and what it leaves behind is left.  A class by itself
is accepted exactly if nothing is to be in it.
-/
theorem elements_requested_in_turn (site : Site) (type : TypeExpr) :
    (∀ s : Strategy, s.HoldsElements → ∀ store,
      (s.accepts site type store).2 = store ∧
      ((s.accepts site type store).1 = true ↔
        ∃ requests build, AsksFor site type s requests build)) ∧
    (∀ (s : Strategy) requests build, AsksFor site type s requests build →
      ∀ (host : Host) store,
        (∀ value after, s.produce host site type store = .ok value after ↔
          ∃ values between, host.GivesInTurn requests values store between ∧
            Store.create (build values) between = (value, after)) ∧
        ∀ failure after, s.produce host site type store = .error failure after ↔
          host.FailsInTurn requests store failure after) ∧
    ∀ raw c : Class, type.unwrap = some (.plain raw) → (raw == c) = true → ∀ (size : Size) store,
      (∀ build, (Strategy.collection c build size).accepts site type store =
        (decide (size.at site = 0), store)) ∧
      ∀ build, (Strategy.map c build size).accepts site type store =
        (decide (size.at site = 0), store) := by
  refine ⟨?accepted, ?made, ?byItself⟩
  case accepted =>
    intro s holds store
    constructor
    · cases holds <;> rfl
    · constructor
      · exact exists_asksFor_of_accepts holds
      · rintro ⟨requests, build, asks⟩
        rw [accepts_of_asksFor asks]
        rfl
  case made =>
    intro s requests build asks host store
    exact ⟨fun value after => produce_ok_iff asks, fun failure after => produce_error_iff asks⟩
  case byItself =>
    intro raw c front named size store
    constructor
    · intro build
      rw [accepts, acceptsShape_raw front named]
      rfl
    · intro build
      rw [accepts, acceptsShape_raw front named]
      rfl

/-- A host that makes three objects and refuses whatever is wanted then. -/
def ofThree : Host where
  resolve wanted := do
    if (← get).nextIdentity < 3 then
      return some (← Store.create (.text wanted.type.display))
    else return none
  length := 1
  depth := 0

/--
There are enough objects for two elements, in a list or in an array of either description, and not
for two keys with their values.
-/
theorem two_letters_listed :
    let letter : TypeExpr := .plain (.named "Letter")
    let stamp : TypeExpr := .plain (.named "Stamp")
    let letters : TypeExpr := .parameterized Class.vec [letter]
    let stamped : TypeExpr := .parameterized Class.hashMap [letter, stamp]
    let list : Strategy := .collection Class.vec .list (.fixed 2)
    let table : Strategy := .map Class.hashMap .entries (.fixed 2)
    let array : Strategy := .array (.fixed 2)
    (list.accepts .unknown letters {}).1 = true ∧
    list.produce ofThree .unknown letters {} =
      .ok (.object 2 (.list [.object 0 (.text "Letter"), .object 1 (.text "Letter")]))
        { nextIdentity := 3 } ∧
    table.produce ofThree .unknown stamped {} =
      .error (.error (.unresolvable stamp
        (.child (.typeArgument Class.hashMap [letter, stamp] 1) .unknown))) { nextIdentity := 3 } ∧
    (list.accepts .unknown (.plain Class.vec) {}).1 = false ∧
    array.produce ofThree .unknown (.plain (Class.named "Letter").arrayOf) {} =
      .ok (.object 2 (.list [.object 0 (.text "Letter"), .object 1 (.text "Letter")]))
        { nextIdentity := 3 } ∧
    array.produce ofThree .unknown (.genericArray letters) {} =
      .ok (.object 2 (.list [.object 0 (.text letters.display), .object 1 (.text letters.display)]))
        { nextIdentity := 3 } ∧
    (array.accepts .unknown (.genericArray (.genericArray letter)) {}).1 = false := by
  intro letter stamp letters stamped list table array
  rcases elements_requested_in_turn .unknown letters with ⟨accepted, made, -⟩
  have asks : AsksFor .unknown letters list _ _ := .collection rfl (by decide)
  have asksBoth : AsksFor .unknown stamped table _ _ := .map rfl (by decide)
  have madeBoth := (elements_requested_in_turn .unknown stamped).2.1 table _ _ asksBoth ofThree {}
  have byItself := (elements_requested_in_turn .unknown (.plain Class.vec)).2.2 Class.vec Class.vec
    rfl (by decide) (.fixed 2) {}
  have asksClass : AsksFor .unknown (.plain (Class.named "Letter").arrayOf) array _ _ :=
    .arrayClass rfl rfl
  have asksGeneric : AsksFor .unknown (.genericArray letters) array _ _ := .genericArray rfl rfl
  refine ⟨?_, ?_, ?_, ?_, ?_, ?_, ?_⟩
  · exact (accepted list (.collection ..) {}).2.mpr ⟨_, _, asks⟩
  · apply ((made list _ _ asks ofThree {}).1 _ _).mpr
    exact ⟨_, _, .next rfl (.next rfl (.none _)), rfl⟩
  · apply (madeBoth.2 _ _).mpr
    exact ⟨[_, _, _], _, [], _, _, rfl, .next rfl (.next rfl (.next rfl (.none _))), rfl⟩
  · rw [byItself.1]
    rfl
  · apply (((elements_requested_in_turn .unknown _).2.1 array _ _ asksClass ofThree {}).1 _ _).mpr
    exact ⟨_, _, .next rfl (.next rfl (.none _)), rfl⟩
  · apply (((elements_requested_in_turn .unknown _).2.1 array _ _ asksGeneric ofThree {}).1 _ _).mpr
    exact ⟨_, _, .next rfl (.next rfl (.none _)), rfl⟩
  · rfl

end Strategy
end TestData
