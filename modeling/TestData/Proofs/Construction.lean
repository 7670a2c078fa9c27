import TestData.Proofs.Acceptance
import TestData.Proofs.Containers
import TestData.Proofs.Requests
import TestData.Proofs.Wildcards

namespace TestData

/-!
# How the full chain builds classes

A class that the full chain does not serve by name is built by its only factory method.
Without one, or with several, a concrete class is built by its only constructor with
parameters, or else by its only one without; any other class is refused.  The arguments
are requested in the order of the parameters, and the first of them that fails is where
the request ends.
-/

/-! ## Sole candidates -/

/-- The element of a list that has no other. -/
def sole? {α : Type} : List α → Option α
  | [only] => some only
  | _ => none

/-- An element of a list is of a kind, and none at another place is. -/
def IsSole {α : Type} (kind : α → Prop) (list : List α) (only : α) : Prop :=
  ∃ front behind, list = front ++ only :: behind ∧ kind only ∧
    ∀ other ∈ front ++ behind, ¬ kind other

theorem sole?_eq_some_iff {α : Type} {list : List α} {only : α} :
    sole? list = some only ↔ list = [only] := by
  rcases list with _ | ⟨first, _ | ⟨second, rest⟩⟩ <;> simp [sole?]

/-- Those of a kind are filtered out by a test for the kind. -/
theorem sole?_filter_eq_some_iff {α : Type} {kind : α → Prop} {test : α → Bool}
    (tests : ∀ candidate, test candidate = true ↔ kind candidate) {list : List α} {only : α} :
    sole? (list.filter test) = some only ↔ IsSole kind list only := by
  rw [sole?_eq_some_iff, List.filter_eq_cons_iff]
  constructor
  · rintro ⟨front, behind, split, before, found, after⟩
    refine ⟨front, behind, split, (tests only).mp found, ?_⟩
    intro other member
    rw [← tests other]
    rcases List.mem_append.mp member with early | late
    · exact before other early
    · exact List.filter_eq_nil_iff.mp after other late
  · rintro ⟨front, behind, split, found, others⟩
    rcases List.forall_mem_append.mp others with ⟨before, after⟩
    refine ⟨front, behind, split, ?_, (tests only).mpr found, ?_⟩
    · exact fun other member => mt (tests other).mp (before other member)
    · exact List.filter_eq_nil_iff.mpr fun other member => mt (tests other).mp (after other member)

/-- What finds the sole element finds nothing exactly if there is none. -/
theorem eq_none_iff_of_finds {α : Type} {found : Option α} {sole : α → Prop}
    (finds : ∀ {only}, found = some only ↔ sole only) : found = none ↔ ∀ only, ¬ sole only := by
  simp only [Option.eq_none_iff_forall_ne_some, ne_eq, finds]

/-- No judgement passes a probe. -/
def Matcher.Silent {α : Type} (matcher : Matcher α) : Prop :=
  ∀ site candidate, (matcher site candidate).probes = []

namespace Selector

variable {α : Type} {matcher : Matcher α}

theorem onlyMatch_leaves (silent : matcher.Silent) (site : Site) (found : Option α)
    (candidates : List α) (store : Store) :
    (onlyMatch matcher site found candidates store).2 = store := by
  have heeded (candidate : α) :
      Store.heed (matcher site candidate) = pure (matcher site candidate).holds := by
    funext store
    simp [Store.heed, silent site candidate, Step.pure_apply]
  induction candidates generalizing found with
  | nil => cases found <;> rfl
  | cons candidate rest ih =>
      cases found with
      | none =>
          simp only [onlyMatch, heeded, pure_bind]
          split
          · exact ih (some candidate)
          · exact ih none
      | some other =>
          simp only [onlyMatch, heeded, pure_bind]
          split
          · rfl
          · exact ih (some other)

/-- Without probes, all that selecting does is to find the sole candidate that matches. -/
theorem selectFrom_unique (silent : matcher.Silent) (site : Site) (candidates : List α) :
    (Selector.unique matcher).selectFrom site candidates =
      pure (sole? (candidates.filter fun candidate => (matcher site candidate).holds)) := by
  funext store
  have present : (candidates.map some).filterMap id = candidates := by simp
  unfold selectFrom select
  rw [present]
  refine Prod.ext ?_ (onlyMatch_leaves silent site none candidates store)
  rw [onlyMatch_answer]
  rfl

/-- Where nothing was settled on, the sole candidate that matches is settled on. -/
theorem settle_unique (silent : matcher.Silent) {remembered : Store → Option (Option α)}
    {keep : Option α → Store → Store} {store : Store} (unsettled : remembered store = none)
    (event : Event) (site : Site) (candidates : List α) :
    let picked := sole? (candidates.filter fun candidate => (matcher site candidate).holds)
    Store.settle remembered keep (do
        Store.record event
        (Selector.unique matcher).selectFrom site candidates) store =
      (picked, keep picked (Store.record event store).2) := by
  rw [Store.settle_of_unknown unsettled, selectFrom_unique silent]
  rfl

end Selector

/-! ## Executables that build -/

namespace Executable

/-- What the variables stand for when the executable is to build an instance of a type. -/
def bindings (maker : Executable) (depth : Nat) (type : TypeExpr) : Bounded Bindings :=
  match maker with
  | .constructor _ => Bindings.ofType depth type
  | .method m => m.fittingBindings depth type

/-- What a site below that of the instance is for. -/
def siteKind : Executable → Parameter → SiteKind
  | .constructor k, p => .constructorParameter k p
  | .method m, p => .methodParameter m p

/-- One request for each parameter, in the order in which they are declared. -/
def requests (maker : Executable) (bindings : Bindings) (site : Site) : List Request :=
  maker.parameters.map fun p => ⟨bindings.resolve p.type, .child (maker.siteKind p) site⟩

/-- What calling the executable comes to; there is no instance yet. -/
def call : Executable → List Value → Reply
  | .constructor k, arguments => k.call arguments
  | .method m, arguments => m.call none arguments

/-- Requests the arguments and calls the executable. -/
def build (maker : Executable) (host : Host) (wanted : Request) : Run Value := do
  let bindings ← Run.ofBounded (maker.bindings host.depth wanted.type)
  let arguments ← host.requestArguments bindings (maker.parameterSite wanted.site) maker.parameters
  Strategy.called wanted.site wanted.type maker.display (maker.call arguments)

theorem parameterSite_of_mem {maker : Executable} {p : Parameter} (member : p ∈ maker.parameters)
    (site : Site) : maker.parameterSite site p = .ok (.child (maker.siteKind p) site) := by
  cases maker with
  | constructor k => exact Site.constructorParameter_of_mem member site
  | method m => exact Site.methodParameter_of_mem member site

end Executable

namespace Host

variable {host : Host} {bindings : Bindings} {siteOf : Parameter → Except SiteError Site}
  {kindOf : Parameter → SiteKind} {site : Site}

/-- The recursion over the parameters is the one over the requests made for them. -/
theorem requestArguments_eq {parameters : List Parameter}
    (made : ∀ p ∈ parameters, siteOf p = .ok (.child (kindOf p) site)) :
    host.requestArguments bindings siteOf parameters =
      host.requestAll
        (parameters.map fun p => ⟨bindings.resolve p.type, .child (kindOf p) site⟩) := by
  induction parameters with
  | nil => rfl
  | cons p rest ih =>
      obtain ⟨here, behind⟩ := List.forall_mem_cons.mp made
      rw [requestArguments, here, List.map_cons, requestAll_cons, ih behind]
      rfl

end Host

/--
How a request for an instance can end, from the store in which its maker has been
selected: there is no maker; its variables cannot be bound within the depth; the first
argument that fails is the failure, and those behind it are not requested; it is called
and fails; or it is called and gives the instance.
-/
inductive Builds (host : Host) (wanted : Request) (started : Store) :
    Option Executable → EStateM.Result Failure Store Value → Prop where
  | refused :
      Builds host wanted started none
        (.error (.error (.unresolvable wanted.type wanted.site)) started)
  | unbound {maker : Executable} {exhausted : Exhausted}
      (deep : maker.bindings host.depth wanted.type = .error exhausted) :
      Builds host wanted started (some maker) (.error .exhausted started)
  | argumentFails {maker : Executable} {bindings : Bindings} {front rest : List Request}
      {failing : Request} {values : List Value} {between after : Store} {failure : Failure}
      (bound : maker.bindings host.depth wanted.type = .ok bindings)
      (split : maker.requests bindings wanted.site = front ++ failing :: rest)
      (given : host.GivesInTurn front values started between)
      (failed : host.request failing between = .error failure after) :
      Builds host wanted started (some maker) (.error failure after)
  | callFails {maker : Executable} {bindings : Bindings} {arguments : List Value}
      {between after : Store} {message : String}
      (bound : maker.bindings host.depth wanted.type = .ok bindings)
      (given : host.GivesInTurn (maker.requests bindings wanted.site) arguments started between)
      (called : Store.carryOut (maker.call arguments) between = (.error message, after)) :
      Builds host wanted started (some maker)
        (.error (.error (.produce wanted.type wanted.site
          (maker.display ++ " failed: " ++ message))) after)
  | built {maker : Executable} {bindings : Bindings} {arguments : List Value}
      {between after : Store} {value : Value}
      (bound : maker.bindings host.depth wanted.type = .ok bindings)
      (given : host.GivesInTurn (maker.requests bindings wanted.site) arguments started between)
      (called : Store.carryOut (maker.call arguments) between = (.ok value, after)) :
      Builds host wanted started (some maker) (.ok value after)

namespace Strategy

variable {reply : Reply} {store after : Store}

theorem called_of_returned {value : Value}
    (carried : Store.carryOut reply store = (.ok value, after)) (site : Site) (type : TypeExpr)
    (member : String) :
    called site type member reply store = .ok value after := by
  have step : Run.ofStep (Store.carryOut reply) store = .ok (.ok value) after := by
    rw [Run.ofStep_apply, carried]
  exact Run.bind_of_ok step

theorem called_of_failed {message : String}
    (carried : Store.carryOut reply store = (.error message, after)) (site : Site) (type : TypeExpr)
    (member : String) :
    called site type member reply store =
      .error (.error (.produce type site (member ++ " failed: " ++ message))) after := by
  have step : Run.ofStep (Store.carryOut reply) store = .ok (.error message) after := by
    rw [Run.ofStep_apply, carried]
  exact Run.bind_of_ok step

end Strategy

theorem Executable.builds (maker : Executable) (host : Host) (wanted : Request) (started : Store) :
    Builds host wanted started (some maker) (maker.build host wanted started) := by
  unfold build
  cases bound : maker.bindings host.depth wanted.type with
  | error exhausted => exact .unbound bound
  | ok bindings =>
      have inTurn : host.requestArguments bindings (maker.parameterSite wanted.site)
          maker.parameters = host.requestAll (maker.requests bindings wanted.site) :=
        Host.requestArguments_eq fun p member => maker.parameterSite_of_mem member wanted.site
      show Builds host wanted started _ ((host.requestArguments bindings _ _ >>= _) started)
      rw [inTurn]
      cases outcome : host.requestAll (maker.requests bindings wanted.site) started with
      | error failure after =>
          obtain ⟨front, failing, rest, values, between, split, given, failed⟩ :=
            Host.requestAll_error_iff.mp outcome
          rw [Run.bind_of_error outcome]
          exact .argumentFails bound split given failed
      | ok arguments between =>
          have given := Host.requestAll_ok_iff.mp outcome
          rw [Run.bind_of_ok outcome]
          rcases called : Store.carryOut (maker.call arguments) between with
            ⟨message | value, after⟩
          · rw [Strategy.called_of_failed called]
            exact .callFails bound given called
          · rw [Strategy.called_of_returned called]
            exact .built bound given called

/-! ## Selecting the maker -/

/-- Members may have been selected, but that is all that happened. -/
def Store.SelectsOnly (store started : Store) : Prop :=
  started = { store with
    constructors := started.constructors
    methods := started.methods
    trace := started.trace }

namespace Store.SelectsOnly

theorem refl (store : Store) : store.SelectsOnly store := rfl

theorem trans {store between started : Store} (first : store.SelectsOnly between)
    (second : between.SelectsOnly started) : store.SelectsOnly started := by
  unfold SelectsOnly at first second ⊢
  rw [second, first]

theorem record (event : Event) (store : Store) : store.SelectsOnly (Store.record event store).2 :=
  rfl

end Store.SelectsOnly

/--
A method that can take the place of a constructor: it needs no instance, it is not private, and
instances of the class are of the class that it is declared to return.
-/
structure Method.Makes (m : Method) (c : Class) : Prop where
  static : m.isStatic = true
  accessible : m.visibility ≠ .hidden
  returns : ∃ returned, m.returnType.rawType = some returned ∧ returned.isAssignableFrom c = true

theorem Constructor.isDefault_iff (k : Constructor) : k.isDefault = true ↔ k.parameters = [] := by
  rw [isDefault, List.isEmpty_iff, ← List.length_eq_zero_iff, ← List.length_eq_zero_iff, parameters,
    length_ownedBy]

/-- A constructor with parameters that is not private. -/
structure Constructor.TakesSome (k : Constructor) : Prop where
  accessible : k.visibility ≠ .hidden
  parameters : k.parameters ≠ []

/-- A constructor without parameters that is not private. -/
structure Constructor.TakesNone (k : Constructor) : Prop where
  accessible : k.visibility ≠ .hidden
  parameters : k.parameters = []

namespace Class

/--
What instances of a class are to be built by: its only factory method; else, if it is concrete, its
only constructor with parameters, and else its only one without; and in all other cases nothing.
-/
inductive MadeBy (c : Class) : Option Executable → Prop where
  | factoryMethod {m : Method} (only : IsSole (fun m => m.Makes c) c.methods m) :
      MadeBy c (some (.method m))
  | takingSome {k : Constructor} (noMethod : ∀ m, ¬ IsSole (fun m => m.Makes c) c.methods m)
      (concrete : c.kind = .concrete) (only : IsSole Constructor.TakesSome c.constructors k) :
      MadeBy c (some (.constructor k))
  | takingNone {k : Constructor} (noMethod : ∀ m, ¬ IsSole (fun m => m.Makes c) c.methods m)
      (concrete : c.kind = .concrete)
      (noLonger : ∀ k, ¬ IsSole Constructor.TakesSome c.constructors k)
      (only : IsSole Constructor.TakesNone c.constructors k) : MadeBy c (some (.constructor k))
  | unmade (noMethod : ∀ m, ¬ IsSole (fun m => m.Makes c) c.methods m)
      (noConstructor : c.kind = .concrete →
        (∀ k, ¬ IsSole Constructor.TakesSome c.constructors k) ∧
          ∀ k, ¬ IsSole Constructor.TakesNone c.constructors k) : MadeBy c none

/-- The constructors with parameters that may be called. -/
def nonDefaultConstructors (c : Class) : List Constructor :=
  c.usableConstructors.filter fun k => !k.isDefault

/-- The constructors without parameters that may be called. -/
def defaultConstructors (c : Class) : List Constructor :=
  c.usableConstructors.filter fun k => k.isDefault

/-- The executable that instances are built by, if there is one. -/
def maker? (c : Class) : Option Executable :=
  ((sole? c.factoryMethods).map .method).or <|
    match c.kind with
    | .concrete =>
        ((sole? c.nonDefaultConstructors).map .constructor).or
          ((sole? c.defaultConstructors).map .constructor)
    | _ => none

theorem sole_factoryMethods_iff {c : Class} {m : Method} :
    sole? c.factoryMethods = some m ↔ IsSole (fun m => m.Makes c) c.methods m := by
  refine sole?_filter_eq_some_iff fun m => ?_
  rw [Bool.and_eq_true, Bool.and_eq_true, bne_iff_ne, Option.any_eq_true]
  exact ⟨fun ⟨⟨static, accessible⟩, returns⟩ => ⟨static, accessible, returns⟩,
    fun makes => ⟨⟨makes.static, makes.accessible⟩, makes.returns⟩⟩

theorem sole_nonDefaultConstructors_iff {c : Class} {k : Constructor} :
    sole? c.nonDefaultConstructors = some k ↔ IsSole Constructor.TakesSome c.constructors k := by
  rw [nonDefaultConstructors, usableConstructors, List.filter_filter]
  refine sole?_filter_eq_some_iff fun k => ?_
  rw [Bool.and_eq_true, bne_iff_ne, Bool.not_eq_true', Bool.eq_false_iff, ne_eq, k.isDefault_iff]
  exact ⟨fun ⟨parameters, accessible⟩ => ⟨accessible, parameters⟩,
    fun takes => ⟨takes.parameters, takes.accessible⟩⟩

theorem sole_defaultConstructors_iff {c : Class} {k : Constructor} :
    sole? c.defaultConstructors = some k ↔ IsSole Constructor.TakesNone c.constructors k := by
  rw [defaultConstructors, usableConstructors, List.filter_filter]
  refine sole?_filter_eq_some_iff fun k => ?_
  rw [Bool.and_eq_true, bne_iff_ne, k.isDefault_iff]
  exact ⟨fun ⟨parameters, accessible⟩ => ⟨accessible, parameters⟩,
    fun takes => ⟨takes.parameters, takes.accessible⟩⟩

theorem madeBy_maker? (c : Class) : c.MadeBy c.maker? := by
  unfold maker?
  cases methods : sole? c.factoryMethods with
  | some m => exact .factoryMethod (sole_factoryMethods_iff.mp methods)
  | none =>
      have noMethod := (eq_none_iff_of_finds sole_factoryMethods_iff).mp methods
      cases kind : c.kind with
      | concrete =>
          cases longer : sole? c.nonDefaultConstructors with
          | some k => exact .takingSome noMethod kind (sole_nonDefaultConstructors_iff.mp longer)
          | none =>
              have noLonger := (eq_none_iff_of_finds sole_nonDefaultConstructors_iff).mp longer
              cases shorter : sole? c.defaultConstructors with
              | some k =>
                  exact .takingNone noMethod kind noLonger (sole_defaultConstructors_iff.mp shorter)
              | none =>
                  have noShorter := (eq_none_iff_of_finds sole_defaultConstructors_iff).mp shorter
                  exact .unmade noMethod fun _ => ⟨noLonger, noShorter⟩
      | primitive | abstract | interface | enum | array =>
          refine .unmade noMethod fun concrete => ?_
          rw [kind] at concrete
          cases concrete

/-- The members of a class leave no choice of what its instances are made by. -/
theorem madeBy_iff {c : Class} {maker : Option Executable} :
    c.MadeBy maker ↔ c.maker? = maker := by
  constructor
  · intro made
    unfold maker?
    cases made with
    | factoryMethod only => rw [sole_factoryMethods_iff.mpr only]; rfl
    | takingSome noMethod concrete only =>
        rw [(eq_none_iff_of_finds sole_factoryMethods_iff).mpr noMethod, concrete,
          sole_nonDefaultConstructors_iff.mpr only]
        rfl
    | takingNone noMethod concrete noLonger only =>
        rw [(eq_none_iff_of_finds sole_factoryMethods_iff).mpr noMethod, concrete,
          (eq_none_iff_of_finds sole_nonDefaultConstructors_iff).mpr noLonger,
          sole_defaultConstructors_iff.mpr only]
        rfl
    | unmade noMethod noConstructor =>
        rw [(eq_none_iff_of_finds sole_factoryMethods_iff).mpr noMethod]
        cases kind : c.kind with
        | concrete =>
            rcases noConstructor kind with ⟨noLonger, noShorter⟩
            rw [(eq_none_iff_of_finds sole_nonDefaultConstructors_iff).mpr noLonger,
              (eq_none_iff_of_finds sole_defaultConstructors_iff).mpr noShorter]
            rfl
        | primitive | abstract | interface | enum | array => rfl
  · rintro rfl
    exact c.madeBy_maker?

/-- A class that is declared with members: concrete, or abstract and no interface. -/
def Regular (c : Class) : Prop :=
  c.kind = .concrete ∨ c.kind = .abstract

variable {c : Class}

theorem Regular.isManufacturable (regular : c.Regular) : c.isManufacturable = true := by
  rcases regular with kind | kind <;>
    simp only [Class.isManufacturable, isPrimitive, isEnum, isInterface, kind] <;> rfl

theorem Regular.isPrimitive (regular : c.Regular) : c.isPrimitive = false := by
  rcases regular with kind | kind <;> simp only [Class.isPrimitive, kind]

theorem Regular.isEnum (regular : c.Regular) : c.isEnum = false := by
  rcases regular with kind | kind <;> simp only [Class.isEnum, kind]

theorem Regular.component? (regular : c.Regular) : c.component? = none := by
  rcases regular with kind | kind <;> simp only [Class.component?, kind]

end Class

/-- The class has another name than those that the full chain serves by name. -/
def Class.Unlisted (c : Class) : Prop :=
  ∀ d ∈ Chain.servedByName ++ Class.containers, c.name ≠ d.name

instance (c : Class) : Decidable c.Unlisted :=
  inferInstanceAs (Decidable (∀ d ∈ Chain.servedByName ++ Class.containers, c.name ≠ d.name))

namespace Class.Unlisted

variable {c : Class} {type : TypeExpr}

theorem noContainer (unlisted : c.Unlisted) : c.NoContainer :=
  fun d member => unlisted d (List.mem_append_right _ member)

/-- Only a wildcard without a bound has a class that is not in front of it: the top class. -/
theorem isOf (unlisted : c.Unlisted) (raw : type.rawType = some c) : type.IsOf c := by
  induction type using TypeExpr.bound_induction with
  | bounded found ih =>
      rw [TypeExpr.rawType_wildcard, found] at raw
      unfold TypeExpr.IsOf
      rw [TypeExpr.unwrap_wildcard, found]
      exact ih raw
  | unbounded none =>
      rw [TypeExpr.rawType_wildcard, none] at raw
      cases raw
      exact absurd rfl (unlisted Class.object (by simp [Chain.servedByName]))
  | @other type plain =>
      cases type with
      | plain d =>
          cases raw
          exact .inl rfl
      | parameterized d arguments =>
          cases raw
          exact .inr ⟨arguments, rfl⟩
      | wildcard => cases plain
      | var | genericArray => cases raw

theorem unserved (unlisted : c.Unlisted) (raw : type.rawType = some c) : Chain.Unserved c type where
  unknown known := by
    obtain ⟨d, member, same⟩ := List.mem_map.mp known
    exact unlisted d (List.mem_append_left _ member) same.symm
  front := unlisted.isOf raw

end Class.Unlisted

namespace Strategy

variable {c : Class} {type : TypeExpr} {cell : Cell} {site : Site} {store : Store}

/-- Where nothing has been settled yet, the sole factory method is settled on. -/
theorem chosenMethod_unsettled (raw : type.rawType = some c) (able : c.isManufacturable = true)
    (unsettled : store.methods.find? (cell, c.name) = none) (site : Site) :
    ∃ after, chosenMethod cell (.unique Matcher.any) site type store =
        (sole? c.factoryMethods, after) ∧ store.SelectsOnly after ∧
      after.constructors = store.constructors := by
  unfold chosenMethod manufacturedClass?
  rw [raw, Option.filter_some, able, Bool.true_and]
  cases none : c.methods.isEmpty with
  | true =>
      have methods : c.factoryMethods = [] := by
        rw [Class.factoryMethods, List.isEmpty_iff.mp none, List.filter_nil]
      rw [methods]
      exact ⟨store, rfl, .refl store, rfl⟩
  | false =>
      -- The selector matches everything, so nothing is filtered out.
      have every :
          (c.factoryMethods.filter fun m => (Matcher.any site m).holds) = c.factoryMethods :=
        List.filter_eq_self.mpr fun _ _ => rfl
      rw [Bool.not_false, if_pos rfl]
      dsimp only
      rw [Selector.settle_unique (fun _ _ => rfl) unsettled, every]
      exact ⟨_, rfl, rfl, rfl⟩

/-- Where nothing has been settled yet, the sole constructor that matches is settled on. -/
theorem chosenConstructor_unsettled {matcher : Matcher Constructor} (silent : matcher.Silent)
    (raw : type.rawType = some c) (able : c.isInstantiable = true)
    (unsettled : store.constructors.find? (cell, c.name) = none) (site : Site) :
    ∃ after, chosenConstructor cell (.unique matcher) site type store =
        (sole? (c.usableConstructors.filter fun k => (matcher site k).holds), after) ∧
      store.SelectsOnly after ∧
      ∀ other ≠ cell, ∀ name, after.constructors.find? (other, name) =
        store.constructors.find? (other, name) := by
  unfold chosenConstructor constructedClass?
  rw [raw, Option.filter_some, able, Bool.true_and]
  cases none : c.constructors.isEmpty with
  | true =>
      have constructors : c.usableConstructors = [] := by
        rw [Class.usableConstructors, List.isEmpty_iff.mp none, List.filter_nil]
      rw [constructors]
      exact ⟨store, rfl, .refl store, fun _ _ _ => rfl⟩
  | false =>
      rw [Bool.not_false, if_pos rfl]
      dsimp only
      rw [Selector.settle_unique silent unsettled]
      refine ⟨_, rfl, rfl, fun other different name => ?_⟩
      exact Table.find?_insert_of_ne _ _ fun same => different (congrArg Prod.fst same)

theorem produceByConstructor_of_chosen {selector : Selector Constructor} {k : Constructor}
    {chose : Store} (chosen : chosenConstructor cell selector site type store = (some k, chose))
    (host : Host) :
    produceByConstructor host cell selector site type store =
      (Executable.constructor k).build host ⟨type, site⟩ chose := by
  have step :
      Run.ofStep (chosenConstructor cell selector site type) store = .ok (some k) chose := by
    rw [Run.ofStep_apply, chosen]
  exact Run.bind_of_ok step

end Strategy

namespace Chain

variable {c : Class} {type : TypeExpr} {wanted : Request} {store after : Store}
  {strategy : Strategy} {strategies rest : List Strategy}

/-- The search selects the maker and ends at a strategy that builds by it, or there is none. -/
def SettlesOn (strategies : List Strategy) (wanted : Request) (store : Store)
    (maker? : Option Executable) : Prop :=
  ∃ accepted, store.SelectsOnly accepted ∧
    match maker? with
    | none => firstAccepting strategies wanted store = (none, accepted)
    | some maker => ∃ strategy, firstAccepting strategies wanted store = (some strategy, accepted) ∧
        ∀ host, strategy.produce host wanted.site wanted.type accepted =
          maker.build host wanted accepted

/-- What a strategy picks comes before what is found behind it. -/
theorem settlesOn_cons {picked found : Option Executable}
    (accepts : strategy.accepts wanted.site wanted.type store = (picked.isSome, after))
    (selects : store.SelectsOnly after)
    (builds : ∀ maker, picked = some maker → ∀ host,
      strategy.produce host wanted.site wanted.type after = maker.build host wanted after)
    (behind : SettlesOn rest wanted after found) :
    SettlesOn (strategy :: rest) wanted store (picked.or found) := by
  cases picked with
  | some maker =>
      exact ⟨after, selects, strategy, firstAccepting_of_accepts accepts rest, builds maker rfl⟩
  | none =>
      obtain ⟨accepted, later, ends⟩ := behind
      refine ⟨accepted, selects.trans later, ?_⟩
      rwa [firstAccepting_of_declines accepts rest]

theorem settlesOn_method {cell : Cell} {found : Option Executable}
    (raw : wanted.type.rawType = some c) (able : c.isManufacturable = true)
    (unsettled : store.methods.find? (cell, c.name) = none)
    (behind : ∀ after, store.SelectsOnly after → after.constructors = store.constructors →
      SettlesOn rest wanted after found) :
    SettlesOn (.factoryMethod cell (.unique Matcher.any) :: rest) wanted store
      (((sole? c.factoryMethods).map .method).or found) := by
  obtain ⟨after, chosen, selects, same⟩ :=
    Strategy.chosenMethod_unsettled raw able unsettled wanted.site
  refine settlesOn_cons ?_ selects ?_ (behind after selects same)
  · simp [Strategy.accepts, bind, StateT.bind, chosen, Step.pure_apply]
  · intro maker picked host
    obtain ⟨m, only, rfl⟩ := Option.map_eq_some_iff.mp picked
    rw [only] at chosen
    have again := Strategy.chosenMethod_settled chosen ⟨rfl, rfl, rfl⟩ wanted.site
    exact Strategy.produceByMethod_of_chosen again

theorem settlesOn_constructor {cell : Cell} {matcher : Matcher Constructor}
    {found : Option Executable} (silent : matcher.Silent) (raw : wanted.type.rawType = some c)
    (able : c.isInstantiable = true)
    (unsettled : store.constructors.find? (cell, c.name) = none)
    (behind : ∀ after, store.SelectsOnly after →
      (∀ other ≠ cell, ∀ name, after.constructors.find? (other, name) =
        store.constructors.find? (other, name)) → SettlesOn rest wanted after found) :
    SettlesOn (.constructor cell (.unique matcher) :: rest) wanted store
      (((sole? (c.usableConstructors.filter fun k => (matcher wanted.site k).holds)).map
        .constructor).or found) := by
  obtain ⟨after, chosen, selects, others⟩ :=
    Strategy.chosenConstructor_unsettled silent raw able unsettled wanted.site
  refine settlesOn_cons ?_ selects ?_ (behind after selects others)
  · simp [Strategy.accepts, bind, StateT.bind, chosen, Step.pure_apply]
  · intro maker picked host
    obtain ⟨k, only, rfl⟩ := Option.map_eq_some_iff.mp picked
    rw [only] at chosen
    have again := Strategy.chosenConstructor_settled chosen ⟨rfl, rfl, rfl⟩ wanted.site
    exact Strategy.produceByConstructor_of_chosen again host

/-- What the search settles on is what the request is served by. -/
theorem SettlesOn.builds {chain : Chain} {maker? : Option Executable}
    (settles : SettlesOn chain.strategies wanted
      (Store.record (.requested wanted.type wanted.site) store).2 maker?) (depth : Nat) :
    ∃ started, store.SelectsOnly started ∧
      Builds (chain.hostWithin depth) wanted started maker?
        ((chain.hostWithin (depth + 1)).request wanted store) := by
  obtain ⟨started, selects, ends⟩ := settles
  refine ⟨started, (Store.SelectsOnly.record _ store).trans selects, ?_⟩
  cases maker? with
  | none =>
      rw [request_of_declined ends]
      exact .refused
  | some maker =>
      obtain ⟨strategy, found, produces⟩ := ends
      rw [request_of_found found, produces]
      exact maker.builds (chain.hostWithin depth) wanted started

/-! ## The full chain -/

theorem afterConstructors_decline (regular : c.Regular) (isOf : type.IsOf c)
    (other : c.NoContainer) (site : Site) :
    ∀ strategy ∈ afterConstructors, strategy.accepts site type = pure false := by
  have noOption := Strategy.acceptsOptional_of_ne isOf (other _ List.mem_cons_self) .present
  have noArray : type.component? = none := by
    rcases isOf with plain | ⟨arguments, applied⟩
    · simp only [TypeExpr.component?, plain, regular.component?, Option.map_none]
    · simp only [TypeExpr.component?, applied]
  have noDefault : type.defaultContent? = none := by
    rcases isOf with plain | ⟨arguments, applied⟩
    · simp only [TypeExpr.defaultContent?, plain, regular.isPrimitive, Bool.false_eq_true, if_false]
    · simp only [TypeExpr.defaultContent?, applied]
  have noConstant := Strategy.chosenConstant_of_not_enum isOf regular.isEnum .first site
  refine List.forall_mem_append.mpr ⟨fun strategy member => ?_, ?_⟩
  · exact Strategy.collections_decline isOf other 1 site strategy (List.mem_reverse.mp member)
  · simp [Strategy.accepts, noOption, noArray, noDefault, noConstant]

theorem settlesOn_passed {front : List Strategy} {found : Option Executable}
    (passed : ∀ strategy ∈ front, strategy.accepts wanted.site wanted.type = pure false)
    (behind : SettlesOn rest wanted store found) :
    SettlesOn (front ++ rest) wanted store found := by
  unfold SettlesOn
  rwa [firstAccepting_of_passed passed]

theorem settlesOn_none
    (passed : ∀ strategy ∈ strategies, strategy.accepts wanted.site wanted.type = pure false) :
    SettlesOn strategies wanted store none := by
  have ends : SettlesOn [] wanted store none := ⟨store, .refl store, rfl⟩
  have whole := settlesOn_passed passed ends
  rwa [List.append_nil] at whole

theorem settlesOn_constructors {before : Store} (regular : c.Regular) (unlisted : c.Unlisted)
    (raw : wanted.type.rawType = some c)
    (unsettled : ∀ cell : Cell, before.nextCell ≤ cell.number →
      store.constructors.find? (cell, c.name) = none) :
    SettlesOn (afterFactoryMethod before) wanted store
      (match c.kind with
      | .concrete =>
          ((sole? c.nonDefaultConstructors).map .constructor).or
            ((sole? c.defaultConstructors).map .constructor)
      | _ => none) := by
  have declined := afterConstructors_decline regular (unlisted.isOf raw) unlisted.noContainer
    wanted.site
  rw [afterFactoryMethod_eq]
  rcases regular with kind | kind
  · have able : c.isInstantiable = true := by
      simp [Class.isInstantiable, Class.isAbstract, Class.isPrimitive, Class.isEnum, Class.isArray,
        Class.component?, kind]
    rw [kind]
    refine settlesOn_constructor (fun _ _ => rfl) raw able (unsettled _ (Nat.le_succ _))
      fun after _ others => ?_
    -- The constructors with parameters were settled in a cell of their own.
    have fresh : after.constructors.find? (⟨before.nextCell⟩, c.name) = none := by
      rw [others _ (by simp)]
      exact unsettled _ (Nat.le_refl _)
    have silent : Matcher.isDefaultConstructor.Silent := fun _ _ => rfl
    have byDefault := settlesOn_constructor silent raw able fresh
      fun later _ _ => (settlesOn_none declined : SettlesOn afterConstructors wanted later none)
    rwa [Option.or_none] at byDefault
  · have unable : Strategy.constructedClass? wanted.type = none := by
      simp [Strategy.constructedClass?, raw, Class.isInstantiable, Class.isAbstract, kind]
    have passed (cell : Cell) (matcher : Matcher Constructor) :
        (Strategy.constructor cell (.unique matcher)).accepts wanted.site wanted.type =
          pure false := by
      simp [Strategy.accepts, Strategy.chosenConstructor, unable]
    rw [kind]
    refine settlesOn_none (List.forall_mem_cons.mpr ⟨passed _ _, ?_⟩)
    exact List.forall_mem_cons.mpr ⟨passed _ _, declined⟩

/-- A search of the full chain for a class that it has not met settles on the maker of the class. -/
theorem full_settlesOn {before : Store} (regular : c.Regular) (unlisted : c.Unlisted)
    (raw : wanted.type.rawType = some c)
    (constructors : ∀ cell : Cell, before.nextCell ≤ cell.number →
      store.constructors.find? (cell, c.name) = none)
    (methods : ∀ cell : Cell, before.nextCell ≤ cell.number →
      store.methods.find? (cell, c.name) = none) :
    SettlesOn (full before).1.strategies wanted store c.maker? := by
  rw [full_strategies]
  have passed := beforeFactoryMethod_decline (unlisted.unserved raw) before wanted.site
  refine settlesOn_passed passed ?_
  refine settlesOn_method raw regular.isManufacturable (methods _ (Nat.le_add_right _ 2))
    fun after _ same => ?_
  exact settlesOn_constructors regular unlisted raw (same ▸ constructors)

/-- Until it has met the class, the full chain builds by the maker of the class. -/
theorem full_builds_unmet {before store : Store} (regular : c.Regular) (unlisted : c.Unlisted)
    (raw : wanted.type.rawType = some c)
    (constructors : ∀ cell : Cell, before.nextCell ≤ cell.number →
      store.constructors.find? (cell, c.name) = none)
    (methods : ∀ cell : Cell, before.nextCell ≤ cell.number →
      store.methods.find? (cell, c.name) = none) (depth : Nat) :
    ∃ started, store.SelectsOnly started ∧
      Builds ((full before).1.hostWithin depth) wanted started c.maker?
        (((full before).1.hostWithin (depth + 1)).request wanted store) := by
  have settles : SettlesOn (full before).1.strategies wanted
      (Store.record (.requested wanted.type wanted.site) store).2 c.maker? :=
    full_settlesOn regular unlisted raw constructors methods
  exact settles.builds depth

end Chain

namespace Class

/-- An envelope is abstract, and nothing makes one. -/
def envelope : Class where
  name := "Envelope"
  kind := .abstract
  constructorDeclarations := [{}]

/-- A letter takes a text, an envelope and one more text. -/
def letterConstructor : ConstructorDeclaration where
  parameters := [{ name := "greeting", type := .plain string },
    { name := "envelope", type := .plain envelope },
    { name := "farewell", type := .plain string }]
  invoker := some fun arguments => .fresh (.made "Letter" "new" arguments)

/-- A letter of the given form, from a factory method. -/
def letterMethod (name : String) : MethodDeclaration where
  name := name
  returnType := .plain (named "Letter")
  isStatic := true
  invoker := some fun _ arguments => .fresh (.made "Letter" name arguments)

/-- Two factory methods stand in each other's way, so the constructor with parameters is taken. -/
def letter : Class where
  name := "Letter"
  kind := .concrete
  constructorDeclarations := [{}, letterConstructor]
  methodDeclarations := [letterMethod "formal", letterMethod "informal"]

/-- Prints a postcard with a text and hands it out as mail. -/
def postcardPrint : MethodDeclaration where
  name := "print"
  returnType := .plain (named "Mail")
  isStatic := true
  parameters := [{ name := "greeting", type := .plain string }]
  invoker := some fun _ arguments => .fresh (.made "Postcard" "print" arguments)

/--
An abstract class with one factory method, which comes after one that is private, a method that
needs an instance and a static one that gives something else.
-/
def postcard : Class where
  name := "Postcard"
  kind := .abstract
  superclass := some (.plain (named "Mail"))
  constructorDeclarations := [{}]
  methodDeclarations :=
    [{ postcardPrint with name := "draft", visibility := .hidden },
      { postcardPrint with name := "copy", isStatic := false },
      { postcardPrint with name := "motif", returnType := .plain string }, postcardPrint]

/-- Of its constructors with parameters none is the only one, and one without is private. -/
def stamp : Class where
  name := "Stamp"
  kind := .concrete
  constructorDeclarations :=
    [{ parameters := [{ name := "value", type := .plain string }] },
      { parameters := [{ name := "value", type := .plain string },
          { name := "motif", type := .plain string }] },
      { visibility := .hidden },
      { invoker := some fun arguments => .fresh (.made "Stamp" "new" arguments) }]

end Class

end TestData
