import TestData.Proofs.Deepening
import TestData.Proofs.Reductions

namespace TestData

/-!
# Types that are used alike

Most strategies look at a type through its wildcards, or at the class behind it, and so
do the walks up from a type.  For types that do not differ in this, undecorated
strategies accept the same and make the same.  There is one exception: the variables of
a factory method are bound by fitting its return type to the type of the request, and
there wildcards are not looked through.
-/

/-- Walking up from behind wildcards gives the same; each of them takes one step more. -/
theorem Bindings.collect_of_unwrap {type front : TypeExpr} (unwraps : type.unwrap = some front) :
    ∃ layers, ∀ depth bindings,
      collect (depth + layers) type bindings = collect depth front bindings := by
  induction type using TypeExpr.bound_induction with
  | @bounded upper lower bound found ih =>
      rw [TypeExpr.unwrap_wildcard, found] at unwraps
      obtain ⟨layers, same⟩ := ih unwraps
      refine ⟨layers + 1, fun depth bindings => ?_⟩
      have layer : collect (depth + layers + 1) (.wildcard upper lower) bindings
          = collect (depth + layers) bound bindings := by
        rw [collect]
        simp only [found]
      exact layer.trans (same depth bindings)
  | unbounded none =>
      rw [TypeExpr.unwrap_wildcard, none] at unwraps
      cases unwraps
  | other plain =>
      rw [TypeExpr.unwrap_of_not_wildcard plain] at unwraps
      cases unwraps
      exact ⟨0, fun depth bindings => rfl⟩

/-! ## Types that are used alike -/

/-- The bindings for a factory method: those of the type it is to make, and those that fit to it. -/
def Method.fittingBindings (m : Method) (depth : Nat) (type : TypeExpr) : Bounded Bindings := do
  (← Bindings.ofType depth type).bind depth m.returnType type

/-- The types to request for the parameters of a factory method that is to make a type. -/
def Method.argumentTypes (m : Method) (depth : Nat) (type : TypeExpr) :
    Bounded (List TypeExpr) := do
  let bindings ← m.fittingBindings depth type
  return m.parameters.map fun parameter => bindings.resolve parameter.type

/-- The parameters of a factory method come to the same types, whichever type it is to make. -/
def Method.FitsAlike (m : Method) (type other : TypeExpr) : Prop :=
  ∀ types, (∃ depth, m.argumentTypes depth type = .ok types) ↔
    ∃ depth, m.argumentTypes depth other = .ok types

theorem Method.steady_argumentTypes (m : Method) (type : TypeExpr) :
    Steady fun depth => m.argumentTypes depth type :=
  ((Bindings.steady_ofType type).bind fun own => own.steady_bind m.returnType type).bind
    fun _ => .const _

/--
The two types are the same for whoever looks at them through wildcards, and the second
one makes the bindings the first one makes, if it is given some more steps.
-/
structure TypeExpr.StandsFor (other type : TypeExpr) : Prop where
  front : other.unwrap = type.unwrap
  raw : other.rawType = type.rawType
  binds : ∃ layers, ∀ depth bindings, Bindings.ofType depth type = .ok bindings →
    Bindings.ofType (depth + layers) other = .ok bindings

namespace TypeExpr

variable {type front : TypeExpr}

theorem standsFor_of_unwrap (unwraps : type.unwrap = some front) : type.StandsFor front where
  front := unwraps.trans (unwrap_of_unwrap unwraps).symm
  raw := rawType_of_unwrap unwraps
  binds := by
    obtain ⟨layers, same⟩ := Bindings.collect_of_unwrap unwraps
    exact ⟨layers, fun depth bindings given => (same depth .empty).trans given⟩

theorem standsFor_unwrapped (unwraps : type.unwrap = some front) : front.StandsFor type where
  front := (unwrap_of_unwrap unwraps).trans unwraps.symm
  raw := (rawType_of_unwrap unwraps).symm
  binds := by
    obtain ⟨layers, same⟩ := Bindings.collect_of_unwrap unwraps
    refine ⟨0, fun depth bindings given => ?_⟩
    have deeper := Bindings.steady_ofType type depth (depth + layers) bindings (by omega) given
    exact (same depth .empty).symm.trans deeper

end TypeExpr

namespace Strategy

/-- The strategy is none of the decorators, which are given the type as it was requested. -/
def Undecorated : Strategy → Prop
  | .memoizing .. | .conditional .. | .enhancing .. => False
  | _ => True

variable {site : Site} {type other : TypeExpr}

theorem chosenConstructor_congr (raw : other.rawType = type.rawType) (cell : Cell)
    (selector : Selector Constructor) :
    chosenConstructor cell selector site other = chosenConstructor cell selector site type := by
  unfold chosenConstructor constructedClass?
  rw [raw]

theorem chosenMethod_congr (raw : other.rawType = type.rawType) (cell : Cell)
    (selector : Selector Method) :
    chosenMethod cell selector site other = chosenMethod cell selector site type := by
  unfold chosenMethod manufacturedClass?
  rw [raw]

/-- Without decorators types that are used alike are accepted alike. -/
theorem accepts_congr (same : other.StandsFor type) {strategy : Strategy}
    (undecorated : strategy.Undecorated) (site : Site) :
    strategy.accepts site other = strategy.accepts site type := by
  cases strategy with
  | defaultValue => simp only [accepts, TypeExpr.defaultContent?, same.front]
  | constant | supplied | implementation | chain =>
      simp only [accepts, TypeExpr.unwrapsTo, same.front]
  | nullValue => simp only [accepts, acceptsNull, same.raw]
  | optional => simp only [accepts, acceptsOptional, same.front]
  | collection | map => simp only [accepts, acceptsShape, TypeExpr.shape?, same.front]
  | array => simp only [accepts, TypeExpr.component?, same.front]
  | constructor cell selector => simp only [accepts, chosenConstructor_congr same.raw]
  | factoryMethod cell selector => simp only [accepts, chosenMethod_congr same.raw]
  | enumValue => simp only [accepts, chosenConstant, same.front]
  | memoizing | conditional | enhancing => exact undecorated.elim

end Strategy

theorem Chain.firstAccepting_congr {type other : TypeExpr} (same : other.StandsFor type)
    {strategies : List Strategy} (undecorated : ∀ strategy ∈ strategies, strategy.Undecorated)
    (site : Site) :
    firstAccepting strategies ⟨other, site⟩ = firstAccepting strategies ⟨type, site⟩ := by
  induction strategies with
  | nil => rfl
  | cons strategy rest ih =>
      have first := Strategy.accepts_congr same (undecorated strategy List.mem_cons_self) site
      have later := ih fun other member => undecorated other (List.mem_cons_of_mem _ member)
      simp only [firstAccepting, first, later]

/-! ## What is made of types that are used alike -/

open Run

/-- Arguments are requested for the types that the parameters come to, and for nothing else. -/
theorem Host.requestArguments_congr {host : Host} {bindings more : Bindings}
    (siteOf : Parameter → Except SiteError Site) {parameters : List Parameter}
    (alike : parameters.map (fun parameter => bindings.resolve parameter.type)
      = parameters.map fun parameter => more.resolve parameter.type) :
    host.requestArguments bindings siteOf parameters =
      host.requestArguments more siteOf parameters := by
  induction parameters with
  | nil => rfl
  | cons parameter rest ih =>
      rw [List.map_cons, List.map_cons, List.cons.injEq] at alike
      simp only [requestArguments, alike.1, ih alike.2]

namespace Strategy

variable {host more : Host} {site : Site} {type other : TypeExpr}

theorem called_yields (member : String) (reply : Reply) :
    (called site type member reply).Yields (called site other member reply) := by
  refine .after _ fun answer => ?_
  cases answer with
  | ok value => exact .refl _
  | error message => exact yields_of_fail _

/-- Neither constructors nor factory methods are called. -/
def MemberFree : Strategy → Prop
  | .constructor .. | .factoryMethod .. => False
  | _ => True

/-- Where no member is called, the type is in the errors and nowhere else. -/
theorem produce_yields (same : other.StandsFor type) {strategy : Strategy}
    (undecorated : strategy.Undecorated) (memberFree : strategy.MemberFree) :
    (strategy.produce host site type).Yields (strategy.produce host site other) := by
  have gaveUp : (giveUp site type : Run Value).Yields (giveUp site other) := yields_of_fail _
  cases strategy with
  | defaultValue =>
      simp only [produce, TypeExpr.defaultContent?, same.front]
      split
      · exact .refl _
      · exact gaveUp
  | constant | supplied | implementation | chain =>
      simp only [produce, TypeExpr.unwrapsTo, same.front]
      exact .ite (.refl _) gaveUp
  | nullValue =>
      simp only [produce, acceptsNull, same.raw]
      exact .ite (.refl _) gaveUp
  | optional =>
      simp only [produce, produceOptional, same.front]
      split
      · exact .ite (.refl _) gaveUp
      · exact .ite (.refl _) gaveUp
      · exact gaveUp
  | collection | map =>
      simp only [produce, produceCollection, produceMap, TypeExpr.shape?, same.front]
      split
      · exact .ite (.refl _) gaveUp
      · exact .refl _
      · exact gaveUp
  | array =>
      simp only [produce, produceArray, TypeExpr.component?, same.front]
      split
      · exact .refl _
      · exact gaveUp
  | enumValue =>
      simp only [produce, chosenConstant, same.front]
      refine .after _ fun choice => ?_
      cases choice with
      | some value => exact .refl _
      | none => exact gaveUp
  | constructor | factoryMethod => exact memberFree.elim
  | memoizing | conditional | enhancing => exact undecorated.elim

/-- A constructor is called with the same arguments if the types make the same bindings. -/
theorem produceByConstructor_givenBy (extended : host.ExtendedBy more)
    (same : other.StandsFor type)
    (binds : ∀ bindings, Bindings.ofType host.depth type = .ok bindings →
      Bindings.ofType more.depth other = .ok bindings)
    (cell : Cell) (selector : Selector Constructor) :
    (produceByConstructor host cell selector site type).GivenBy
      (produceByConstructor more cell selector site other) := by
  unfold produceByConstructor
  rw [chosenConstructor_congr same.raw]
  refine (givenBy_ofStep (blind_chosenConstructor cell selector site type)).bind fun choice => ?_
  cases choice with
  | none => exact fun _ _ _ _ _ given => nomatch given
  | some k =>
      have calls (bindings : Bindings) : (callConstructor host k bindings site type).GivenBy
          (callConstructor more k bindings site other) :=
        (Yields.after _ fun _ => called_yields _ _).givenBy
          ((Composed.callConstructor (.refl site) k bindings other).givenBy extended)
      exact givenBy_ofBounded_bind fun bindings given => ⟨bindings, binds bindings given, calls _⟩

/-- A factory method is called with the same arguments if its parameters come to the same. -/
theorem bindingMethod_givenBy (extended : host.ExtendedBy more) {m : Method}
    (fits : ∀ types, m.argumentTypes host.depth type = .ok types →
      m.argumentTypes more.depth other = .ok types) (site : Site) :
    (Run.ofBounded (m.fittingBindings host.depth type) >>= fun bindings =>
      callFactoryMethod host m bindings site type).GivenBy
    (Run.ofBounded (m.fittingBindings more.depth other) >>= fun bindings =>
      callFactoryMethod more m bindings site other) := by
  refine givenBy_ofBounded_bind fun bindings given => ?_
  have fitted := fits (m.parameters.map fun parameter => bindings.resolve parameter.type)
    (by rw [Method.argumentTypes, given]; rfl)
  rcases Bounded.of_bind_eq_ok fitted with ⟨fitting, found, fitted⟩
  refine ⟨fitting, found, ?_⟩
  -- The bindings may differ, but not in what they make of the parameters.
  have asks : callFactoryMethod host m bindings site type
      = callFactoryMethod host m fitting site type := by
    unfold callFactoryMethod
    rw [Host.requestArguments_congr _ (Except.ok.inj fitted).symm]
  rw [asks]
  exact (Yields.after _ fun _ => called_yields _ _).givenBy
    ((Composed.callFactoryMethod (.refl site) m fitting other).givenBy extended)

theorem produceByMethod_of_chosen {cell : Cell} {selector : Selector Method} {m : Method}
    {store chose : Store} (chosen : chosenMethod cell selector site type store = (some m, chose)) :
    produceByMethod host cell selector site type store =
      (Run.ofBounded (m.fittingBindings host.depth type) >>= fun bindings =>
        callFactoryMethod host m bindings site type) chose := by
  have step : Run.ofStep (chosenMethod cell selector site type) store = .ok (some m) chose := by
    rw [ofStep_apply, chosen]
  exact bind_of_ok step

theorem chosen_of_produceByMethod {cell : Cell} {selector : Selector Method} {value : Value}
    {store after : Store}
    (given : produceByMethod host cell selector site type store = .ok value after) :
    ∃ m chose, chosenMethod cell selector site type store = (some m, chose) := by
  rcases chosen : chosenMethod cell selector site type store with ⟨_ | m, chose⟩
  · have step : Run.ofStep (chosenMethod cell selector site type) store = .ok none chose := by
      rw [ofStep_apply, chosen]
    have gaveUp : produceByMethod host cell selector site type store = giveUp site type chose :=
      bind_of_ok step
    rw [gaveUp] at given
    cases given
  · exact ⟨m, chose, rfl⟩

/--
What an undecorated strategy makes of a type it makes of every type that is used alike,
if the factory method it may have chosen fits both.
-/
theorem produce_given (extended : host.ExtendedBy more) (same : other.StandsFor type)
    (binds : ∀ bindings, Bindings.ofType host.depth type = .ok bindings →
      Bindings.ofType more.depth other = .ok bindings)
    {strategy : Strategy} (undecorated : strategy.Undecorated) (own : strategy.Local)
    {store again after : Store}
    (fits : ∀ cell selector m chose, strategy = .factoryMethod cell selector →
      chosenMethod cell selector site type store = (some m, chose) →
      ∀ types, m.argumentTypes host.depth type = .ok types →
        m.argumentTypes more.depth other = .ok types)
    (retraced : store.Retraced again) {value : Value}
    (given : strategy.produce host site type store = .ok value after) :
    ∃ last, strategy.produce more site other again = .ok value last ∧ after.Retraced last := by
  have withoutMembers (memberFree : strategy.MemberFree) :
      ∃ last, strategy.produce more site other again = .ok value last ∧ after.Retraced last :=
    (produce_yields same undecorated memberFree).givenBy
      ((Composed.produce own (.refl site) other).givenBy extended) store again value after
      retraced given
  cases strategy with
  | constructor cell selector =>
      exact produceByConstructor_givenBy extended same binds cell selector
        store again value after retraced given
  | factoryMethod cell selector =>
      obtain ⟨m, chose, chosen⟩ := chosen_of_produceByMethod given
      rcases chosenAgain : chosenMethod cell selector site other again with ⟨choice, choseAgain⟩
      have alike := blind_chosenMethod cell selector site type store again retraced
      rw [← chosenMethod_congr same.raw] at alike
      rw [chosenMethod_congr same.raw, chosen, ← chosenMethod_congr same.raw, chosenAgain] at alike
      rcases alike with ⟨rfl, left⟩
      have calls := bindingMethod_givenBy extended (fits cell selector m chose rfl chosen) site
      rw [produce, produceByMethod_of_chosen chosen] at given
      rw [produce, produceByMethod_of_chosen chosenAgain]
      exact calls chose choseAgain value after left given
  | defaultValue | constant | supplied | nullValue | optional | collection | map | array
  | enumValue | implementation | chain => exact withoutMembers trivial
  | memoizing | conditional | enhancing => exact undecorated.elim

end Strategy

namespace Chain

variable {chain : Chain} {type other : TypeExpr} {site : Site}

/-- What a request is given was made by the first strategy that accepted it. -/
theorem request_eq_ok_iff {depth : Nat} {wanted : Request} {store after : Store} {value : Value} :
    (chain.hostWithin (depth + 1)).request wanted store = .ok value after ↔
      ∃ strategy accepted,
        firstAccepting chain.strategies wanted
          (Store.record (.requested wanted.type wanted.site) store).2 = (some strategy, accepted) ∧
        strategy.produce (chain.hostWithin depth) wanted.site wanted.type accepted
          = .ok value after := by
  rcases found : firstAccepting chain.strategies wanted
    (Store.record (.requested wanted.type wanted.site) store).2 with ⟨_ | strategy, accepted⟩
  · rw [request_of_declined found]
    constructor
    · rintro ⟨⟩
    · rintro ⟨strategy, last, same, -⟩
      cases same
  · rw [request_of_found found]
    constructor
    · exact fun made => ⟨strategy, accepted, rfl, made⟩
    · rintro ⟨_, _, ⟨⟩, made⟩
      exact made

/-- A chain of undecorated strategies gives a type what it gives types that are used alike. -/
theorem request_given (own : chain.Local)
    (undecorated : ∀ strategy ∈ chain.strategies, strategy.Undecorated)
    (same : other.StandsFor type) {depth deeper : Nat} (within : depth ≤ deeper)
    (binds : ∀ bindings, Bindings.ofType depth type = .ok bindings →
      Bindings.ofType deeper other = .ok bindings)
    {store after : Store}
    (fits : ∀ cell selector accepted m chose,
      firstAccepting chain.strategies ⟨type, site⟩ (Store.record (.requested type site) store).2
        = (some (.factoryMethod cell selector), accepted) →
      Strategy.chosenMethod cell selector site type accepted = (some m, chose) →
      ∀ types, m.argumentTypes depth type = .ok types → m.argumentTypes deeper other = .ok types)
    {value : Value}
    (given : (chain.hostWithin (depth + 1)).request ⟨type, site⟩ store = .ok value after) :
    ∃ last, (chain.hostWithin (deeper + 1)).request ⟨other, site⟩ store = .ok value last ∧
      after.Retraced last := by
  obtain ⟨strategy, accepted, found, made⟩ := request_eq_ok_iff.mp given
  have traced : Store.Retraced (Store.record (.requested type site) store).2
      (Store.record (.requested other site) store).2 := ⟨_, rfl⟩
  rcases foundAgain : firstAccepting chain.strategies ⟨other, site⟩
    (Store.record (.requested other site) store).2 with ⟨choice, acceptedAgain⟩
  have alike := blind_firstAccepting chain.strategies ⟨type, site⟩ _ _ traced
  rw [found, ← firstAccepting_congr same undecorated, foundAgain] at alike
  rcases alike with ⟨rfl, left⟩
  have member := (mem_of_firstAccepting found).1
  have extended := hostWithin_extendedBy own within
  obtain ⟨last, madeAgain, retraced⟩ := Strategy.produce_given extended same binds
    (undecorated strategy member) (own strategy member)
    (fun cell selector m chose is chosen => fits cell selector accepted m chose (is ▸ found) chosen)
    left made
  exact ⟨last, request_eq_ok_iff.mpr ⟨strategy, acceptedAgain, foundAgain, madeAgain⟩, retraced⟩

end Chain

/-! ## Factory methods that fit alike -/

/-- The return type applies no class but others than this one, and leaves no type to fit to. -/
def Method.ReturnsOther (m : Method) (c : Class) : Prop :=
  match m.returnType with
  | .plain _ => True
  | .parameterized raw _ => raw.name ≠ c.name
  | .wildcard .. | .var .. | .genericArray _ => False

/-- Seen as a class other than its own, a type looks like the types that are used alike. -/
theorem TypeExpr.asSupertype_of_standsFor {type other : TypeExpr} {c target : Class}
    (raw : type.rawType = some c) (different : target.name ≠ c.name)
    (rawToo : other.rawType = some c) {depth deeper : Nat} {view : Option TypeExpr}
    (binds : ∀ bindings, Bindings.ofType depth type = .ok bindings →
      Bindings.ofType deeper other = .ok bindings)
    (viewed : type.asSupertype depth target = .ok view) :
    other.asSupertype deeper target = .ok view := by
  have unequal : (c == target) = false :=
    Bool.eq_false_iff.mpr fun same => different (Class.beq_iff_name_eq.mp same).symm
  rw [asSupertype, raw] at viewed
  rw [asSupertype, rawToo]
  simp only [unequal, Bool.false_eq_true, if_false] at viewed ⊢
  split
  · next unrelated => rwa [if_pos unrelated] at viewed
  · next related =>
      rw [if_neg related] at viewed
      split
      · next plain => rwa [if_pos plain] at viewed
      · next generic =>
          rw [if_neg generic] at viewed
          rcases Bounded.of_bind_eq_ok viewed with ⟨bindings, bound, viewed⟩
          rw [binds bindings bound]
          exact viewed

/-- A return type of that form is fitted alike to types that are used alike. -/
theorem Method.ReturnsOther.bind {m : Method} {type other : TypeExpr} {c : Class}
    (returns : m.ReturnsOther c) (raw : type.rawType = some c) (rawToo : other.rawType = some c)
    {depth deeper : Nat} (within : depth ≤ deeper)
    (binds : ∀ bindings, Bindings.ofType depth type = .ok bindings →
      Bindings.ofType deeper other = .ok bindings)
    {own fitting : Bindings} (bound : own.bind depth m.returnType type = .ok fitting) :
    own.bind deeper m.returnType other = .ok fitting := by
  unfold ReturnsOther at returns
  unfold Bindings.bind at bound ⊢
  cases returned : m.returnType with
  | plain d =>
      rw [returned] at bound
      exact bound
  | parameterized target formals =>
      rw [returned] at returns bound
      unfold Bindings.unify at bound ⊢
      rcases Bounded.of_bind_eq_ok bound with ⟨view, viewed, bound⟩
      rw [TypeExpr.asSupertype_of_standsFor raw returns rawToo binds viewed]
      rcases view with _ | (_ | ⟨d, actuals⟩ | _ | _ | _)
      · exact bound
      · exact bound
      · exact Bindings.steady_unifyAll formals actuals own depth deeper fitting within bound
      · exact bound
      · exact bound
      · exact bound
  | wildcard | var | genericArray =>
      rw [returned] at returns
      exact returns.elim

/-- Such a factory method makes of its parameters the same for types that are used alike. -/
theorem Method.ReturnsOther.argumentTypes {m : Method} {type other : TypeExpr} {c : Class}
    (returns : m.ReturnsOther c) (same : other.StandsFor type) (raw : type.rawType = some c)
    {types : List TypeExpr} (given : ∃ depth, m.argumentTypes depth type = .ok types) :
    ∃ depth, m.argumentTypes depth other = .ok types := by
  obtain ⟨depth, given⟩ := given
  obtain ⟨layers, binds⟩ := same.binds
  refine ⟨depth + layers, ?_⟩
  unfold Method.argumentTypes Method.fittingBindings at given ⊢
  rcases Bounded.of_bind_eq_ok given with ⟨fitting, fits, given⟩
  rcases Bounded.of_bind_eq_ok fits with ⟨own, bound, fitted⟩
  have fitsOther := returns.bind raw (same.raw.trans raw) (Nat.le_add_right depth layers)
    (binds depth) fitted
  rw [binds depth own bound]
  simp only [Bind.bind, Except.bind] at fitsOther ⊢
  rw [fitsOther]
  exact given

theorem Method.ReturnsOther.fitsAlike {m : Method} {type front : TypeExpr} {c : Class}
    (returns : m.ReturnsOther c) (unwraps : type.unwrap = some front)
    (raw : front.rawType = some c) : m.FitsAlike type front :=
  fun _ => ⟨returns.argumentTypes (TypeExpr.standsFor_unwrapped unwraps)
      ((TypeExpr.rawType_of_unwrap unwraps).trans raw),
    returns.argumentTypes (TypeExpr.standsFor_of_unwrap unwraps) raw⟩

end TestData
