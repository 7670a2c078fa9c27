import TestData.Proofs.Depth
import TestData.Proofs.Moves
import TestData.Proofs.Parameters
import TestData.Proofs.Serving

namespace TestData

/-!
# What serving a request is made of

A strategy sees nothing of its host but the length of the chain and the depth, and talks
to it through requests alone.  So all that serving a request does is put together from a
few pieces: work on the store, computations on types that more depth does not change,
failures, requests at the host, and requests whose errors are overcome, which only user
code does.  A scope says which cells, sites and errors may come up in this.  What holds of the pieces and of binds holds of every strategy and every
chain, whoever the host is; two such properties are shown right here, that the store
changes by moves and that errors are those of the scope.
-/

/-! ## Scopes -/

/--
The cells in which state is kept, the sites at which stubs are requested, the errors
that may arise, and whether user code may go on behind the error of a request.  A request
below a site of the scope is of the scope, and so are the errors that tell of a request of
the scope that it was refused or that it failed.
-/
structure Scope where
  cells : Cell → Prop
  sites : Site → Prop
  fails : StubError → Prop
  resumes : Prop
  child {site : Site} (inside : sites site) (kind : SiteKind) : sites (.child kind site)
  refused {site : Site} (inside : sites site) (type : TypeExpr) : fails (.unresolvable type site)
  failed {site : Site} (inside : sites site) (type : TypeExpr) (message : String) :
    fails (.produce type site message)

namespace Scope

/-- State is kept in these cells, and otherwise anything may come up. -/
def keepingTo (cells : Cell → Prop) : Scope where
  cells := cells
  sites _ := True
  fails _ := True
  resumes := True
  child _ _ := trivial
  refused _ _ := trivial
  failed _ _ _ := trivial

end Scope

/-- As long as its requests fail in ways of the scope, the action keeps to the scope itself. -/
def Action.KeepsTo (scope : Scope) : Action → Prop
  | .give _ => True
  | .make _ next => ∀ value, (next value).KeepsTo scope
  | .request wanted next => scope.sites wanted.site ∧
      (scope.resumes ∨ ∀ cause, next (.error cause) = .fail cause) ∧
      ∀ outcome, (∀ cause, outcome = .error cause → scope.fails cause) →
        (next outcome).KeepsTo scope
  | .fail cause => scope.fails cause

/-- Asked at a site of the scope, user code in an enhancer keeps to the scope. -/
def Enhancer.KeepsTo (scope : Scope) : Enhancer → Prop
  | .injectFields _ | .injectMethods _ => True
  | .custom enhance =>
      ∀ site, scope.sites site → ∀ type value, (enhance site type value).KeepsTo scope

/-- In a scope that allows everything else, it is only the errors that have to be looked at. -/
theorem Action.FailsOnlyIn.keepsTo {scope : Scope} (anywhere : ∀ site, scope.sites site)
    (resumes : scope.resumes) {action : Action} (own : action.FailsOnlyIn scope.fails) :
    action.KeepsTo scope := by
  induction action with
  | give value => exact trivial
  | make content next ih => exact fun value => ih value (own value)
  | fail cause => exact own
  | request wanted next ih =>
      refine ⟨anywhere wanted.site, .inl resumes, fun outcome within => ?_⟩
      rcases own outcome with fails | ⟨cause, missing, handsOn⟩
      · exact ih outcome fails
      · rw [handsOn]
        rcases outcome with error | (_ | value)
        · cases missing
          exact within _ rfl
        · cases missing
          exact scope.refused (anywhere wanted.site) wanted.type
        · cases missing

theorem Action.keepsTo_keepingTo (action : Action) (cells : Cell → Prop) :
    action.KeepsTo (.keepingTo cells) :=
  FailsOnlyIn.keepsTo (fun _ => trivial) trivial action.failsOnlyIn_all

namespace Strategy

/-- Asked at a site of the scope, user code in a strategy keeps to the scope. -/
def KeepsTo (scope : Scope) : Strategy → Prop
  | .supplied _ _ supplier =>
      ∀ site, scope.sites site → ∀ number, (supplier site number).KeepsTo scope
  | .memoizing _ inner _ | .conditional inner _ => inner.KeepsTo scope
  | .enhancing inner enhancer => inner.KeepsTo scope ∧ enhancer.KeepsTo scope
  | _ => True

theorem FailsOnlyIn.keepsTo {scope : Scope} (anywhere : ∀ site, scope.sites site)
    (resumes : scope.resumes) {strategy : Strategy} (own : strategy.FailsOnlyIn scope.fails) :
    strategy.KeepsTo scope := by
  induction strategy with
  | supplied cell type supplier =>
      exact fun site _ number => Action.FailsOnlyIn.keepsTo anywhere resumes (own site number)
  | memoizing cell inner discriminator ih => exact ih own
  | conditional inner condition ih => exact ih own
  | enhancing inner enhancer ih =>
      refine ⟨ih own.1, ?_⟩
      cases enhancer with
      | injectFields | injectMethods => exact trivial
      | custom enhance =>
          exact fun site _ type value =>
            Action.FailsOnlyIn.keepsTo anywhere resumes (own.2 site type value)
  | defaultValue | constant | nullValue | optional | collection | map | array | constructor
  | factoryMethod | enumValue | implementation | chain => exact trivial

theorem keepsTo_keepingTo (strategy : Strategy) (cells : Cell → Prop) :
    strategy.KeepsTo (.keepingTo cells) :=
  FailsOnlyIn.keepsTo (fun _ => trivial) trivial strategy.failsOnlyIn_all

/--
The type has the arguments that the strategy is going to look at.  Collections and maps
count the arguments again when they are made; options rely on having been accepted.
-/
def Fits (type : TypeExpr) : Strategy → Prop
  | .optional mode => acceptsOptional mode type = true
  | .memoizing _ inner _ | .conditional inner _ | .enhancing inner _ => inner.Fits type
  | _ => True

/-- A type that a strategy accepts fits it. -/
theorem fits_of_accepts {strategy : Strategy} {site : Site} {type : TypeExpr}
    {store after : Store} (accepts : strategy.accepts site type store = (true, after)) :
    strategy.Fits type := by
  induction strategy generalizing after with
  | optional mode => exact congrArg Prod.fst accepts
  | memoizing cell inner discriminator ih => exact ih accepts
  | conditional inner condition ih =>
      rcases asked : inner.accepts site type store with ⟨_ | _, between⟩
      · simp only [Strategy.accepts, bind, StateT.bind, asked] at accepts
        cases accepts
      · exact ih asked
  | enhancing inner enhancer ih => exact ih accepts
  | defaultValue | constant | supplied | nullValue | collection | map | array | constructor
  | factoryMethod | enumValue | implementation | chain => exact trivial

/-- What is done with a constructor when it is chosen and the variables are bound. -/
def callConstructor (host : Host) (k : Constructor) (bindings : Bindings) (site : Site)
    (type : TypeExpr) : Run Value := do
  let arguments ← host.requestArguments bindings (site.constructorParameter k) k.parameters
  called site type k.display (k.call arguments)

/-- What is done with a factory method when it is chosen and the variables are bound. -/
def callFactoryMethod (host : Host) (m : Method) (bindings : Bindings) (site : Site)
    (type : TypeExpr) : Run Value := do
  let arguments ← host.requestArguments bindings (site.methodParameter m) m.parameters
  called site type m.display (m.call none arguments)

end Strategy

/-! ## The pieces -/

/--
The computation is put together from work, walks over types, failures and requests.  Behind
the error of a request it goes on only if the scope allows for it, and only for its errors
need it be known how.
-/
inductive Operates (scope : Scope) : {α : Type} → (Host → Run α) → Prop where
  | step {α : Type} {step : Nat → Step α}
      (working : ∀ length, Step.Working scope.cells (step length)) :
      Operates scope fun host => Run.ofStep (step host.length)
  | bounded {α : Type} {computation : Nat → Bounded α} (steady : Steady computation) :
      Operates scope fun host => Run.ofBounded (computation host.depth)
  | fail {α : Type} {cause : StubError} (fails : scope.fails cause) :
      Operates scope fun _ => (Run.fail cause : Run α)
  | resolve {wanted : Request} (inside : scope.sites wanted.site) :
      Operates scope fun host => host.resolve wanted
  | attempt {α : Type} {wanted : Request} {next : Outcome → Host → Run α}
      (inside : scope.sites wanted.site) (resumes : scope.resumes)
      (goesOn : ∀ outcome, (∀ cause, outcome = .error cause → scope.fails cause) →
        Operates scope (next outcome)) :
      Operates scope fun host =>
        Run.attempt (host.resolve wanted) >>= fun outcome => next outcome host
  | bind {α β : Type} {first : Host → Run α} {next : α → Host → Run β}
      (begins : Operates scope first) (goesOn : ∀ result, Operates scope (next result)) :
      Operates scope fun host => first host >>= fun result => next result host

namespace Operates

variable {scope : Scope} {site : Site} {type : TypeExpr} {α β : Type}

theorem work {step : Step α} (working : Step.Working scope.cells step) :
    Operates scope fun _ => Run.ofStep step :=
  .step fun _ => working

theorem pure (result : α) : Operates scope fun _ => (Pure.pure result : Run α) :=
  work (.pure result)

theorem create (content : Content) : Operates scope fun _ => Run.ofStep (Store.create content) :=
  work (.create content)

theorem request {wanted : Request} (inside : scope.sites wanted.site) :
    Operates scope fun host => host.request wanted := by
  refine .bind (.resolve inside) fun answer => ?_
  cases answer with
  | some value => exact .pure value
  | none => exact .fail (scope.refused inside wanted.type)

theorem times {computation : Host → Run α} (each : Operates scope computation) (count : Nat) :
    Operates scope fun host => Run.times count (computation host) := by
  induction count with
  | zero => exact .pure []
  | succ count ih =>
      simp only [Run.times_succ]
      exact .bind each fun result => .bind ih fun results => .pure _

theorem requestBoth {first second : Request} (left : scope.sites first.site)
    (right : scope.sites second.site) :
    Operates scope fun host => host.requestBoth first second :=
  .bind (.request left) fun _ => .bind (.request right) fun _ => .pure _

/-- The arguments of an executable are requested at sites that can all be made. -/
theorem requestArguments {bindings : Bindings} {siteOf : Parameter → Except SiteError Site}
    {parameters : List Parameter}
    (makes : ∀ parameter ∈ parameters, ∃ made, siteOf parameter = .ok made ∧ scope.sites made) :
    Operates scope fun host => host.requestArguments bindings siteOf parameters := by
  induction parameters with
  | nil => exact .pure []
  | cons parameter rest ih =>
      rcases makes parameter List.mem_cons_self with ⟨made, sited, inside⟩
      have others := ih fun other member => makes other (List.mem_cons_of_mem _ member)
      have asks : ∀ host : Host, host.requestArguments bindings siteOf (parameter :: rest) = (do
          let value ← host.request ⟨bindings.resolve parameter.type, made⟩
          let values ← host.requestArguments bindings siteOf rest
          return value :: values) := by
        intro host
        rw [Host.requestArguments, sited]
        rfl
      simp only [asks]
      exact .bind (.request inside) fun value => .bind others fun values => .pure _

/-! ## Strategies -/

/-- If errors are handed on, there is nothing to go on with but an answer. -/
theorem run_request_of_handsOn {wanted : Request} {next : Outcome → Action}
    (handsOn : ∀ cause, next (.error cause) = .fail cause) (host : Host) :
    (Action.request wanted next).run host =
      host.resolve wanted >>= fun answer => (next (.ok answer)).run host := by
  funext store
  rw [Action.run]
  cases outcome : host.resolve wanted store with
  | ok answer after =>
      rw [Run.bind_of_ok (Run.attempt_of_ok outcome), Run.bind_of_ok outcome]
  | error failure after =>
      rw [Run.bind_of_error outcome]
      cases failure with
      | error cause =>
          rw [Run.bind_of_ok (Run.attempt_of_error outcome), handsOn]
          rfl
      | exhausted => rw [Run.bind_of_error (Run.attempt_of_exhausted outcome)]

theorem action {action : Action} (own : action.KeepsTo scope) :
    Operates scope fun host => action.run host := by
  induction action with
  | give value => exact .pure value
  | make content next ih => exact .bind (.create content) fun made => ih made (own made)
  | fail cause => exact .fail own
  | request wanted next ih =>
      rcases own with ⟨inside, resumes | handsOn, goesOn⟩
      · exact .attempt inside resumes fun outcome within => ih outcome (goesOn outcome within)
      · simp only [run_request_of_handsOn handsOn]
        exact .bind (.resolve inside) fun answer =>
          ih (.ok answer) (goesOn (.ok answer) fun _ answered => nomatch answered)

theorem giveUp (inside : scope.sites site) (type : TypeExpr) :
    Operates scope fun _ => (Strategy.giveUp site type : Run α) :=
  .fail (scope.refused inside type)

theorem called (inside : scope.sites site) (type : TypeExpr) (member : String) (reply : Reply) :
    Operates scope fun _ => Strategy.called site type member reply := by
  refine .bind (.work (Step.working_carryOut reply)) fun answer => ?_
  cases answer with
  | ok value => exact .pure value
  | error message => exact .fail (scope.failed inside type _)

/-- There is an argument to ask for, or it is an error of the scope that there is none. -/
theorem argumentRequest_bind {raw : Class} {arguments : List TypeExpr} {index : Nat}
    {next : Request → Host → Run α} (inside : scope.sites site)
    (inRange : index < arguments.length ∨ ∀ cause, scope.fails (.invalidSite cause))
    (goesOn : ∀ wanted : Request, scope.sites wanted.site → Operates scope (next wanted)) :
    Operates scope fun host =>
      Strategy.argumentRequest site raw arguments index >>= fun wanted => next wanted host := by
  by_cases below : index < arguments.length
  · have asked : Strategy.argumentRequest site raw arguments index = Pure.pure
        ⟨arguments[index], .child (.typeArgument raw arguments index) site⟩ := by
      rw [Strategy.argumentRequest, Site.argumentAt, dif_pos below]
      rfl
    rw [asked]
    exact goesOn _ (scope.child inside _)
  · have asked : Strategy.argumentRequest site raw arguments index
        = Run.fail (.invalidSite (.argumentIndex index raw arguments)) := by
      rw [Strategy.argumentRequest, Site.argumentAt, dif_neg below]
      rfl
    rw [asked]
    exact Operates.fail (inRange.resolve_left below _)

theorem produceOptional (inside : scope.sites site) {mode : OptionalMode}
    (fits : Strategy.acceptsOptional mode type = true ∨ ∀ cause, scope.fails (.invalidSite cause)) :
    Operates scope fun host => Strategy.produceOptional host mode site type := by
  unfold Strategy.produceOptional
  split
  · next raw arguments unwrapped =>
      split
      · have inRange : 0 < arguments.length ∨ ∀ cause, scope.fails (.invalidSite cause) := by
          refine fits.imp_left fun accepted => ?_
          simp only [Strategy.acceptsOptional, unwrapped, Bool.and_eq_true, beq_iff_eq] at accepted
          omega
        refine .argumentRequest_bind inside inRange fun wanted below => ?_
        cases mode with
        | empty => exact .create _
        | present => exact .bind (.request below) fun value => .create _
        | presentIfPossible => exact .bind (.resolve below) fun value => .create _
      · exact .giveUp inside type
  · split
    · exact .create _
    · exact .giveUp inside type
  · exact .giveUp inside type

theorem produceCollection (inside : scope.sites site) (c : Class) (build : List Value → Content)
    (size : Nat) (type : TypeExpr) :
    Operates scope fun host => Strategy.produceCollection host c build size site type := by
  unfold Strategy.produceCollection
  split
  · split
    · exact .create _
    · exact .giveUp inside type
  · next raw arguments shape =>
      have counted := Course.length_of_shape_applied shape
      refine .argumentRequest_bind inside (Or.inl (by omega)) fun wanted below => ?_
      exact .bind (.times (.request below) size) fun items => .create _
  · exact .giveUp inside type

theorem produceMap (inside : scope.sites site) (c : Class)
    (build : List (Value × Value) → Content) (size : Nat) (type : TypeExpr) :
    Operates scope fun host => Strategy.produceMap host c build size site type := by
  unfold Strategy.produceMap
  split
  · split
    · exact .create _
    · exact .giveUp inside type
  · next raw arguments shape =>
      have counted := Course.length_of_shape_applied shape
      refine .argumentRequest_bind inside (Or.inl (by omega)) fun key keyBelow => ?_
      refine .argumentRequest_bind inside (Or.inl (by omega)) fun value valueBelow => ?_
      exact .bind (.times (.requestBoth keyBelow valueBelow) size) fun pairs => .create _
  · exact .giveUp inside type

theorem produceArray (inside : scope.sites site) (size : Nat) (type : TypeExpr) :
    Operates scope fun host => Strategy.produceArray host size site type := by
  unfold Strategy.produceArray
  split
  · exact .bind (.times (.request (scope.child inside _)) size) fun items => .create _
  · exact .giveUp inside type

theorem callConstructor (inside : scope.sites site) (k : Constructor) (bindings : Bindings)
    (type : TypeExpr) :
    Operates scope fun host => Strategy.callConstructor host k bindings site type := by
  refine .bind (.requestArguments fun parameter member => ?_) fun _ => .called inside type _ _
  exact ⟨_, Site.constructorParameter_of_mem member site, scope.child inside _⟩

theorem callFactoryMethod (inside : scope.sites site) (m : Method) (bindings : Bindings)
    (type : TypeExpr) :
    Operates scope fun host => Strategy.callFactoryMethod host m bindings site type := by
  refine .bind (.requestArguments fun parameter member => ?_) fun _ => .called inside type _ _
  exact ⟨_, Site.methodParameter_of_mem member site, scope.child inside _⟩

theorem produceByConstructor {cell : Cell} {selector : Selector Constructor}
    (owned : (Strategy.constructor cell selector).OwnedBy scope.cells) (inside : scope.sites site)
    (type : TypeExpr) :
    Operates scope fun host => Strategy.produceByConstructor host cell selector site type := by
  refine .bind (.work (.constructor owned.1 owned.2 site type)) fun choice => ?_
  cases choice with
  | none => exact .giveUp inside type
  | some k =>
      exact .bind (.bounded (Bindings.steady_ofType type)) fun bindings =>
        .callConstructor inside k bindings type

theorem produceByMethod {cell : Cell} {selector : Selector Method}
    (owned : (Strategy.factoryMethod cell selector).OwnedBy scope.cells)
    (inside : scope.sites site) (type : TypeExpr) :
    Operates scope fun host => Strategy.produceByMethod host cell selector site type := by
  refine .bind (.work (.method owned.1 owned.2 site type)) fun choice => ?_
  cases choice with
  | none => exact .giveUp inside type
  | some m =>
      have binds := (Bindings.steady_ofType type).bind fun own =>
        own.steady_bind m.returnType type
      exact .bind (.bounded binds) fun bindings =>
        .callFactoryMethod inside m bindings type

theorem fillFields (inside : scope.sites site) (matcher : Matcher Field) (bindings : Bindings)
    (type : TypeExpr) (target : Value) (fields : List Field) :
    Operates scope fun host =>
      Enhancer.fillFields host matcher bindings site type target fields := by
  induction fields with
  | nil => exact .pure ()
  | cons f rest ih =>
      refine .bind (.work (.search (.heed _))) fun holds => ?_
      cases holds with
      | false => exact ih
      | true =>
          have below : scope.sites (site.injectedField f) := scope.child inside _
          refine .bind (.request below) fun value => ?_
          refine .bind (.work (Step.working_carryOutSetter _)) fun answer => ?_
          cases answer with
          | ok done => exact ih
          | error message => exact .fail (scope.failed below type _)

theorem callMethods (inside : scope.sites site) (bindings : Bindings) (type : TypeExpr)
    (target : Value) (methods : List Method) :
    Operates scope fun host => Enhancer.callMethods host bindings site type target methods := by
  induction methods with
  | nil => exact .pure ()
  | cons m rest ih =>
      refine .bind (.requestArguments fun parameter member => ?_) fun arguments => ?_
      · exact ⟨_, Site.methodParameter_of_mem member site, scope.child inside _⟩
      · refine .bind (.work (Step.working_carryOut _)) fun answer => ?_
        cases answer with
        | ok value => exact ih
        | error message => exact .fail (scope.failed inside type _)

theorem enhance {enhancer : Enhancer} (own : enhancer.KeepsTo scope)
    (inside : scope.sites site) (type : TypeExpr) (value : Value) :
    Operates scope fun host => enhancer.enhance host site type value := by
  cases enhancer with
  | injectFields matcher =>
      simp only [Enhancer.enhance]
      split
      · exact .pure value
      · split
        · exact .pure value
        · refine .bind (.bounded (Bindings.steady_ofType type)) fun bindings => ?_
          exact .bind (.fillFields inside matcher bindings type value _) fun _ => .pure value
  | injectMethods matcher =>
      simp only [Enhancer.enhance]
      split
      · exact .pure value
      · refine .bind (.bounded (Bindings.steady_ofType type)) fun bindings => ?_
        refine .bind (.work (.search (Step.searching_methodsToCall matcher site type)))
          fun methods => ?_
        exact .bind (.callMethods inside bindings type value methods) fun _ => .pure value
  | custom enhance => exact .action (own site inside type value)

/-- A memory looks up its memo before and after it asks for the contents. -/
theorem recalling {cell : Cell} (owned : scope.cells cell) (key : MemoKey)
    {make : Host → Run Value} (makes : Operates scope make) :
    Operates scope fun host => Strategy.recalling cell key (make host) := by
  have handsOut : ∀ value, Operates scope fun _ => Strategy.handOut cell key value :=
    fun value => .bind (.work (.recalled owned key value)) fun _ => .pure value
  simp only [Strategy.recalling_eq]
  refine .bind (.work (.lookUp cell key)) fun known => ?_
  cases known with
  | some value => exact handsOut value
  | none =>
      refine .bind (.work (.compute owned key)) fun _ => .bind makes fun made => ?_
      refine .bind (.work (.lookUp cell key)) fun nested => ?_
      cases nested with
      | some value => exact handsOut value
      | none => exact .bind (.work (.memo owned key made)) fun _ => handsOut made

/--
All that a strategy does is put together from the pieces.  Only a type that does not fit
may make it ask for an argument that is not there.
-/
theorem produce {strategy : Strategy} (owned : strategy.OwnedBy scope.cells)
    (own : strategy.KeepsTo scope) (inside : scope.sites site)
    (fits : strategy.Fits type ∨ ∀ cause, scope.fails (.invalidSite cause)) :
    Operates scope fun host => strategy.produce host site type := by
  induction strategy generalizing site with
  | defaultValue =>
      unfold Strategy.produce
      split
      · exact .create _
      · exact .giveUp inside type
  | constant expected value =>
      unfold Strategy.produce
      split
      · exact .pure value
      · exact .giveUp inside type
  | supplied cell expected supplier =>
      unfold Strategy.produce
      split
      · exact .bind (.work (.number owned)) fun number => .action (own site inside number)
      · exact .giveUp inside type
  | nullValue =>
      unfold Strategy.produce
      split
      · exact .pure _
      · exact .giveUp inside type
  | optional mode => exact .produceOptional inside fits
  | collection c build size => exact .produceCollection inside c build _ type
  | map c build size => exact .produceMap inside c build _ type
  | array size => exact .produceArray inside _ type
  | constructor cell selector => exact .produceByConstructor owned inside type
  | factoryMethod cell selector => exact .produceByMethod owned inside type
  | enumValue selector =>
      refine .bind (.work (.search (Step.searching_chosenConstant owned site type)))
        fun choice => ?_
      cases choice with
      | some value => exact .pure value
      | none => exact .giveUp inside type
  | implementation target substitute =>
      unfold Strategy.produce
      split
      · exact .request inside
      · exact .giveUp inside type
  | chain =>
      unfold Strategy.produce
      split
      · exact .step fun length => .create (.chain length)
      · exact .giveUp inside type
  | memoizing cell inner discriminator ih =>
      exact .recalling owned.1 _ (ih owned.2 own (scope.child inside _) fits)
  | conditional inner condition ih => exact ih owned own inside fits
  | enhancing inner enhancer ih =>
      exact .bind (ih owned own.1 inside fits) fun value => .enhance own.2 inside type value

/-! ## Chains -/

/-- A strategy that accepts is one of the list and fits; other answers need not be looked at. -/
theorem firstAccepting_bind {strategies : List Strategy} {wanted : Request}
    {next : Option Strategy → Host → Run α}
    (owned : ∀ strategy ∈ strategies, strategy.OwnedBy scope.cells)
    (declined : Operates scope (next none))
    (goesOn : ∀ strategy ∈ strategies, strategy.Fits wanted.type →
      Operates scope (next (some strategy))) :
    Operates scope fun host =>
      Run.ofStep (Chain.firstAccepting strategies wanted) >>= fun found => next found host := by
  induction strategies with
  | nil => exact declined
  | cons strategy rest ih =>
      have others := ih (fun other member => owned other (List.mem_cons_of_mem _ member))
        fun other member => goesOn other (List.mem_cons_of_mem _ member)
      have asks := Step.working_accepts (owned strategy List.mem_cons_self) wanted.site wanted.type
      by_cases fits : strategy.Fits wanted.type
      · have first : ∀ host,
            (Run.ofStep (Chain.firstAccepting (strategy :: rest) wanted) >>= fun found =>
              next found host) =
            (Run.ofStep (strategy.accepts wanted.site wanted.type) >>= fun accepted =>
              if accepted then next (some strategy) host
              else Run.ofStep (Chain.firstAccepting rest wanted) >>= fun found => next found host) := by
          intro host
          funext store
          simp only [Bind.bind, EStateM.bind, Run.ofStep_apply, Chain.firstAccepting, StateT.bind]
          rcases strategy.accepts wanted.site wanted.type store with ⟨_ | _, accepted⟩ <;> rfl
        simp only [first]
        refine .bind (.work asks) fun accepted => ?_
        cases accepted with
        | true => exact goesOn strategy List.mem_cons_self fits
        | false => exact others
      · have first : ∀ host,
            (Run.ofStep (Chain.firstAccepting (strategy :: rest) wanted) >>= fun found =>
              next found host) =
            (Run.ofStep (strategy.accepts wanted.site wanted.type) >>= fun _ =>
              Run.ofStep (Chain.firstAccepting rest wanted) >>= fun found => next found host) := by
          intro host
          funext store
          simp only [Bind.bind, EStateM.bind, Run.ofStep_apply, Chain.firstAccepting, StateT.bind]
          rcases asked : strategy.accepts wanted.site wanted.type store with ⟨_ | _, accepted⟩
          · rfl
          · exact absurd (Strategy.fits_of_accepts asked) fits
        simp only [first]
        exact .bind (.work asks) fun _ => others

end Operates

namespace Chain

/-- All state of the chain is kept in these cells. -/
def OwnedBy (cells : Cell → Prop) (chain : Chain) : Prop :=
  ∀ strategy ∈ chain.strategies, strategy.OwnedBy cells

theorem OwnedBy.mono {chain : Chain} {cells more : Cell → Prop} (owned : chain.OwnedBy cells)
    (within : ∀ cell, cells cell → more cell) : chain.OwnedBy more :=
  fun strategy member => (owned strategy member).mono within

/-- Asked at a site of the scope, user code in the chain keeps to the scope. -/
def KeepsTo (scope : Scope) (chain : Chain) : Prop :=
  ∀ strategy ∈ chain.strategies, strategy.KeepsTo scope

end Chain

/-- All that a chain does to serve a request of a scope is put together from the pieces. -/
theorem Operates.resolveFor {scope : Scope} {chain : Chain} (owned : chain.OwnedBy scope.cells)
    (own : chain.KeepsTo scope) {wanted : Request} (inside : scope.sites wanted.site) :
    Operates scope fun host => chain.resolveFor host wanted := by
  refine .bind (.work (.request _ _)) fun _ => ?_
  refine .firstAccepting_bind owned (.pure none) fun strategy member fits => ?_
  have makes := Operates.produce (owned strategy member) (own strategy member) inside (Or.inl fits)
  exact .bind makes fun value => .pure _

/-! ## What holds of all operations -/

theorem Run.left_ofBounded {α : Type} (bounded : Bounded α) (store : Store) :
    Run.left (Run.ofBounded bounded store) = store := by
  cases bounded <;> rfl

namespace Operates

variable {scope : Scope} {α : Type} {computation : Host → Run α}

/-- If requests at the host come to moves, so does the computation, however it ends. -/
theorem moves (operates : Operates scope computation) (anyhow : ∀ cause, scope.fails cause)
    (host : Host)
    (hosts : ∀ wanted, scope.sites wanted.site → ∀ store,
      Store.Moves scope.cells store (Run.left (host.resolve wanted store)))
    (store : Store) : Store.Moves scope.cells store (Run.left (computation host store)) := by
  induction operates generalizing store with
  | step working => exact (working host.length).moves store
  | bounded steady => rw [Run.left_ofBounded]
  | fail fails => exact .refl
  | resolve inside => exact hosts _ inside store
  | @attempt _ wanted next inside resumes goesOn ih =>
      have resolved := hosts _ inside store
      dsimp only
      cases outcome : host.resolve wanted store with
      | ok answer between =>
          rw [Run.bind_of_ok (Run.attempt_of_ok outcome)]
          rw [outcome] at resolved
          exact resolved.trans (ih _ (fun cause _ => anyhow cause) between)
      | error failure between =>
          rw [outcome] at resolved
          cases failure with
          | error cause =>
              rw [Run.bind_of_ok (Run.attempt_of_error outcome)]
              exact resolved.trans (ih _ (fun cause _ => anyhow cause) between)
          | exhausted =>
              rw [Run.bind_of_error (Run.attempt_of_exhausted outcome)]
              exact resolved
  | @bind _ _ first next begins goesOn ihFirst ihNext =>
      have began := ihFirst store
      dsimp only
      cases outcome : first host store with
      | error failure after =>
          rw [Run.bind_of_error outcome]
          rwa [outcome] at began
      | ok result between =>
          rw [Run.bind_of_ok outcome]
          rw [outcome] at began
          exact began.trans (ihNext result between)

/-- If requests at the host fail in ways of the scope only, so does the computation. -/
theorem fails (operates : Operates scope computation) (host : Host)
    (hosts : ∀ wanted, scope.sites wanted.site → ∀ {store after cause},
      host.resolve wanted store = .error (.error cause) after → scope.fails cause)
    {store after : Store} {cause : StubError}
    (outcome : computation host store = .error (.error cause) after) : scope.fails cause := by
  induction operates generalizing store with
  | step working => cases outcome
  | @bounded _ bounded steady =>
      dsimp only at outcome
      cases walked : bounded host.depth with
      | ok result => rw [walked] at outcome; cases outcome
      | error exhausted => rw [walked] at outcome; cases outcome
  | fail fails =>
      cases outcome
      exact fails
  | resolve inside => exact hosts _ inside outcome
  | @attempt _ wanted next inside resumes goesOn ih =>
      dsimp only at outcome
      cases resolved : host.resolve wanted store with
      | ok answer between =>
          rw [Run.bind_of_ok (Run.attempt_of_ok resolved)] at outcome
          exact ih (.ok answer) (fun _ answered => nomatch answered) outcome
      | error failure between =>
          cases failure with
          | error inner =>
              rw [Run.bind_of_ok (Run.attempt_of_error resolved)] at outcome
              refine ih (.error inner) (fun cause same => ?_) outcome
              cases same
              exact hosts wanted inside resolved
          | exhausted =>
              rw [Run.bind_of_error (Run.attempt_of_exhausted resolved)] at outcome
              cases outcome
  | @bind _ _ first next begins goesOn ihFirst ihNext =>
      dsimp only at outcome
      cases began : first host store with
      | error failure between =>
          rw [Run.bind_of_error began] at outcome
          cases outcome
          exact ihFirst began
      | ok result between =>
          rw [Run.bind_of_ok began] at outcome
          exact ihNext result outcome

end Operates

namespace Chain

variable {chain : Chain}

/-- By induction on the depth: a chain moves the store in its own cells and in no others. -/
theorem moves_resolveWithin {cells : Cell → Prop} (owned : chain.OwnedBy cells) (depth : Nat)
    (wanted : Request) (store : Store) :
    Store.Moves cells store (Run.left (chain.resolveWithin depth wanted store)) := by
  induction depth generalizing wanted store with
  | zero => exact .refl
  | succ depth ih =>
      have own : chain.KeepsTo (.keepingTo cells) :=
        fun strategy _ => strategy.keepsTo_keepingTo cells
      have serves : Operates (.keepingTo cells) fun host => chain.resolveFor host wanted :=
        .resolveFor owned own trivial
      exact serves.moves (fun _ => trivial) (chain.hostWithin depth)
        (fun wanted _ store => ih wanted store) store

/-- By induction on the depth: a chain fails in ways of the scope only. -/
theorem fails_resolveWithin {scope : Scope} (owned : chain.OwnedBy scope.cells)
    (own : chain.KeepsTo scope) {depth : Nat} {wanted : Request}
    (inside : scope.sites wanted.site) {store after : Store} {cause : StubError}
    (outcome : chain.resolveWithin depth wanted store = .error (.error cause) after) :
    scope.fails cause := by
  induction depth generalizing wanted store after cause with
  | zero => cases outcome
  | succ depth ih =>
      exact (Operates.resolveFor owned own inside).fails (chain.hostWithin depth)
        (fun wanted inside => ih inside) outcome

theorem moves_request {cells : Cell → Prop} (owned : chain.OwnedBy cells) (depth : Nat)
    (wanted : Request) (store : Store) :
    Store.Moves cells store (Run.left ((chain.hostWithin depth).request wanted store)) := by
  have asks : Operates (.keepingTo cells) fun host => host.request wanted := .request trivial
  exact asks.moves (fun _ => trivial) (chain.hostWithin depth)
    (fun wanted _ store => moves_resolveWithin owned depth wanted store) store

/-- A strategy in the service of a chain moves the store in its cells and in those of the chain. -/
theorem moves_produce {cells : Cell → Prop} (owned : chain.OwnedBy cells) {strategy : Strategy}
    (ownedBy : strategy.OwnedBy cells) (depth : Nat) (site : Site) (type : TypeExpr)
    (store : Store) :
    Store.Moves cells store
      (Run.left (strategy.produce (chain.hostWithin depth) site type store)) := by
  have makes : Operates (.keepingTo cells) fun host => strategy.produce host site type :=
    .produce ownedBy (strategy.keepsTo_keepingTo cells) trivial (Or.inr fun _ => trivial)
  exact makes.moves (fun _ => trivial) (chain.hostWithin depth)
    (fun wanted _ store => moves_resolveWithin owned depth wanted store) store

theorem ownedBy_all (chain : Chain) : chain.OwnedBy fun _ => True :=
  fun strategy _ => strategy.ownedBy_all

end Chain
end TestData
