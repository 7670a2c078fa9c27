import TestData.Proofs.Operations

namespace TestData

/-!
# Where requests come from

All that serving a request does comes from the site of the request: the sites of nested
requests have it among their ancestors, and errors arise at such sites.  The steps in
between do not look at the trace, so what is served does not depend on what happened
before but for what is remembered of it.
-/

/-! ## Sites and errors from one origin -/

/-- The site is the origin or has it among its ancestors. -/
def Site.ComesFrom (site origin : Site) : Prop :=
  origin ∈ site.walk

/-- If the error arose at a site, that site comes from the origin. -/
def StubError.ComesFrom (cause : StubError) (origin : Site) : Prop :=
  ∀ site, cause.site? = some site → site.ComesFrom origin

namespace Site

variable {site between origin : Site}

theorem ComesFrom.refl (site : Site) : site.ComesFrom site :=
  mem_walk_self site

theorem ComesFrom.trans (later : site.ComesFrom between) (earlier : between.ComesFrom origin) :
    site.ComesFrom origin := by
  induction site with
  | root kind =>
      cases List.mem_singleton.mp later
      exact earlier
  | child kind parent ih =>
      rcases List.mem_cons.mp later with same | above
      · subst same
        exact earlier
      · exact List.mem_cons_of_mem _ (ih above)

theorem ComesFrom.child (kind : SiteKind) (below : site.ComesFrom origin) :
    (Site.child kind site).ComesFrom origin :=
  List.mem_cons_of_mem _ below

end Site

theorem StubError.ComesFrom.trans {cause : StubError} {between origin : Site}
    (later : cause.ComesFrom between) (earlier : between.ComesFrom origin) :
    cause.ComesFrom origin :=
  fun site arose => (later site arose).trans earlier

/--
What may come up at sites that come from an origin, in any cells.  The error of a request
is handed on.
-/
def Scope.below (origin : Site) : Scope where
  cells _ := True
  sites site := site.ComesFrom origin
  fails cause := cause.ComesFrom origin
  resumes := False
  child inside kind := inside.child kind
  refused inside _ _ arose := Option.some.inj arose ▸ inside
  failed inside _ _ _ arose := Option.some.inj arose ▸ inside

/--
The action makes its requests at the site or below it, hands on their errors, and fails on
its own account with errors from there.
-/
def Action.Local (site : Site) (action : Action) : Prop :=
  action.KeepsTo (.below site)

theorem Action.local_giveNew (content : Content) (site : Site) :
    (Action.giveNew content).Local site :=
  fun _ => trivial

/-- User code in an enhancer asks and fails at the site at which it is asked, or below it. -/
def Enhancer.Local : Enhancer → Prop
  | .injectFields _ | .injectMethods _ => True
  | .custom enhance => ∀ site type value, (enhance site type value).Local site

/-- User code in a strategy asks and fails at the site at which it is asked, or below it. -/
def Strategy.Local : Strategy → Prop
  | .supplied _ _ supplier => ∀ site number, (supplier site number).Local site
  | .memoizing _ inner _ | .conditional inner _ => inner.Local
  | .enhancing inner enhancer => inner.Local ∧ enhancer.Local
  | _ => True

/-- User code in the strategies of a chain asks and fails at the sites at which it is asked. -/
def Chain.Local (chain : Chain) : Prop :=
  ∀ strategy ∈ chain.strategies, strategy.Local

/-- What is below a site is also below the sites that one comes from. -/
theorem Action.Local.below {action : Action} {site origin : Site} (own : action.Local site)
    (below : site.ComesFrom origin) : action.Local origin := by
  induction action with
  | give value => exact trivial
  | make content next ih => exact fun value => ih value (own value)
  | fail cause => exact StubError.ComesFrom.trans own below
  | request wanted next ih =>
      rcases own with ⟨inside, resumes | handsOn, goesOn⟩
      · exact resumes.elim
      · refine ⟨inside.trans below, .inr handsOn, fun outcome within => ?_⟩
        cases outcome with
        | ok answer => exact ih (.ok answer) (goesOn (.ok answer) fun _ answered => nomatch answered)
        | error cause =>
            rw [handsOn]
            exact within cause rfl

/-- User code that keeps to where it is asked keeps to what is below an origin if asked there. -/
theorem Strategy.Local.within {strategy : Strategy} (own : strategy.Local) (origin : Site) :
    strategy.KeepsTo (.below origin) := by
  induction strategy with
  | supplied cell type supplier =>
      exact fun site below number => (own site number).below below
  | memoizing cell inner discriminator ih => exact ih own
  | conditional inner condition ih => exact ih own
  | enhancing inner enhancer ih =>
      refine ⟨ih own.1, ?_⟩
      cases enhancer with
      | injectFields | injectMethods => exact trivial
      | custom enhance =>
          exact fun site below type value => (own.2 site type value).below below
  | defaultValue | constant | nullValue | optional | collection | map | array | constructor
  | factoryMethod | enumValue | implementation | chain => exact trivial

/-! ## Steps that do not look at the trace -/

/-- The stores are the same but for what was traced. -/
def Store.Retraced (store other : Store) : Prop :=
  ∃ trace, other = { store with trace := trace }

/-- The step gives the same whatever was traced, and leaves the same but for the trace. -/
def Step.Blind {α : Type} (step : Step α) : Prop :=
  ∀ store other, store.Retraced other →
    (step other).1 = (step store).1 ∧ (step store).2.Retraced (step other).2

namespace Step

variable {α β : Type}

theorem Blind.pure (result : α) : Blind (Pure.pure result : Step α) :=
  fun _ _ retraced => ⟨rfl, retraced⟩

theorem Blind.bind {step : Step α} {next : α → Step β} (first : Blind step)
    (second : ∀ result, Blind (next result)) : Blind (step >>= next) := by
  intro store other retraced
  rcases first store other retraced with ⟨same, between⟩
  show ((next (step other).1 (step other).2).1 = _) ∧ Store.Retraced _ (next (step other).1 _).2
  rw [same]
  exact second (step store).1 _ _ between

theorem Blind.record (event : Event) : Blind (Store.record event) := by
  rintro store - ⟨trace, rfl⟩
  exact ⟨rfl, _, rfl⟩

theorem Plain.blind {step : Step α} (plain : Plain step) : Blind step := by
  induction plain with
  | pure result => exact .pure result
  | bind _ _ first second => exact .bind first second
  | record => exact .record _
  | create | note | draw | nextNumber | heed =>
      rintro store - ⟨trace, rfl⟩
      exact ⟨rfl, _, rfl⟩

theorem Blind.settle {remembered : Store → Option (Option α)} {keep : Option α → Store → Store}
    {choose : Step (Option α)}
    (reads : ∀ store trace, remembered { store with trace := trace } = remembered store)
    (keeps : ∀ choice store trace,
      keep choice { store with trace := trace } = { keep choice store with trace := trace })
    (chooses : Blind choose) : Blind (Store.settle remembered keep choose) := by
  rintro store - ⟨trace, rfl⟩
  cases known : remembered store with
  | some choice =>
      have again := (reads store trace).trans known
      rw [Store.settle_of_known known, Store.settle_of_known again]
      exact ⟨rfl, trace, rfl⟩
  | none =>
      have again := (reads store trace).trans known
      rw [Store.settle_of_unknown known, Store.settle_of_unknown again]
      rcases chooses store _ ⟨trace, rfl⟩ with ⟨same, left, retraced⟩
      refine ⟨same, left, ?_⟩
      dsimp only at same retraced ⊢
      rw [same, retraced, keeps]

end Step

namespace Strategy

theorem blind_chosenConstructor (cell : Cell) (selector : Selector Constructor) (site : Site)
    (type : TypeExpr) : (chosenConstructor cell selector site type).Blind := by
  unfold chosenConstructor
  split
  · exact .pure none
  · exact .settle (fun _ _ => rfl) (fun _ _ _ => rfl)
      (Course.plain_pick cell _ selector site _).blind

theorem blind_chosenMethod (cell : Cell) (selector : Selector Method) (site : Site)
    (type : TypeExpr) : (chosenMethod cell selector site type).Blind := by
  unfold chosenMethod
  split
  · exact .pure none
  · exact .settle (fun _ _ => rfl) (fun _ _ _ => rfl)
      (Course.plain_pick cell _ selector site _).blind

end Strategy

/-- Work in the store goes on as it would whatever was traced. -/
theorem Step.Working.blind {α : Type} {cells : Cell → Prop} {step : Step α}
    (working : Working cells step) : step.Blind := by
  induction working with
  | search searching => exact searching.plain.blind
  | bind _ _ first second => exact .bind first second
  | create content => exact (Plain.create content).blind
  | note entry => exact (Plain.note entry).blind
  | number own => exact (Plain.nextNumber _).blind
  | request | compute | recalled => exact .record _
  | constructor own uses site type => exact Strategy.blind_chosenConstructor _ _ site type
  | method own uses site type => exact Strategy.blind_chosenMethod _ _ site type
  | lookUp | memo =>
      rintro store - ⟨trace, rfl⟩
      exact ⟨rfl, trace, rfl⟩

theorem Strategy.blind_accepts (strategy : Strategy) (site : Site) (type : TypeExpr) :
    (strategy.accepts site type).Blind :=
  (Step.working_accepts strategy.ownedBy_all site type).blind

theorem Chain.blind_firstAccepting (strategies : List Strategy) (wanted : Request) :
    (firstAccepting strategies wanted).Blind := by
  induction strategies with
  | nil => exact .pure none
  | cons strategy rest ih =>
      refine .bind (strategy.blind_accepts wanted.site wanted.type) fun accepted => ?_
      cases accepted
      · exact ih
      · exact .pure _

/-! ## Computations put together from pieces -/

/--
The computation is put together from steps that do not look at the trace, walks over
types, errors and requests, where errors and requests come from one site.
-/
inductive Composed (origin : Site) : {α : Type} → (Host → Run α) → Prop where
  | step {α : Type} {step : Nat → Step α} (blind : ∀ length, (step length).Blind) :
      Composed origin fun host => Run.ofStep (step host.length)
  | bounded {α : Type} {computation : Nat → Bounded α} (steady : Steady computation) :
      Composed origin fun host => Run.ofBounded (computation host.depth)
  | fail {α : Type} {cause : StubError} (here : cause.ComesFrom origin) :
      Composed origin fun _ => (Run.fail cause : Run α)
  | resolve {wanted : Request} (here : wanted.site.ComesFrom origin) :
      Composed origin fun host => host.resolve wanted
  | request {wanted : Request} (here : wanted.site.ComesFrom origin) :
      Composed origin fun host => host.request wanted
  | bind {α β : Type} {first : Host → Run α} {next : α → Host → Run β}
      (begins : Composed origin first) (goesOn : ∀ result, Composed origin (next result)) :
      Composed origin fun host => first host >>= fun result => next result host

/-- What is put together in the scope below an origin is put together from these pieces. -/
theorem Operates.composed {origin : Site} {α : Type} {computation : Host → Run α}
    (operates : Operates (.below origin) computation) : Composed origin computation := by
  induction operates with
  | step working => exact .step fun length => (working length).blind
  | bounded steady => exact .bounded steady
  | fail here => exact .fail here
  | resolve here => exact .resolve here
  | attempt _ resumes => exact resumes.elim
  | bind _ _ begins goesOn => exact .bind begins goesOn

namespace Composed

variable {origin site : Site}

theorem callConstructor (below : site.ComesFrom origin) (k : Constructor) (bindings : Bindings)
    (type : TypeExpr) :
    Composed origin fun host => Strategy.callConstructor host k bindings site type :=
  Operates.composed (.callConstructor below k bindings type)

theorem callFactoryMethod (below : site.ComesFrom origin) (m : Method) (bindings : Bindings)
    (type : TypeExpr) :
    Composed origin fun host => Strategy.callFactoryMethod host m bindings site type :=
  Operates.composed (.callFactoryMethod below m bindings type)

/-- All that a strategy does is put together from the pieces. -/
theorem produce {strategy : Strategy} (own : strategy.Local) (below : site.ComesFrom origin)
    (type : TypeExpr) : Composed origin fun host => strategy.produce host site type := by
  have invalid : ∀ cause, (Scope.below origin).fails (.invalidSite cause) :=
    fun _ _ arose => nomatch arose
  exact Operates.composed
    (.produce strategy.ownedBy_all (own.within origin) below (Or.inr invalid))

/-- So is all that a chain does to serve a request, and it comes from the site of the request. -/
theorem resolveFor {chain : Chain} (own : chain.Local) (wanted : Request) :
    Composed wanted.site fun host => chain.resolveFor host wanted := by
  have within : chain.KeepsTo (.below wanted.site) :=
    fun strategy member => (own strategy member).within wanted.site
  exact Operates.composed (.resolveFor chain.ownedBy_all within (.refl _))

end Composed
end TestData
