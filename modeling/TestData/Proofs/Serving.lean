import TestData.Proofs.Chance
import TestData.Proofs.Production

namespace TestData

/-!
# Serving requests on a course

What user code asks for and fails with is open, so a course has to say what it allows
there.  Everything else a strategy may do is known: it keeps to any lenient course
whose host keeps to it, unless it gives up on its request itself.  When it does so is
told by `Strategy.Delivers`: at the heart of its decorators, and at the site at which
the innermost strategy is really asked, that strategy has to accept the request.
-/

namespace Action

/--
The errors an action fails with on its own account are among these.  The error of a request,
or that there is no answer to it, may be handed on as well, whatever it is.
-/
def FailsOnlyIn (allowed : StubError → Prop) : Action → Prop
  | .give _ => True
  | .make _ next => ∀ value, (next value).FailsOnlyIn allowed
  | .request wanted next => ∀ outcome, (next outcome).FailsOnlyIn allowed ∨
      ∃ cause, wanted.demand outcome = .error cause ∧ next outcome = .fail cause
  | .fail cause => allowed cause

theorem failsOnlyIn_all (action : Action) : action.FailsOnlyIn fun _ => True := by
  induction action with
  | give value => exact trivial
  | make content next ih => exact ih
  | request wanted next ih => exact fun outcome => .inl (ih outcome)
  | fail cause => exact trivial

end Action

/-- The errors an enhancer fails with on its own account are among these. -/
def Enhancer.FailsOnlyIn (allowed : StubError → Prop) : Enhancer → Prop
  | .injectFields _ | .injectMethods _ => True
  | .custom enhance => ∀ site type value, (enhance site type value).FailsOnlyIn allowed

namespace Strategy

/-- The errors that user code in a strategy fails with on its own account are among these. -/
def FailsOnlyIn (allowed : StubError → Prop) : Strategy → Prop
  | .supplied _ _ supplier => ∀ site number, (supplier site number).FailsOnlyIn allowed
  | .memoizing _ inner _ | .conditional inner _ => inner.FailsOnlyIn allowed
  | .enhancing inner enhancer => inner.FailsOnlyIn allowed ∧ enhancer.FailsOnlyIn allowed
  | _ => True

theorem failsOnlyIn_all (strategy : Strategy) : strategy.FailsOnlyIn fun _ => True := by
  induction strategy with
  | supplied cell type supplier => exact fun site number => Action.failsOnlyIn_all _
  | memoizing cell inner discriminator ih => exact ih
  | conditional inner condition ih => exact ih
  | enhancing inner enhancer ih =>
      refine ⟨ih, ?_⟩
      cases enhancer with
      | injectFields | injectMethods => exact trivial
      | custom enhance => exact fun site type value => Action.failsOnlyIn_all _
  | defaultValue | constant | nullValue | optional | collection | map | array | constructor
  | factoryMethod | enumValue | implementation | chain => exact trivial

/--
Asked to make something in this store, the strategy does not give up itself: a memo is
at hand, or the strategy inside all decorators accepts the type at the site that it is
asked for.  Each memory asks for its contents at a site of its own.
-/
def Delivers (store : Store) : Strategy → Site → TypeExpr → Prop
  | .memoizing cell inner discriminator, site, type =>
      (store.memos.find? (cell, discriminator.key site type)).isSome = true ∨
        inner.Delivers store site.memoizing type
  | .conditional inner _, site, type => inner.Delivers store site type
  | .enhancing inner _, site, type => inner.Delivers store site type
  | strategy, site, type => (strategy.accepts site type store).1 = true

end Strategy

/-! ## Whether something is chosen does not depend on the store -/

namespace Strategy

/-- Whether there is a choice depends on what is remembered, and on whether one can be made. -/
theorem isSome_settle {α : Type} {remembered : Store → Option (Option α)}
    {keep : Option α → Store → Store} {choose : Step (Option α)} {store other : Store}
    (same : remembered other = remembered store)
    (alike : ∀ store other, (choose store).1.isSome = (choose other).1.isSome) :
    (Store.settle remembered keep choose store).1.isSome =
      (Store.settle remembered keep choose other).1.isSome := by
  cases known : remembered store with
  | some choice =>
      rw [Store.settle_of_known known, Store.settle_of_known (same.trans known)]
  | none =>
      rw [Store.settle_of_unknown known, Store.settle_of_unknown (same.trans known)]
      exact alike store other

theorem isSome_chosenConstructor (cell : Cell) (selector : Selector Constructor) (site : Site)
    (type : TypeExpr) {store other : Store} (same : other.constructors = store.constructors) :
    (chosenConstructor cell selector site type store).1.isSome =
      (chosenConstructor cell selector site type other).1.isSome := by
  unfold chosenConstructor
  cases constructedClass? type with
  | none => rfl
  | some c =>
      apply isSome_settle (congrArg (Table.find? · (cell, c.name)) same)
      intro store other
      exact Selector.isSome_selectFrom selector site c.usableConstructors _ _

theorem isSome_chosenMethod (cell : Cell) (selector : Selector Method) (site : Site)
    (type : TypeExpr) {store other : Store} (same : other.methods = store.methods) :
    (chosenMethod cell selector site type store).1.isSome =
      (chosenMethod cell selector site type other).1.isSome := by
  unfold chosenMethod
  cases manufacturedClass? type with
  | none => rfl
  | some c =>
      apply isSome_settle (congrArg (Table.find? · (cell, c.name)) same)
      intro store other
      exact Selector.isSome_selectFrom selector site c.factoryMethods _ _

theorem isSome_chosenConstant (selector : Selector Value) (site : Site) (type : TypeExpr)
    (store other : Store) :
    (chosenConstant selector site type store).1.isSome =
      (chosenConstant selector site type other).1.isSome := by
  unfold chosenConstant
  rcases type.unwrap with _ | (c | _ | _ | _ | _)
  · rfl
  · dsimp only
    by_cases enum : c.isEnum = true
    · rw [if_pos enum]
      exact Selector.isSome_selectFrom selector site c.constants store other
    · rw [if_neg enum]
      rfl
  · rfl
  · rfl
  · rfl
  · rfl

/-- Whether a strategy delivers depends on what is remembered alone. -/
theorem delivers_congr {store other : Store} (alike : store.Alike other) (strategy : Strategy)
    (site : Site) (type : TypeExpr) :
    strategy.Delivers store site type ↔ strategy.Delivers other site type := by
  induction strategy generalizing site with
  | defaultValue | constant | supplied | nullValue | optional | collection | map | array
  | implementation | chain => exact Iff.rfl
  | constructor cell selector =>
      exact Bool.eq_iff_iff.mp (isSome_chosenConstructor cell selector site type alike.constructors)
  | factoryMethod cell selector =>
      exact Bool.eq_iff_iff.mp (isSome_chosenMethod cell selector site type alike.methods)
  | enumValue selector =>
      exact Bool.eq_iff_iff.mp (isSome_chosenConstant selector site type store other)
  | memoizing cell inner discriminator ih =>
      unfold Delivers
      rw [alike.memos, ih site.memoizing]
  | conditional inner condition ih => exact ih site
  | enhancing inner enhancer ih => exact ih site

end Strategy

/-! ## Strategies of any make -/

namespace Course

variable {course : Course} {host : Host} {allowed : StubError → Prop}

/-- The course is lenient, the host keeps to it, and user code may fail in the allowed ways. -/
structure Hosts (course : Course) (host : Host) (allowed : StubError → Prop) : Prop where
  lenient : course.Lenient
  serves (wanted : Request) : course.Serves host wanted
  fails {cause : StubError} (ok : allowed cause) (store : Store) :
    course.fails store (.error cause) store

theorem keeps_action (hosts : course.Hosts host allowed) {action : Action}
    (own : action.FailsOnlyIn allowed) (store : Store) : course.Keeps (action.run host) store := by
  induction action generalizing store with
  | give value => exact keeps_pure value store
  | make content next ih =>
      have admitted : course.Admits (Store.create content) store :=
        admits_plain (.create content) store
      exact keeps_step_bind rfl admitted (ih _ (own _) _)
  | request wanted next ih =>
      refine keeps_attempt_bind (hosts.serves wanted) (fun outcome => ?_) store
      rcases own outcome with fails | ⟨cause, missing, handsOn⟩
      · exact .inl (ih outcome fails)
      · exact .inr ⟨cause, missing, by rw [handsOn, Action.run]⟩
  | fail cause => exact keeps_throw (hosts.fails own store)

theorem keeps_fillFields (hosts : course.Hosts host allowed) (matcher : Matcher Field)
    (bindings : Bindings) (site : Site) (type : TypeExpr) (target : Value) (fields : List Field)
    (store : Store) :
    course.Keeps (Enhancer.fillFields host matcher bindings site type target fields) store := by
  induction fields generalizing store with
  | nil => exact keeps_pure () store
  | cons f rest ih =>
      have admitted : course.Admits (Store.heed (matcher site f)) store :=
        admits_plain (.heed _) store
      rcases taken : Store.heed (matcher site f) store with ⟨holds, heeded⟩
      apply keeps_step_bind taken admitted
      cases holds with
      | false => exact ih heeded
      | true =>
          refine keeps_bind ((hosts.serves _).request heeded) fun value served _ => ?_
          have sets : course.Admits (Store.carryOutSetter (f.assign target value)) served :=
            admits_plain (Step.plain_carryOutSetter _) served
          rcases set : Store.carryOutSetter (f.assign target value) served
            with ⟨message | done, after⟩
          · exact keeps_step_bind set sets (keeps_throw (course.fails_ordinary after rfl))
          · exact keeps_step_bind set sets (ih after)

theorem keeps_callMethods (hosts : course.Hosts host allowed) (bindings : Bindings) (site : Site)
    (type : TypeExpr) (target : Value) (methods : List Method) (store : Store) :
    course.Keeps (Enhancer.callMethods host bindings site type target methods) store := by
  induction methods generalizing store with
  | nil => exact keeps_pure () store
  | cons m rest ih =>
      have asks : ∀ parameter ∈ m.parameters, ∀ site,
          course.Serves host ⟨bindings.resolve parameter.type, site⟩ :=
        fun _ _ _ => hosts.serves _
      refine keeps_bind (keeps_requestArguments asks store) fun arguments served _ => ?_
      have calls : course.Admits (Store.carryOut (m.call (some target) arguments)) served :=
        admits_plain (Step.plain_carryOut _) served
      rcases called : Store.carryOut (m.call (some target) arguments) served
        with ⟨message | value, after⟩
      · exact keeps_step_bind called calls (keeps_throw (course.fails_ordinary after rfl))
      · exact keeps_step_bind called calls (ih after)

theorem keeps_enhance (hosts : course.Hosts host allowed) {enhancer : Enhancer}
    (own : enhancer.FailsOnlyIn allowed) (site : Site) (type : TypeExpr) (value : Value)
    (store : Store) : course.Keeps (enhancer.enhance host site type value) store := by
  have collects : ∀ store, course.Keeps (Run.ofBounded (Bindings.ofType host.depth type)) store :=
    fun store => keeps_ofBounded fun _ => hosts.lenient.exhausts store
  cases enhancer with
  | injectFields matcher =>
      rw [Enhancer.enhance]
      split
      · exact keeps_pure value store
      · split
        · exact keeps_pure value store
        · refine keeps_bind (collects store) fun bindings between _ => ?_
          exact keeps_bind (keeps_fillFields hosts matcher bindings site type value _ between)
            fun _ after _ => keeps_pure value after
  | injectMethods matcher =>
      rw [Enhancer.enhance]
      split
      · exact keeps_pure value store
      · refine keeps_bind (collects store) fun bindings between _ => ?_
        have finds : course.Admits (Enhancer.methodsToCall matcher site type) between :=
          admits_plain (Step.plain_methodsToCall matcher site type) between
        rcases found : Enhancer.methodsToCall matcher site type between with ⟨methods, searched⟩
        apply keeps_step_bind found finds
        exact keeps_bind (keeps_callMethods hosts bindings site type value methods searched)
          fun _ after _ => keeps_pure value after
  | custom enhance => exact keeps_action hosts (own site type value) store

/-- A memo at hand is handed out; otherwise everything rests on what is made now. -/
theorem keeps_recalling {cell : Cell} {key : MemoKey} {make : Run Value} {store : Store}
    (makes : store.memos.find? (cell, key) = none →
      course.Keeps make (Store.record (.computed cell key) store).2) :
    course.Keeps (Strategy.recalling cell key make) store := by
  unfold Keeps
  cases known : store.memos.find? (cell, key) with
  | some value =>
      rw [Strategy.recalling_of_known known]
      exact course.change (.recalling known)
  | none =>
      have begins : course.reaches store (Store.record (.computed cell key) store).2 :=
        course.change (.computing known)
      have kept := makes known
      unfold Keeps at kept
      rw [Strategy.recalling_of_unknown known]
      cases made : make (Store.record (.computed cell key) store).2 with
      | error failure after =>
          rw [made] at kept
          exact course.fails_after begins kept
      | ok value between =>
          rw [made] at kept
          have reached := course.trans begins kept
          dsimp only
          cases nested : between.memos.find? (cell, key) with
          | some first => exact course.trans reached (course.change (.recalling nested))
          | none => exact course.trans reached (course.change (.remembering value nested))

/-- Giving up on a type may happen in every store from this one on. -/
def GivesUp (course : Course) (type : TypeExpr) (store : Store) : Prop :=
  ∀ site after, course.reaches store after →
    course.fails after (.error (.unresolvable type site)) after

theorem GivesUp.here {type : TypeExpr} {store : Store} (givesUp : course.GivesUp type store)
    (site : Site) : course.fails store (.error (.unresolvable type site)) store :=
  givesUp site store (course.refl store)

theorem GivesUp.later {type : TypeExpr} {store after : Store}
    (givesUp : course.GivesUp type store) (reached : course.reaches store after) :
    course.GivesUp type after :=
  fun site last goesOn => givesUp site last (course.trans reached goesOn)

/-- What has found nothing to choose gives up where its search has ended. -/
theorem fails_after_search {α : Type} {choose : Step (Option α)} {type : TypeExpr}
    {store after : Store} (chooses : course.Admits choose store)
    (gives : ¬ (choose store).1.isSome = true → course.GivesUp type store)
    (chosen : choose store = (none, after)) (site : Site) :
    course.fails after (.error (.unresolvable type site)) after := by
  have reached : course.reaches store after := by simpa only [Admits, chosen] using chooses
  exact gives (Step.not_isSome_of_none chosen) site after reached

section Single

variable {site : Site} {type : TypeExpr} {store : Store} {cell : Cell}

/-- The number is taken before the supplier goes to work. -/
theorem keeps_supplied (hosts : course.Hosts host allowed) {expected : TypeExpr}
    {supplier : Site → UInt64 → Action}
    (own : (Strategy.supplied cell expected supplier).FailsOnlyIn allowed)
    (gives : ¬ (Strategy.supplied cell expected supplier).Delivers store site type →
      course.GivesUp type store) :
    course.Keeps ((Strategy.supplied cell expected supplier).produce host site type) store := by
  have counts : course.Admits (Store.nextNumber cell) store := admits_plain (.nextNumber cell) store
  exact keeps_onlyIf (keeps_step_bind rfl counts (keeps_action hosts (own site _) _))
    fun other => (gives other).here site

theorem keeps_constructor (hosts : course.Hosts host allowed) {selector : Selector Constructor}
    (gives : ¬ (Strategy.constructor cell selector).Delivers store site type →
      course.GivesUp type store) :
    course.Keeps ((Strategy.constructor cell selector).produce host site type) store := by
  have chooses : course.Admits (Strategy.chosenConstructor cell selector site type) store :=
    admits_chosenConstructor fun c _ between => hosts.lenient.constructors _ _ _
  exact keeps_produceByConstructor chooses (fun _ _ _ _ _ _ _ _ => hosts.serves _)
    (fun _ after _ _ => hosts.lenient.exhausts after)
    fun after chosen => fails_after_search chooses gives chosen site

theorem keeps_factoryMethod (hosts : course.Hosts host allowed) {selector : Selector Method}
    (gives : ¬ (Strategy.factoryMethod cell selector).Delivers store site type →
      course.GivesUp type store) :
    course.Keeps ((Strategy.factoryMethod cell selector).produce host site type) store := by
  have chooses : course.Admits (Strategy.chosenMethod cell selector site type) store :=
    admits_chosenMethod fun c _ between => hosts.lenient.methods _ _ _
  exact keeps_produceByMethod chooses (fun _ _ _ _ _ _ _ _ _ _ => hosts.serves _)
    (fun _ after _ _ => hosts.lenient.exhausts after)
    fun after chosen => fails_after_search chooses gives chosen site

/-- Without a memo at hand, what a memory makes rests on its inner strategy at the site below. -/
theorem keeps_memoizing {inner : Strategy} {discriminator : Discriminator}
    (makes : ∀ {store : Store},
      (¬ inner.Delivers store site.memoizing type → course.GivesUp type store) →
        course.Keeps (inner.produce host site.memoizing type) store)
    (gives : ¬ (Strategy.memoizing cell inner discriminator).Delivers store site type →
      course.GivesUp type store) :
    course.Keeps ((Strategy.memoizing cell inner discriminator).produce host site type) store := by
  refine keeps_recalling fun unknown => makes fun declines => ?_
  let computing := (Store.record (.computed cell (discriminator.key site type)) store).2
  have begins : course.reaches store computing := course.change (.computing unknown)
  have alike : store.Alike computing := ⟨rfl, rfl, rfl⟩
  have outer : ¬ (Strategy.memoizing cell inner discriminator).Delivers store site type := by
    rintro (known | delivers)
    · rw [unknown] at known
      cases known
    · exact declines ((Strategy.delivers_congr alike inner _ type).mp delivers)
  exact (gives outer).later begins

end Single

/--
What a strategy does keeps to a course that allows it to give up where it does not
deliver.  The induction goes through the decorators; a memory passes on the question
whether its inner strategy delivers to the site at which it asks for its contents.
-/
theorem keeps_produce (hosts : course.Hosts host allowed) {strategy : Strategy}
    (own : strategy.FailsOnlyIn allowed) {site : Site} {type : TypeExpr} {store : Store}
    (gives : ¬ strategy.Delivers store site type → course.GivesUp type store) :
    course.Keeps (strategy.produce host site type) store := by
  induction strategy generalizing site store with
  | defaultValue =>
      refine keeps_defaultValue fun none => ?_
      have declines : ¬ Strategy.defaultValue.Delivers store site type := by
        simp [Strategy.Delivers, Strategy.accepts, none, Step.pure_apply]
      exact (gives declines).here site
  | constant expected value =>
      exact keeps_onlyIf (keeps_pure value store) fun other => (gives other).here site
  | supplied cell expected supplier => exact keeps_supplied hosts own gives
  | nullValue =>
      exact keeps_onlyIf (keeps_pure Value.null store) fun other => (gives other).here site
  | optional mode =>
      exact keeps_produceOptional (fun _ _ _ _ _ _ => hosts.serves _)
        fun declines => (gives (Bool.eq_false_iff.mp declines)).here site
  | collection c build size =>
      exact keeps_produceCollection (fun _ _ _ _ _ _ => hosts.serves _)
        fun declines => (gives (Bool.eq_false_iff.mp declines)).here site
  | map c build size =>
      exact keeps_produceMap (fun _ _ _ _ _ _ => hosts.serves _)
        fun declines => (gives (Bool.eq_false_iff.mp declines)).here site
  | array size =>
      refine keeps_produceArray (fun _ _ _ => hosts.serves _) fun none => ?_
      have declines : ¬ (Strategy.array size).Delivers store site type := by
        simp [Strategy.Delivers, Strategy.accepts, none, Step.pure_apply]
      exact (gives declines).here site
  | constructor cell selector => exact keeps_constructor hosts gives
  | factoryMethod cell selector => exact keeps_factoryMethod hosts gives
  | enumValue selector =>
      have chooses : course.Admits (Strategy.chosenConstant selector site type) store :=
        admits_plain (Step.plain_chosenConstant selector site type) store
      exact keeps_enumValue fun after chosen => fails_after_search chooses gives chosen site
  | implementation target substitute =>
      have serves := (hosts.serves ⟨substitute, site⟩).request store
      exact keeps_onlyIf serves fun other => (gives other).here site
  | chain => exact keeps_onlyIf (keeps_create _ store) fun other => (gives other).here site
  | memoizing cell inner discriminator ih => exact keeps_memoizing (ih own) gives
  | conditional inner condition ih => exact ih own gives
  | enhancing inner enhancer ih =>
      exact keeps_bind (ih own.1 gives) fun value after _ =>
        keeps_enhance hosts own.2 site type value after

/-- A chain keeps to a course on which its strategies accept, and make what they accepted. -/
theorem keeps_resolveFor {chain : Chain} {wanted : Request} {store : Store}
    (accepts : ∀ strategy ∈ chain.strategies, ∀ store,
      course.Admits (strategy.accepts wanted.site wanted.type) store)
    (serves : ∀ strategy accepted,
      Chain.firstAccepting chain.strategies wanted
        (Store.record (.requested wanted.type wanted.site) store).2 = (some strategy, accepted) →
      course.Keeps (strategy.produce host wanted.site wanted.type) accepted) :
    course.Keeps (chain.resolveFor host wanted) store := by
  have records : course.Admits (Store.record (.requested wanted.type wanted.site)) store :=
    admits_plain (.record rfl) store
  have asks : ∀ store, course.Admits (Chain.firstAccepting chain.strategies wanted) store :=
    fun store => admits_firstAccepting accepts
  refine keeps_step_bind rfl records ?_
  rcases found : Chain.firstAccepting chain.strategies wanted
    (Store.record (.requested wanted.type wanted.site) store).2 with ⟨_ | strategy, accepted⟩
  · exact keeps_step_bind found (asks _) (keeps_pure none accepted)
  · apply keeps_step_bind found (asks _)
    exact keeps_bind (serves strategy accepted found) fun value after _ => keeps_pure _ after

end Course

namespace Chain

theorem mem_of_firstAccepting {strategies : List Strategy} {wanted : Request}
    {strategy : Strategy} {store accepted : Store}
    (found : firstAccepting strategies wanted store = (some strategy, accepted)) :
    strategy ∈ strategies ∧ ∃ before,
      strategy.accepts wanted.site wanted.type before = (true, accepted) := by
  induction strategies generalizing store with
  | nil => cases found
  | cons first rest ih =>
      simp only [firstAccepting, bind, StateT.bind] at found
      rcases accepts : first.accepts wanted.site wanted.type store with ⟨_ | _, between⟩
      · rw [accepts] at found
        rcases ih found with ⟨member, before, accepted⟩
        exact ⟨List.mem_cons_of_mem _ member, before, accepted⟩
      · rw [accepts] at found
        cases found
        exact ⟨List.mem_cons_self, store, accepts⟩

/-- A chain has no answer only if none of its strategies accepted the request. -/
theorem declined_of_resolveFor {chain : Chain} {host : Host} {wanted : Request}
    {store after : Store} (outcome : chain.resolveFor host wanted store = .ok none after) :
    firstAccepting chain.strategies wanted
      (Store.record (.requested wanted.type wanted.site) store).2 = (none, after) := by
  rcases found : firstAccepting chain.strategies wanted
    (Store.record (.requested wanted.type wanted.site) store).2 with ⟨_ | strategy, accepted⟩
  · rw [resolveFor_of_declined found] at outcome
    cases outcome
    rfl
  · rw [resolveFor_of_found found] at outcome
    simp only [Functor.map, EStateM.map] at outcome
    cases made : strategy.produce host wanted.site wanted.type accepted with
    | ok value last => simp only [made] at outcome; cases outcome
    | error failure last => simp only [made] at outcome; cases outcome

end Chain

namespace Course

variable {course : Course} {allowed : StubError → Prop}

/--
By induction on the depth: a chain is a host that keeps to the course if it keeps to the
course with every such host behind it.
-/
theorem hosts_hostWithin {chain : Chain} (lenient : course.Lenient)
    (fails : ∀ {cause}, allowed cause → ∀ store, course.fails store (.error cause) store)
    (declines : ∀ wanted store after,
      Chain.firstAccepting chain.strategies wanted
        (Store.record (.requested wanted.type wanted.site) store).2 = (none, after) →
      course.fails store (.error (.unresolvable wanted.type wanted.site)) after)
    (serves : ∀ host, course.Hosts host allowed → ∀ wanted store,
      course.Keeps (chain.resolveFor host wanted) store)
    (depth : Nat) : course.Hosts (chain.hostWithin depth) allowed := by
  induction depth with
  | zero =>
      have exhausts : ∀ wanted store,
          course.Keeps ((chain.hostWithin 0).resolve wanted) store :=
        fun wanted store => keeps_throw (lenient.exhausts store)
      refine ⟨lenient, fun wanted => ?_, fails⟩
      exact serves_of_resolve (exhausts wanted) fun store after outcome => nomatch outcome
  | succ depth hosts =>
      refine ⟨lenient, fun wanted => ?_, fails⟩
      refine serves_of_resolve (serves _ hosts wanted) fun store after outcome => ?_
      exact declines wanted store after (Chain.declined_of_resolveFor outcome)

end Course
end TestData
