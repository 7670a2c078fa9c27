import TestData.Proofs.Serving
import TestData.Matcher.Site

namespace TestData

/-!
# What acceptance promises

A strategy that has accepted a request should be able to serve it.  For strategies
without a memory this is so, however their selectors, sizes and conditions look at the
site: what they pick for a class is settled when they accept.  A memory asks its inner
strategy for acceptance at one site and for the stub at another, and the two answers may
differ.  `Strategy.Delivers` tells the two cases apart exactly, and every error that a
chain ends in because of a request nobody serves is traced back to one of its causes.
-/

/-- A run ended because a request could not be served. -/
def Failure.isUnresolvable : Failure → Bool
  | .error cause => cause.isUnresolvable
  | .exhausted => false

/-- User code in the strategy does not itself claim that a request cannot be served. -/
def Strategy.Honest (strategy : Strategy) : Prop :=
  strategy.FailsOnlyIn fun cause => cause.isUnresolvable = false

/-- The host has an answer to every request, or fails for a reason of another kind. -/
def Host.Answers (host : Host) : Prop :=
  ∀ wanted store,
    match host.resolve wanted store with
    | .ok answer _ => answer.isSome = true
    | .error failure _ => failure.isUnresolvable = false

namespace Course

/-- Nothing matters but that no request goes unserved. -/
def served : Course where
  reaches _ _ := True
  fails _ failure _ := failure.isUnresolvable = false
  refl _ := trivial
  trans _ _ := trivial
  reaches_of_fails _ := trivial
  fails_after _ fails := fails
  change _ := trivial
  fails_ordinary _ _ ordinary := ordinary

theorem served_hosts {host : Host} (answers : host.Answers) :
    served.Hosts host fun cause => cause.isUnresolvable = false where
  lenient := ⟨fun _ _ _ => trivial, fun _ _ _ => trivial, fun _ => rfl⟩
  fails ok _ := ok
  serves wanted := by
    refine serves_of_resolve (fun store => ?_) fun store after outcome => ?_
    · have answer := answers wanted store
      unfold Keeps
      cases outcome : host.resolve wanted store with
      | ok result after => exact trivial
      | error failure after => rwa [outcome] at answer
    · have answer := answers wanted store
      rw [outcome] at answer
      cases answer

end Course

namespace Strategy

/-- A strategy that delivers does not give up as long as its own requests are answered. -/
theorem not_unresolvable_of_delivers {strategy : Strategy} (honest : strategy.Honest)
    {host : Host} (answers : host.Answers) {site : Site} {type : TypeExpr} {store after : Store}
    (delivers : strategy.Delivers store site type) {failure : Failure}
    (outcome : strategy.produce host site type store = .error failure after) :
    failure.isUnresolvable = false := by
  have kept : Course.served.Keeps (strategy.produce host site type) store :=
    Course.keeps_produce (Course.served_hosts answers) honest fun declines =>
      absurd delivers declines
  unfold Course.Keeps at kept
  rwa [outcome] at kept

/-! ## Giving up after having accepted -/

theorem chosenConstructor_settled {cell : Cell} {selector : Selector Constructor} {site : Site}
    {type : TypeExpr} {k : Constructor} {before accepted : Store}
    (chosen : chosenConstructor cell selector site type before = (some k, accepted))
    {store : Store} (alike : accepted.Alike store) (other : Site) :
    chosenConstructor cell selector other type store = (some k, store) := by
  unfold chosenConstructor at chosen ⊢
  cases constructed : constructedClass? type with
  | none => rw [constructed] at chosen; cases chosen
  | some c =>
      rw [constructed] at chosen
      dsimp only at chosen ⊢
      have settled : accepted.constructors.find? (cell, c.name) = some (some k) :=
        Store.remembered_of_settle (fun _ _ => Table.find?_insert_self _ _ _) chosen
      exact Store.settle_of_known (alike.constructors ▸ settled) _ _

theorem chosenMethod_settled {cell : Cell} {selector : Selector Method} {site : Site}
    {type : TypeExpr} {m : Method} {before accepted : Store}
    (chosen : chosenMethod cell selector site type before = (some m, accepted))
    {store : Store} (alike : accepted.Alike store) (other : Site) :
    chosenMethod cell selector other type store = (some m, store) := by
  unfold chosenMethod at chosen ⊢
  cases manufactured : manufacturedClass? type with
  | none => rw [manufactured] at chosen; cases chosen
  | some c =>
      rw [manufactured] at chosen
      dsimp only at chosen ⊢
      have settled : accepted.methods.find? (cell, c.name) = some (some m) :=
        Store.remembered_of_settle (fun _ _ => Table.find?_insert_self _ _ _) chosen
      exact Store.settle_of_known (alike.methods ▸ settled) _ _

/-- A strategy that goes by the type alone cannot accept in one place and decline in another. -/
theorem absurd_of_pure {P : Prop} {answer : Bool} {before accepted : Store}
    (accepts : (pure answer : Step Bool) before = (true, accepted)) (declines : ¬ answer = true) :
    P := by
  cases accepts
  exact absurd rfl declines

theorem accepts_of_conditional {inner : Strategy} {condition : Matcher TypeExpr} {site : Site}
    {type : TypeExpr} {before accepted : Store}
    (accepts : (conditional inner condition).accepts site type before = (true, accepted)) :
    ∃ between, inner.accepts site type before = (true, between) ∧ between.Alike accepted := by
  simp only [Strategy.accepts, bind, StateT.bind] at accepts
  rcases answer : inner.accepts site type before with ⟨_ | _, between⟩
  · rw [answer] at accepts
    cases accepts
  · rw [answer] at accepts
    rcases Prod.mk.inj accepts with ⟨-, rfl⟩
    exact ⟨between, rfl, rfl, rfl, rfl⟩

/-- Of a shape that was accepted, only a bare class can be too large elsewhere. -/
theorem shape?_of_acceptsShape {type : TypeExpr} {c : Class} {arity size other : Nat}
    (accepts : acceptsShape type c arity size = true)
    (declines : ¬ acceptsShape type c arity other = true) :
    type.shape? c arity = some .raw ∧ (other == 0) = false := by
  unfold acceptsShape at accepts declines
  cases shape : type.shape? c arity with
  | none => rw [shape] at accepts; cases accepts
  | some form =>
      rw [shape] at declines
      cases form with
      | raw => exact ⟨rfl, Bool.eq_false_iff.mpr declines⟩
      | applied raw arguments => exact absurd rfl declines

/-- The constructor settled on when accepting is there at every site. -/
theorem delivers_constructor {cell : Cell} {selector : Selector Constructor} {asked : Site}
    {type : TypeExpr} {before accepted store : Store}
    (accepts : (constructor cell selector).accepts asked type before = (true, accepted))
    (alike : accepted.Alike store) (site : Site) :
    (constructor cell selector).Delivers store site type := by
  rcases chosen : chosenConstructor cell selector asked type before with ⟨_ | k, settled⟩
  · simp only [Strategy.accepts, bind, StateT.bind, chosen] at accepts
    cases accepts
  · simp only [Strategy.accepts, bind, StateT.bind, chosen] at accepts
    rcases Prod.mk.inj accepts with ⟨-, rfl⟩
    simp only [Delivers, Strategy.accepts, bind, StateT.bind,
      chosenConstructor_settled chosen alike site]
    rfl

/-- The factory method settled on when accepting is there at every site. -/
theorem delivers_factoryMethod {cell : Cell} {selector : Selector Method} {asked : Site}
    {type : TypeExpr} {before accepted store : Store}
    (accepts : (factoryMethod cell selector).accepts asked type before = (true, accepted))
    (alike : accepted.Alike store) (site : Site) :
    (factoryMethod cell selector).Delivers store site type := by
  rcases chosen : chosenMethod cell selector asked type before with ⟨_ | m, settled⟩
  · simp only [Strategy.accepts, bind, StateT.bind, chosen] at accepts
    cases accepts
  · simp only [Strategy.accepts, bind, StateT.bind, chosen] at accepts
    rcases Prod.mk.inj accepts with ⟨-, rfl⟩
    simp only [Delivers, Strategy.accepts, bind, StateT.bind,
      chosenMethod_settled chosen alike site]
    rfl

/--
A strategy that has accepted a request, at whatever site, and does not deliver gives up
at once: no host is asked for anything.  The induction follows the memories inwards.
-/
theorem gives_up_of_accepts {strategy : Strategy} {asked site : Site} {type : TypeExpr}
    {before accepted store : Store}
    (accepts : strategy.accepts asked type before = (true, accepted))
    (alike : accepted.Alike store) (declines : ¬ strategy.Delivers store site type) :
    ∃ last after, ∀ host, strategy.produce host site type store =
      .error (.error (.unresolvable type last)) after := by
  induction strategy generalizing site store accepted with
  | defaultValue | constant | supplied | nullValue | optional | array | implementation | chain =>
      exact absurd_of_pure accepts declines
  | collection c build size =>
      have accepted : acceptsShape type c 1 (size.at asked) = true := congrArg Prod.fst accepts
      rcases shape?_of_acceptsShape accepted declines with ⟨shape, nonempty⟩
      refine ⟨site, store, fun host => ?_⟩
      rw [produce, produceCollection, shape]
      dsimp only
      rw [nonempty]
      rfl
  | map c build size =>
      have accepted : acceptsShape type c 2 (size.at asked) = true := congrArg Prod.fst accepts
      rcases shape?_of_acceptsShape accepted declines with ⟨shape, nonempty⟩
      refine ⟨site, store, fun host => ?_⟩
      rw [produce, produceMap, shape]
      dsimp only
      rw [nonempty]
      rfl
  | constructor cell selector => exact absurd (delivers_constructor accepts alike site) declines
  | factoryMethod cell selector => exact absurd (delivers_factoryMethod accepts alike site) declines
  | enumValue selector =>
      rcases chosen : chosenConstant selector site type store with ⟨_ | value, after⟩
      · refine ⟨site, after, fun host => ?_⟩
        simp only [produce, bind, EStateM.bind, liftM, monadLift, MonadLift.monadLift,
          Run.ofStep_apply, chosen]
        rfl
      · refine absurd ?_ declines
        simp only [Delivers, Strategy.accepts, bind, StateT.bind, chosen]
        rfl
  | memoizing cell inner discriminator ih =>
      have unknown : store.memos.find? (cell, discriminator.key site type) = none := by
        cases known : store.memos.find? (cell, discriminator.key site type) with
        | none => rfl
        | some value => exact absurd (Or.inl (by rw [known]; rfl)) declines
      let begun := (Store.record (.computed cell (discriminator.key site type)) store).2
      have same : store.Alike begun := ⟨rfl, rfl, rfl⟩
      have innerDeclines : ¬ inner.Delivers begun site.memoizing type := fun delivers =>
        declines (Or.inr ((delivers_congr same inner _ type).mpr delivers))
      rcases ih accepts (alike.trans same) innerDeclines with ⟨last, after, givesUp⟩
      refine ⟨last, after, fun host => ?_⟩
      have whole := recalling_of_unknown unknown (inner.produce host site.memoizing type)
      rw [givesUp host] at whole
      exact whole
  | conditional inner condition ih =>
      rcases accepts_of_conditional accepts with ⟨between, innerAccepts, same⟩
      exact ih innerAccepts (same.trans alike) declines
  | enhancing inner enhancer ih =>
      rcases ih accepts alike declines with ⟨last, after, givesUp⟩
      exact ⟨last, after, fun host => Run.bind_of_error (givesUp host)⟩

/-! ## Strategies that keep their promise -/

/-- Whether the strategy can serve a type does not depend on the site. -/
def SiteBlind : Strategy → Prop
  | .collection _ _ size | .map _ _ size => ∀ site other, size.at site = 0 → size.at other = 0
  | .enumValue selector => ∀ site other type store,
      (chosenConstant selector site type store).1.isSome = true →
      (chosenConstant selector other type store).1.isSome = true
  | .memoizing _ inner _ | .conditional inner _ | .enhancing inner _ => inner.SiteBlind
  | _ => True

/-- What is inside of memories does not depend on the site. -/
def Steady : Strategy → Prop
  | .memoizing _ inner _ => inner.SiteBlind
  | .conditional inner _ | .enhancing inner _ => inner.Steady
  | _ => True

theorem isSome_of_accepts_enumValue {selector : Selector Value} {site : Site} {type : TypeExpr}
    {before accepted : Store}
    (accepts : (enumValue selector).accepts site type before = (true, accepted)) :
    (chosenConstant selector site type before).1.isSome = true :=
  congrArg Prod.fst accepts

theorem delivers_of_siteBlind {strategy : Strategy} (blind : strategy.SiteBlind)
    {asked : Site} {type : TypeExpr} {before accepted store : Store}
    (accepts : strategy.accepts asked type before = (true, accepted))
    (alike : accepted.Alike store) (site : Site) : strategy.Delivers store site type := by
  induction strategy generalizing site store accepted with
  | defaultValue | constant | supplied | nullValue | optional | array | implementation | chain =>
      exact congrArg Prod.fst accepts
  | collection c build size | map c build size =>
      refine Classical.byContradiction fun declines => ?_
      have accepted := congrArg Prod.fst accepts
      rcases shape?_of_acceptsShape accepted declines with ⟨shape, nonempty⟩
      have empty : size.at asked = 0 := by
        change acceptsShape type c _ (size.at asked) = true at accepted
        unfold acceptsShape at accepted
        rw [shape] at accepted
        exact beq_iff_eq.mp accepted
      rw [blind asked site empty] at nonempty
      cases nonempty
  | constructor cell selector => exact delivers_constructor accepts alike site
  | factoryMethod cell selector => exact delivers_factoryMethod accepts alike site
  | enumValue selector =>
      have picked := isSome_of_accepts_enumValue accepts
      have here := blind asked site type before picked
      exact (isSome_chosenConstant selector site type store before).trans here
  | memoizing cell inner discriminator ih =>
      exact Or.inr (ih blind accepts alike site.memoizing)
  | conditional inner condition ih =>
      rcases accepts_of_conditional accepts with ⟨between, innerAccepts, same⟩
      exact ih blind innerAccepts (same.trans alike) site
  | enhancing inner enhancer ih => exact ih blind accepts alike site

/-- A steady strategy delivers what it has accepted. -/
theorem delivers_of_accepts {strategy : Strategy} (steady : strategy.Steady)
    {site : Site} {type : TypeExpr} {before accepted store : Store}
    (accepts : strategy.accepts site type before = (true, accepted))
    (alike : accepted.Alike store) : strategy.Delivers store site type := by
  induction strategy generalizing store accepted with
  | defaultValue | constant | supplied | nullValue | optional | collection | map | array
  | implementation | chain => exact congrArg Prod.fst accepts
  | constructor cell selector => exact delivers_constructor accepts alike site
  | factoryMethod cell selector => exact delivers_factoryMethod accepts alike site
  | enumValue selector =>
      have picked := isSome_of_accepts_enumValue accepts
      exact (isSome_chosenConstant selector site type store before).trans picked
  | memoizing cell inner discriminator ih =>
      exact Or.inr (delivers_of_siteBlind steady accepts alike site.memoizing)
  | conditional inner condition ih =>
      rcases accepts_of_conditional accepts with ⟨between, innerAccepts, same⟩
      exact ih steady innerAccepts (same.trans alike)
  | enhancing inner enhancer ih => exact ih steady accepts alike

end Strategy

/-! ## Where an unserved request comes from -/

namespace Chain

/--
After the start, a request of the type at the site was made, none of the strategies
accepted it, and nothing happened since then.
-/
def Declines (chain : Chain) (start : List Event) (type : TypeExpr) (site : Site)
    (after : Store) : Prop :=
  ∃ asked earlier, asked.trace = .requested type site :: (earlier ++ start) ∧
    firstAccepting chain.strategies ⟨type, site⟩ asked = (none, after)

/--
After the start, a request of the type was made, and the strategy that accepted it gave
up at once, with this site in its error and this store left behind.
-/
def Breaks (chain : Chain) (start : List Event) (type : TypeExpr) (site : Site)
    (after : Store) : Prop :=
  ∃ wanted asked accepted earlier, ∃ strategy : Strategy,
    asked.trace = .requested type wanted :: (earlier ++ start) ∧
    firstAccepting chain.strategies ⟨type, wanted⟩ asked = (some strategy, accepted) ∧
    ¬ strategy.Delivers accepted wanted type ∧
    ∀ host, strategy.produce host wanted type accepted =
      .error (.error (.unresolvable type site)) after

/-- The error is accounted for by what happened after the start. -/
def Accounts (chain : Chain) (start : List Event) (type : TypeExpr) (site : Site)
    (after : Store) : Prop :=
  chain.Declines start type site after ∨ chain.Breaks start type site after

theorem Accounts.of_later {chain : Chain} {start news : List Event} {type : TypeExpr} {site : Site}
    {after : Store} (accounts : chain.Accounts (news ++ start) type site after) :
    chain.Accounts start type site after := by
  rcases accounts with ⟨asked, earlier, trace, none⟩ |
    ⟨wanted, asked, accepted, earlier, strategy, trace, found, declines, givesUp⟩
  · exact Or.inl ⟨asked, earlier ++ news, by rw [trace, List.append_assoc], none⟩
  · exact Or.inr ⟨wanted, asked, accepted, earlier ++ news, strategy,
      by rw [trace, List.append_assoc], found, declines, givesUp⟩

end Chain

/-- Whatever was traced before is still there. -/
def Store.Grows (before after : Store) : Prop :=
  ∃ news, after.trace = news ++ before.trace

theorem Store.Grows.refl (store : Store) : store.Grows store :=
  ⟨[], rfl⟩

theorem Store.Grows.trans {before between after : Store} (first : before.Grows between)
    (second : between.Grows after) : before.Grows after := by
  rcases first with ⟨early, first⟩
  rcases second with ⟨late, second⟩
  exact ⟨late ++ early, by rw [second, first, List.append_assoc]⟩

theorem Store.Change.grows {before after : Store} (change : Store.Change before after) :
    before.Grows after := by
  cases change with
  | quiet quiet =>
      rcases quiet.trace with ⟨news, trace, -⟩
      exact ⟨news, trace⟩
  | computing | recalling | remembering => exact ⟨[_], rfl⟩

namespace Course

/-- The trace only grows, however the run ends. -/
def growing : Course where
  reaches before after := before.Grows after
  fails before _ after := before.Grows after
  refl := .refl
  trans := .trans
  reaches_of_fails grows := grows
  fails_after := .trans
  change change := change.grows
  fails_ordinary store _ _ := .refl store

/-- Every error about an unserved request is accounted for. -/
def accounting (chain : Chain) : Course where
  reaches before after := before.Grows after
  fails before failure after := before.Grows after ∧
    ∀ type site, failure = .error (.unresolvable type site) →
      chain.Accounts before.trace type site after
  refl := .refl
  trans := .trans
  reaches_of_fails fails := fails.1
  fails_after := by
    rintro before between after failure ⟨early, first⟩ ⟨grows, fails⟩
    refine ⟨.trans ⟨early, first⟩ grows, fun type site unresolvable => ?_⟩
    have accounts := fails type site unresolvable
    rw [first] at accounts
    exact accounts.of_later
  change change := change.grows
  fails_ordinary store cause ordinary := by
    refine ⟨.refl store, fun type site unresolvable => ?_⟩
    cases unresolvable
    cases ordinary

theorem growing_lenient : growing.Lenient where
  constructors _ _ _ := ⟨[], rfl⟩
  methods _ _ _ := ⟨[], rfl⟩
  exhausts := .refl

theorem accounting_lenient (chain : Chain) : (accounting chain).Lenient where
  constructors _ _ _ := ⟨[], rfl⟩
  methods _ _ _ := ⟨[], rfl⟩
  exhausts store := ⟨.refl store, fun _ _ unresolvable => nomatch unresolvable⟩

theorem growing_of_accounting {α : Type} {chain : Chain} {computation : Run α} {store : Store}
    (kept : (accounting chain).Keeps computation store) : growing.Keeps computation store := by
  unfold Keeps at kept ⊢
  cases outcome : computation store with
  | ok result after =>
      rw [outcome] at kept
      exact kept
  | error failure after =>
      rw [outcome] at kept
      exact kept.1

/-- Served by a host that accounts for its errors, a chain lets the trace grow. -/
theorem growing_resolveFor {chain : Chain} {host : Host} {allowed : StubError → Prop}
    (hosts : (accounting chain).Hosts host allowed)
    (own : ∀ strategy ∈ chain.strategies, strategy.FailsOnlyIn allowed) (wanted : Request)
    (store : Store) : growing.Keeps (chain.resolveFor host wanted) store := by
  have grows : growing.Hosts host allowed := by
    refine ⟨growing_lenient, fun wanted => ⟨fun store => ?_, fun store => ?_⟩, fun _ => .refl⟩
    · exact growing_of_accounting ((hosts.serves wanted).resolve store)
    · exact growing_of_accounting ((hosts.serves wanted).request store)
  have accepts : ∀ strategy ∈ chain.strategies, ∀ store,
      growing.Admits (strategy.accepts wanted.site wanted.type) store :=
    fun strategy _ => admits_accepts growing_lenient strategy wanted.site wanted.type
  refine keeps_resolveFor accepts fun strategy accepted found => ?_
  have member := (Chain.mem_of_firstAccepting found).1
  exact keeps_produce grows (own strategy member) fun _ _ after _ => .refl after

/-- The acceptor of a request either delivers, or its giving up is accounted for. -/
theorem accounting_resolveFor {chain : Chain} {host : Host} {allowed : StubError → Prop}
    (hosts : (accounting chain).Hosts host allowed)
    (own : ∀ strategy ∈ chain.strategies, strategy.FailsOnlyIn allowed) (wanted : Request)
    (store : Store) : (accounting chain).Keeps (chain.resolveFor host wanted) store := by
  have accepts : ∀ strategy ∈ chain.strategies, ∀ store,
      (accounting chain).Admits (strategy.accepts wanted.site wanted.type) store :=
    fun strategy _ => admits_accepts (accounting_lenient chain) strategy wanted.site wanted.type
  rcases found : Chain.firstAccepting chain.strategies wanted
    (Store.record (.requested wanted.type wanted.site) store).2 with ⟨_ | strategy, accepted⟩
  · refine keeps_resolveFor accepts fun strategy accepted other => ?_
    rw [found] at other
    cases other
  by_cases delivers : strategy.Delivers accepted wanted.site wanted.type
  · refine keeps_resolveFor accepts fun other last same => ?_
    rw [found] at same
    cases same
    have member := (Chain.mem_of_firstAccepting found).1
    exact keeps_produce hosts (own strategy member) fun declines => absurd delivers declines
  · rcases (Chain.mem_of_firstAccepting found).2 with ⟨before, accepts⟩
    rcases Strategy.gives_up_of_accepts accepts ⟨rfl, rfl, rfl⟩ delivers with ⟨last, after, givesUp⟩
    have outcome : chain.resolveFor host wanted store =
        .error (.error (.unresolvable wanted.type last)) after := by
      rw [Chain.resolveFor_of_found found]
      simp only [Functor.map, EStateM.map, givesUp host]
    have grows := growing_resolveFor hosts own wanted store
    unfold Keeps at grows ⊢
    rw [outcome] at grows ⊢
    refine ⟨grows, fun type site unresolvable => ?_⟩
    cases unresolvable
    exact Or.inr ⟨wanted.site, _, accepted, [], strategy, rfl, found, delivers, givesUp⟩

theorem accounting_hosts {chain : Chain} (honest : ∀ strategy ∈ chain.strategies, strategy.Honest)
    (depth : Nat) :
    (accounting chain).Hosts (chain.hostWithin depth) fun cause => cause.isUnresolvable = false := by
  refine hosts_hostWithin (accounting_lenient chain)
    (fun ordinary store => (accounting chain).fails_ordinary store ordinary)
    (fun wanted store after declined => ?_)
    (fun host hosts => accounting_resolveFor hosts honest) depth
  have asks : growing.Admits (Chain.firstAccepting chain.strategies wanted)
      (Store.record (.requested wanted.type wanted.site) store).2 :=
    admits_firstAccepting fun strategy _ =>
      admits_accepts growing_lenient strategy wanted.site wanted.type
  unfold Admits at asks
  rw [declined] at asks
  refine ⟨.trans ⟨[_], rfl⟩ asks, fun type site unresolvable => ?_⟩
  cases unresolvable
  exact Or.inl ⟨_, [], rfl, declined⟩

end Course

/--
After having accepted, a strategy of a chain gives up itself exactly if it does not
deliver, and steady strategies deliver whatever they accept.  An unserved request that
the chain ends in was declined by all of its strategies, or was accepted by one that
does not deliver.
-/
theorem gives_up_iff_not_delivers (chain : Chain) (site : Site) (type : TypeExpr)
    (before : Store) :
    (∀ strategy ∈ chain.strategies, ∀ accepted,
      strategy.accepts site type before = (true, accepted) →
      (∀ host : Host, strategy.Honest → host.Answers →
        ((∃ wanted last after, strategy.produce host site type accepted =
            .error (.error (.unresolvable wanted last)) after) ↔
          ¬ strategy.Delivers accepted site type)) ∧
      (strategy.Steady → strategy.Delivers accepted site type)) ∧
    ∀ (depth : Nat) (wanted : Request) (after : Store),
      (∀ strategy ∈ chain.strategies, strategy.Honest) →
      (chain.hostWithin depth).request wanted before =
        .error (.error (.unresolvable type site)) after →
      chain.Declines before.trace type site after ∨ chain.Breaks before.trace type site after := by
  refine ⟨fun strategy _ accepted accepts => ⟨?_, ?_⟩, ?_⟩
  · intro host honest answers
    constructor
    · rintro ⟨wanted, last, after, outcome⟩ delivers
      have other := Strategy.not_unresolvable_of_delivers honest answers delivers outcome
      cases other
    · intro declines
      rcases Strategy.gives_up_of_accepts accepts ⟨rfl, rfl, rfl⟩ declines
        with ⟨last, after, givesUp⟩
      exact ⟨type, last, after, givesUp host⟩
  · intro steady
    exact Strategy.delivers_of_accepts steady accepts ⟨rfl, rfl, rfl⟩
  · intro depth wanted after honest outcome
    have kept := ((Course.accounting_hosts honest depth).serves wanted).request before
    unfold Course.Keeps at kept
    rw [outcome] at kept
    exact kept.2 type site rfl

/--
An enum constant that is picked only at sites named `p` is accepted at such a site.  In
a memory it is then asked for at a site below that one, which has no name: the memory
gives up, and so does the chain that consists of it.  Without the memory it delivers.
-/
theorem memoized_enumValue_gives_up :
    let letters := (Class.named "Letters").withConstant (.object 0 (.text "a"))
    let site := Site.unknown.injectedField ⟨"Keeper", { name := "p", type := .plain letters }⟩
    let picky : Strategy := .enumValue (.unique (Matcher.siteNamed "p"))
    let memory : Strategy := .memoizing ⟨0⟩ picky .byType
    let host : Host := ⟨fun _ => pure (some .null), 0, 0⟩
    memory.accepts site (.plain letters) {} = (true, {}) ∧
    (∃ wanted last after, memory.produce host site (.plain letters) {} =
      .error (.error (.unresolvable wanted last)) after) ∧
    (∃ after, (Chain.mk [memory]).Accounts [] (.plain letters) site.memoizing after) ∧
    picky.Delivers {} site (.plain letters) := by
  intro letters site picky memory host
  have honest : memory.Honest := trivial
  have answers : host.Answers := fun _ _ => rfl
  have declines : ¬ memory.Delivers {} site (.plain letters) := by
    rintro (known | delivers)
    · cases known
    · cases delivers
  have promises := gives_up_iff_not_delivers ⟨[memory]⟩ site (.plain letters) {}
  refine ⟨rfl, ?_, ?_, ?_⟩
  · have exactly := (promises.1 memory List.mem_cons_self {} rfl).1 host honest answers
    exact exactly.mpr declines
  · exact ⟨_, (gives_up_iff_not_delivers ⟨[memory]⟩ site.memoizing (.plain letters) {}).2 1
      ⟨.plain letters, site⟩ _ (fun strategy member => List.mem_singleton.mp member ▸ honest) rfl⟩
  · have steadily := gives_up_iff_not_delivers ⟨[picky]⟩ site (.plain letters) {}
    exact (steadily.1 picky List.mem_cons_self {} rfl).2 trivial

end TestData
