import TestData.Strategy.Produce

namespace TestData

/-!
# Chains of strategies

A chain serves a request with the first of its strategies that accepts it.  The
strategies behind that one are not asked, and an error it ends in is the error of
the request.  Nested requests go to the chain again, one level deeper.
-/

/-- Strategies in the order in which they are tried. -/
structure Chain where
  strategies : List Strategy

namespace Chain

instance : Inhabited Chain := ⟨⟨[]⟩⟩

/-- How deep nested requests and type computations go unless something else is asked for. -/
def depthLimit : Nat := 100000

/-- The names of the strategies, in the order in which they are tried. -/
def names (chain : Chain) : List String :=
  chain.strategies.map Strategy.name

/-- The first strategy of a list that accepts a request. -/
def firstAccepting : List Strategy → Request → Step (Option Strategy)
  | [], _ => return none
  | strategy :: rest, wanted => do
      if ← strategy.accepts wanted.site wanted.type then return some strategy
      else firstAccepting rest wanted

/-- The stub for a request that is served for a host, or nothing if no strategy accepts it. -/
def resolveFor (chain : Chain) (host : Host) (wanted : Request) : Run (Option Value) := do
  Store.record (.requested wanted.type wanted.site)
  match ← firstAccepting chain.strategies wanted with
  | none => return none
  | some strategy => return some (← strategy.produce host wanted.site wanted.type)

theorem resolveFor_of_declined {chain : Chain} {wanted : Request} {store after : Store}
    (declined : firstAccepting chain.strategies wanted
      (Store.record (.requested wanted.type wanted.site) store).2 = (none, after))
    (host : Host) : chain.resolveFor host wanted store = .ok none after := by
  simp only [resolveFor, bind, EStateM.bind, liftM, monadLift, MonadLift.monadLift,
    Run.ofStep_apply, declined]
  rfl

theorem resolveFor_of_found {chain : Chain} {wanted : Request} {strategy : Strategy}
    {store accepted : Store}
    (found : firstAccepting chain.strategies wanted
      (Store.record (.requested wanted.type wanted.site) store).2 = (some strategy, accepted))
    (host : Host) :
    chain.resolveFor host wanted store =
      (some <$> strategy.produce host wanted.site wanted.type) accepted := by
  simp only [resolveFor, bind, EStateM.bind, liftM, monadLift, MonadLift.monadLift,
    Run.ofStep_apply, found]
  rfl

/-- The stub for a request, or nothing if no strategy accepts it, within a depth. -/
def resolveWithin (chain : Chain) : Nat → Request → Run (Option Value)
  | 0, _ => throw .exhausted
  | depth + 1, wanted =>
      chain.resolveFor ⟨chain.resolveWithin depth, chain.strategies.length, depth⟩ wanted

/-- The chain as host of requests within a depth. -/
def hostWithin (chain : Chain) (depth : Nat) : Host where
  resolve := chain.resolveWithin depth
  length := chain.strategies.length
  depth := depth

/-- A request that no strategy accepts is refused with its own type and site. -/
theorem request_of_declined {chain : Chain} {wanted : Request} {store after : Store}
    (declined : firstAccepting chain.strategies wanted
      (Store.record (.requested wanted.type wanted.site) store).2 = (none, after)) (depth : Nat) :
    (chain.hostWithin (depth + 1)).request wanted store =
      .error (.error (.unresolvable wanted.type wanted.site)) after := by
  have none : (chain.hostWithin (depth + 1)).resolve wanted store = .ok none after :=
    resolveFor_of_declined declined (chain.hostWithin depth)
  exact Run.bind_of_ok none

/-- A request that a strategy accepts ends as making the stub ends. -/
theorem request_of_found {chain : Chain} {wanted : Request} {strategy : Strategy}
    {store accepted : Store}
    (found : firstAccepting chain.strategies wanted
      (Store.record (.requested wanted.type wanted.site) store).2 = (some strategy, accepted))
    (depth : Nat) :
    (chain.hostWithin (depth + 1)).request wanted store =
      strategy.produce (chain.hostWithin depth) wanted.site wanted.type accepted := by
  have served : (chain.hostWithin (depth + 1)).resolve wanted store =
      (some <$> strategy.produce (chain.hostWithin depth) wanted.site wanted.type) accepted :=
    resolveFor_of_found found (chain.hostWithin depth)
  cases made : strategy.produce (chain.hostWithin depth) wanted.site wanted.type accepted with
  | ok value after =>
      simp only [Functor.map, EStateM.map, made] at served
      exact Run.bind_of_ok served
  | error failure after =>
      simp only [Functor.map, EStateM.map, made] at served
      exact Run.bind_of_error served

/-- The chain as host of requests. -/
def host (chain : Chain) : Host :=
  chain.hostWithin depthLimit

/-- The stub for a type at a site, or nothing if no strategy accepts the request. -/
def tryToStub (chain : Chain) (type : TypeExpr) (site : Site) : Run (Option Value) :=
  chain.host.resolve ⟨type, site⟩

/-- The stub for a type at a site; it is an error if no strategy accepts the request. -/
def stub (chain : Chain) (type : TypeExpr) (site : Site) : Run Value :=
  chain.host.request ⟨type, site⟩

/-- The stub for a type nobody said anything else about. -/
def stubRoot (chain : Chain) (type : TypeExpr) : Run Value :=
  chain.stub type .unknown

/-- The stub for a parameter of a test. -/
def stubParameter (chain : Chain) (executable : Executable) (parameter : Parameter) :
    Run Value := do
  let site ← Run.ofSite (Site.testParameter executable parameter)
  chain.stub parameter.type site

/-- The strategy at a position of the chain. -/
def strategyAt? (chain : Chain) (index : Nat) : Option Strategy :=
  chain.strategies[index]?

end Chain
end TestData
