import TestData.Chain.Builder

namespace TestData

/-!
# Precedence in built chains

A builder may be called in any order and any number of times, and the chains it
includes may themselves have been built with includes.  What the finished chain does
is described here without any flattening: the strategies that were added are asked
from the latest to the earliest, then each included chain, again from the latest to
the earliest but each in its own way, and in the end the baseline chosen last.

The description is recursive in how a chain came about, and never looks at the list
of strategies that the builder makes.  That the two agree, for every request and in
every store, is the content of the module.
-/

mutual

/-- A call on a builder.  An included chain is given by how it came about. -/
inductive BuilderCall where
  | stubWith (strategy : Strategy)
  | stubWithWhen (strategy : Strategy) (condition : Matcher TypeExpr)
  | stubWithAll (strategies : List Strategy)
  | stubWithAllWhen (strategies : List Strategy) (condition : Matcher TypeExpr)
  | including (included : Assembly)
  | withBaseline (baseline : Baseline)

/--
How a chain came about: it is given as it is, or it was built by calls, in the
store in which its baseline then was made.
-/
inductive Assembly where
  | given (chain : Chain)
  | built (calls : List BuilderCall) (store : Store)

end

mutual

/-- The chain that the builder really makes. -/
def Assembly.chain : Assembly → Chain
  | .given chain => chain
  | .built calls store => ((BuilderCall.applyAll calls .new).build store).1

def BuilderCall.apply : BuilderCall → ChainBuilder → ChainBuilder
  | .stubWith strategy, builder => builder.stubWith strategy
  | .stubWithWhen strategy condition, builder => builder.stubWithWhen strategy condition
  | .stubWithAll strategies, builder => builder.stubWithAll strategies
  | .stubWithAllWhen strategies condition, builder =>
      builder.stubWithAllWhen strategies condition
  | .including included, builder => builder.including included.chain
  | .withBaseline baseline, builder => builder.withBaseline baseline

/-- A sequence of calls, the first one first. -/
def BuilderCall.applyAll : List BuilderCall → ChainBuilder → ChainBuilder
  | [], builder => builder
  | call :: calls, builder => BuilderCall.applyAll calls (call.apply builder)

end

namespace Chain

/-- Ask for an acceptor in a first place, and only if there is none in a second place. -/
def orElse (first second : Step (Option Strategy)) : Step (Option Strategy) := do
  match ← first with
  | some strategy => return some strategy
  | none => second

/-- The last strategy of a list that accepts a request; the earlier ones are then not asked. -/
def lastAccepting : List Strategy → Request → Step (Option Strategy)
  | [], _ => return none
  | strategy :: later, wanted =>
      orElse (lastAccepting later wanted) (firstAccepting [strategy] wanted)

theorem orElse_apply (first second : Step (Option Strategy)) (store : Store) :
    orElse first second store =
      match first store with
      | (some strategy, asked) => (some strategy, asked)
      | (none, asked) => second asked := by
  simp only [orElse, bind, StateT.bind]
  rcases first store with ⟨_ | strategy, asked⟩ <;> rfl

theorem orElse_none (second : Step (Option Strategy)) : orElse (return none) second = second := rfl

theorem orElse_assoc (first second third : Step (Option Strategy)) :
    orElse (orElse first second) third = orElse first (orElse second third) := by
  funext store
  simp only [orElse_apply]
  rcases first store with ⟨_ | strategy, asked⟩ <;> rfl

theorem firstAccepting_cons (strategy : Strategy) (rest : List Strategy) (wanted : Request) :
    firstAccepting (strategy :: rest) wanted =
      orElse (firstAccepting [strategy] wanted) (firstAccepting rest wanted) := by
  funext store
  rw [orElse_apply]
  simp only [firstAccepting, bind, StateT.bind]
  rcases strategy.accepts wanted.site wanted.type store with ⟨_ | _, asked⟩ <;> rfl

/-- Asking a list of strategies is asking its front, and its back only if the front declines. -/
theorem firstAccepting_append (front back : List Strategy) (wanted : Request) :
    firstAccepting (front ++ back) wanted =
      orElse (firstAccepting front wanted) (firstAccepting back wanted) := by
  induction front with
  | nil => exact (orElse_none _).symm
  | cons strategy rest ih =>
      rw [List.cons_append, firstAccepting_cons, ih, firstAccepting_cons strategy rest,
        orElse_assoc]

theorem lastAccepting_eq_reverse (strategies : List Strategy) (wanted : Request) :
    lastAccepting strategies wanted = firstAccepting strategies.reverse wanted := by
  induction strategies with
  | nil => rfl
  | cons strategy later ih =>
      rw [List.reverse_cons, firstAccepting_append, ← ih]
      rfl

end Chain

/-- Calls move freely among calls of the other kinds. -/
inductive BuilderCall.Kind where
  | addition
  | inclusion
  | baseline
  deriving DecidableEq, Repr

namespace BuilderCall

def kind : BuilderCall → Kind
  | .stubWith _ | .stubWithWhen .. | .stubWithAll _ | .stubWithAllWhen .. => .addition
  | .including _ => .inclusion
  | .withBaseline _ => .baseline

/-- The strategies a call adds, in the order in which they were given. -/
def additions : BuilderCall → List Strategy
  | .stubWith strategy => [strategy]
  | .stubWithWhen strategy condition => [.conditional strategy condition]
  | .stubWithAll strategies => strategies
  | .stubWithAllWhen strategies condition =>
      strategies.map fun strategy => .conditional strategy condition
  | .including _ | .withBaseline _ => []

/-- The chain a call includes, by how it came about. -/
def inclusion? : BuilderCall → Option Assembly
  | .including included => some included
  | _ => none

/-- The baseline a call chooses. -/
def baseline? : BuilderCall → Option Baseline
  | .withBaseline baseline => some baseline
  | _ => none

/-- The baseline that was chosen last; a builder starts without one. -/
def lastBaseline (calls : List BuilderCall) : Baseline :=
  (calls.filterMap baseline?).getLast?.getD .empty

end BuilderCall

mutual

/--
The strategy that serves a request.  Every clause asks the later call before the
earlier one, and what comes second only if the first found nobody.
-/
def Assembly.acceptor : Assembly → Request → Step (Option Strategy)
  | .given chain, wanted => Chain.firstAccepting chain.strategies wanted
  | .built calls store, wanted =>
      Chain.orElse (Chain.lastAccepting (calls.flatMap BuilderCall.additions) wanted)
        (Chain.orElse (BuilderCall.includedAcceptor calls wanted)
          (Chain.firstAccepting ((BuilderCall.lastBaseline calls).chain store).1.strategies wanted))

/-- The strategy with which an included chain serves a request. -/
def BuilderCall.includedAcceptor : List BuilderCall → Request → Step (Option Strategy)
  | [], _ => return none
  | .including included :: later, wanted =>
      Chain.orElse (BuilderCall.includedAcceptor later wanted) (included.acceptor wanted)
  | .stubWith _ :: later, wanted | .stubWithWhen .. :: later, wanted
  | .stubWithAll _ :: later, wanted | .stubWithAllWhen .. :: later, wanted
  | .withBaseline _ :: later, wanted => BuilderCall.includedAcceptor later wanted

end

/-- What becomes of a request: the acceptor alone serves it, and its outcome is the outcome. -/
def Assembly.fallback (origin : Assembly) (host : Host) (wanted : Request) :
    Run (Option Value) := do
  Store.record (.requested wanted.type wanted.site)
  match ← origin.acceptor wanted with
  | none => return none
  | some strategy => return some (← strategy.produce host wanted.site wanted.type)

namespace BuilderCall

/-- What calls do to a builder, told for each kind of call apart. -/
theorem applyAll_eq (calls : List BuilderCall) (builder : ChainBuilder) :
    applyAll calls builder =
      { baseline := (calls.filterMap baseline?).getLast?.getD builder.baseline
        included := builder.included ++ (calls.filterMap inclusion?).map Assembly.chain
        added := builder.added ++ calls.flatMap additions } := by
  induction calls generalizing builder with
  | nil => simp [applyAll]
  | cons call calls ih =>
      rw [applyAll, ih]
      cases call with
      | stubWith strategy => simp [apply, ChainBuilder.stubWith, additions, baseline?, inclusion?,
            List.filterMap_cons]
      | stubWithWhen strategy condition =>
          simp [apply, ChainBuilder.stubWithWhen, ChainBuilder.stubWith, additions, baseline?,
            inclusion?, List.filterMap_cons]
      | stubWithAll strategies =>
          simp [apply, ChainBuilder.stubWithAll_eq, additions, baseline?, inclusion?,
            List.filterMap_cons]
      | stubWithAllWhen strategies condition =>
          simp [apply, ChainBuilder.stubWithAllWhen_eq, ChainBuilder.stubWithAll_eq, additions,
            baseline?, inclusion?, List.filterMap_cons]
      | including included =>
          simp [apply, ChainBuilder.including, additions, baseline?, inclusion?,
            List.filterMap_cons]
      | withBaseline baseline =>
          simp [apply, ChainBuilder.withBaseline, additions, baseline?, inclusion?,
            List.filterMap_cons, List.getLast?_cons]

/-- The chain of a builder, with the strategies in the order in which they are tried. -/
theorem chain_built (calls : List BuilderCall) (store : Store) :
    (Assembly.built calls store).chain.strategies =
      (calls.flatMap additions).reverse
        ++ ((calls.filterMap inclusion?).map Assembly.chain).reverse.flatMap Chain.strategies
        ++ ((lastBaseline calls).chain store).1.strategies := by
  rw [Assembly.chain, applyAll_eq]
  rfl

end BuilderCall

mutual

/-- The built chain finds the acceptor that the description tells. -/
theorem Assembly.firstAccepting_chain (origin : Assembly) (wanted : Request) :
    Chain.firstAccepting origin.chain.strategies wanted = origin.acceptor wanted := by
  cases origin with
  | given chain => rfl
  | built calls store =>
      rw [BuilderCall.chain_built, List.append_assoc, Chain.firstAccepting_append,
        Chain.firstAccepting_append, ← Chain.lastAccepting_eq_reverse,
        BuilderCall.firstAccepting_included calls wanted]
      rfl

/-- The included chains, the latest in front, find what the description tells of them. -/
theorem BuilderCall.firstAccepting_included (calls : List BuilderCall) (wanted : Request) :
    Chain.firstAccepting
        (((calls.filterMap BuilderCall.inclusion?).map Assembly.chain).reverse.flatMap Chain.strategies)
        wanted =
      BuilderCall.includedAcceptor calls wanted := by
  cases calls with
  | nil => rfl
  | cons call later =>
      have rest := BuilderCall.firstAccepting_included later wanted
      cases call with
      | including included =>
          have here := Assembly.firstAccepting_chain included wanted
          simp only [List.filterMap_cons, BuilderCall.inclusion?, List.map_cons, List.reverse_cons,
            List.flatMap_append, List.flatMap_cons, List.flatMap_nil, List.append_nil,
            Chain.firstAccepting_append, rest, here, BuilderCall.includedAcceptor]
      | stubWith | stubWithWhen | stubWithAll | stubWithAllWhen | withBaseline => exact rest

end

/-- Serving a request of a built chain is what the description tells. -/
theorem Assembly.resolveFor_chain (origin : Assembly) (host : Host) (wanted : Request) :
    origin.chain.resolveFor host wanted = origin.fallback host wanted := by
  rw [Chain.resolveFor, firstAccepting_chain]
  rfl

namespace BuilderCall

/-- What a sequence of calls adds is what its additions add. -/
theorem flatMap_additions_filter (calls : List BuilderCall) :
    (calls.filter fun call => call.kind = .addition).flatMap additions =
      calls.flatMap additions := by
  induction calls with
  | nil => rfl
  | cons call calls ih => cases call <;> simp_all [kind, additions]

theorem filterMap_inclusion?_filter (calls : List BuilderCall) :
    (calls.filter fun call => call.kind = .inclusion).filterMap inclusion? =
      calls.filterMap inclusion? := by
  rw [List.filterMap_filter]
  congr 1
  funext call
  cases call <;> rfl

theorem filterMap_baseline?_filter (calls : List BuilderCall) :
    (calls.filter fun call => call.kind = .baseline).filterMap baseline? =
      calls.filterMap baseline? := by
  rw [List.filterMap_filter]
  congr 1
  funext call
  cases call <;> rfl

/-- Only the order among calls of one kind matters for the chain that is built. -/
theorem chain_built_congr {first second : List BuilderCall}
    (same : ∀ kind, (first.filter fun call => call.kind = kind)
      = second.filter fun call => call.kind = kind) (store : Store) :
    (Assembly.built first store).chain = (Assembly.built second store).chain := by
  have additionsSame : first.flatMap additions = second.flatMap additions := by
    rw [← flatMap_additions_filter first, same, flatMap_additions_filter]
  have inclusionsSame : first.filterMap inclusion? = second.filterMap inclusion? := by
    rw [← filterMap_inclusion?_filter first, same, filterMap_inclusion?_filter]
  have baselinesSame : first.filterMap baseline? = second.filterMap baseline? := by
    rw [← filterMap_baseline?_filter first, same, filterMap_baseline?_filter]
  rw [Assembly.chain, Assembly.chain, applyAll_eq, applyAll_eq, additionsSame, inclusionsSame,
    baselinesSame]

end BuilderCall

namespace Chain

/--
The strategies behind the first that accepts leave no mark: neither on the answer nor
on the store, and not on an error either, which is passed on as it is.
-/
theorem resolveFor_of_accepts {front : List Strategy} {strategy : Strategy} {wanted : Request}
    {store asked accepted : Store}
    (declined : firstAccepting front wanted
      (Store.record (.requested wanted.type wanted.site) store).2 = (none, asked))
    (accepts : strategy.accepts wanted.site wanted.type asked = (true, accepted))
    (back : List Strategy) (host : Host) :
    (Chain.mk (front ++ strategy :: back)).resolveFor host wanted store =
      (some <$> strategy.produce host wanted.site wanted.type) accepted := by
  have found : firstAccepting (front ++ strategy :: back) wanted
      (Store.record (.requested wanted.type wanted.site) store).2 = (some strategy, accepted) := by
    rw [firstAccepting_append, orElse_apply, declined]
    simp only [firstAccepting, bind, StateT.bind, accepts]
    rfl
  exact resolveFor_of_found found host

end Chain

/--
A built chain serves a request of any host, and so of its own, as the description
tells; only the first acceptor is ever asked to make something, and nobody behind it
is asked at all; and the chain depends on the calls of each kind alone.
-/
theorem built_chain_precedence :
    (∀ (origin : Assembly) (host : Host) (wanted : Request),
      origin.chain.resolveFor host wanted = origin.fallback host wanted) ∧
    (∀ (origin : Assembly) (depth : Nat) (wanted : Request),
      origin.chain.resolveWithin (depth + 1) wanted =
        origin.fallback (origin.chain.hostWithin depth) wanted) ∧
    (∀ (front back : List Strategy) (strategy : Strategy) (host : Host) (wanted : Request)
      (store asked accepted : Store),
      Chain.firstAccepting front wanted
        (Store.record (.requested wanted.type wanted.site) store).2 = (none, asked) →
      strategy.accepts wanted.site wanted.type asked = (true, accepted) →
      (Chain.mk (front ++ strategy :: back)).resolveFor host wanted store =
        (some <$> strategy.produce host wanted.site wanted.type) accepted) ∧
    (∀ (first second : List BuilderCall) (store : Store),
      (∀ kind, (first.filter fun call => call.kind = kind)
        = second.filter fun call => call.kind = kind) →
      (Assembly.built first store).chain = (Assembly.built second store).chain) := by
  refine ⟨Assembly.resolveFor_chain, ?_, ?_, ?_⟩
  · intro origin depth wanted
    rw [Chain.resolveWithin, Assembly.resolveFor_chain]
    rfl
  · intro front back strategy host wanted store asked accepted declined accepts
    exact Chain.resolveFor_of_accepts declined accepts back host
  · intro first second store same
    exact BuilderCall.chain_built_congr same store

/--
An inclusion and a baseline may be moved past an added strategy; and a request that
the first strategy declines goes to the second, whatever stands behind it.
-/
theorem built_chain_precedence_moved :
    (Assembly.built [.including (.given ⟨[.chain]⟩), .stubWith .nullValue, .withBaseline .full]
        {}).chain =
      (Assembly.built [.stubWith .nullValue, .withBaseline .full, .including (.given ⟨[.chain]⟩)]
        {}).chain ∧
    (Chain.mk ([.defaultValue] ++ .nullValue :: [.chain])).resolveFor Chain.empty.host
        ⟨.plain Class.string, .unknown⟩ {} =
      (some <$> Strategy.produce Chain.empty.host .nullValue .unknown (.plain Class.string))
        { trace := [.requested (.plain Class.string) .unknown] } :=
  ⟨built_chain_precedence.2.2.2 _ _ {} (by intro kind; cases kind <;> rfl),
    built_chain_precedence.2.2.1 [.defaultValue] [.chain] .nullValue Chain.empty.host
      ⟨.plain Class.string, .unknown⟩ {} _ _ rfl rfl⟩

end TestData
