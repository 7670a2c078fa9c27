import TestData.Proofs.Course
import TestData.Proofs.Parameters
import TestData.Chain.Basic
import TestData.Matcher.Descriptor

namespace TestData

/-!
# Running out of depth

A computation runs out of depth as soon as one of its parts does.  So no depth suffices
for a request if serving it leads to a request of the same kind again, or if the walk
up from its class never ends.
-/

namespace Run

variable {α β : Type} {computation : Run α} {next : α → Run β} {store between : Store}

/-- The computation ended because the depth did not suffice. -/
def RunsOut (outcome : EStateM.Result Failure Store α) : Prop :=
  ∃ after, outcome = .error .exhausted after

theorem runsOut_bind (out : RunsOut (computation store)) :
    RunsOut ((computation >>= next) store) := by
  rcases out with ⟨after, outcome⟩
  exact ⟨after, Run.bind_of_error outcome⟩

theorem runsOut_bind_of_ok {result : α} (outcome : computation store = .ok result between)
    (out : RunsOut (next result between)) : RunsOut ((computation >>= next) store) := by
  rw [Run.bind_of_ok outcome]
  exact out

theorem runsOut_step_bind {step : Step α} {result : α} (taken : step store = (result, between))
    (out : RunsOut (next result between)) : RunsOut ((Run.ofStep step >>= next) store) := by
  refine runsOut_bind_of_ok ?_ out
  rw [Run.ofStep_apply, taken]

end Run

open Run

namespace Host

variable {host : Host} {store : Store}

theorem runsOut_request {wanted : Request} (out : RunsOut (host.resolve wanted store)) :
    RunsOut (host.request wanted store) :=
  runsOut_bind out

theorem runsOut_requestArguments {bindings : Bindings} {siteOf : Parameter → Except SiteError Site}
    {first : Parameter} {rest : List Parameter} {site : Site} (made : siteOf first = .ok site)
    (out : RunsOut (host.resolve ⟨bindings.resolve first.type, site⟩ store)) :
    RunsOut (host.requestArguments bindings siteOf (first :: rest) store) := by
  have here : Run.ofSite (siteOf first) store = .ok site store := by
    rw [made]
    rfl
  exact runsOut_bind_of_ok here (runsOut_bind (runsOut_request out))

end Host

namespace Strategy

variable {host : Host} {cell : Cell} {site : Site} {type : TypeExpr} {store after : Store}

/-- If the type makes bindings at all, the first argument has to run out. -/
theorem runsOut_produceByConstructor {selector : Selector Constructor} {k : Constructor}
    {first : Parameter} {rest : List Parameter}
    (chosen : chosenConstructor cell selector site type store = (some k, after))
    (taken : k.parameters = first :: rest)
    (out : ∀ bindings, Bindings.ofType host.depth type = .ok bindings → ∀ site,
      RunsOut (host.resolve ⟨bindings.resolve first.type, site⟩ after)) :
    RunsOut (produceByConstructor host cell selector site type store) := by
  apply runsOut_step_bind chosen
  cases bound : Bindings.ofType host.depth type with
  | error exhausted => exact ⟨after, rfl⟩
  | ok bindings =>
      have member : first ∈ k.parameters := taken ▸ List.mem_cons_self
      have made := Site.constructorParameter_of_mem member site
      have arguments : RunsOut (host.requestArguments bindings (site.constructorParameter k)
          k.parameters after) := by
        rw [taken]
        exact Host.runsOut_requestArguments made (out bindings bound _)
      exact runsOut_bind_of_ok rfl (runsOut_bind arguments)

theorem runsOut_produceByMethod {selector : Selector Method} {m : Method} {first : Parameter}
    {rest : List Parameter}
    (chosen : chosenMethod cell selector site type store = (some m, after))
    (taken : m.parameters = first :: rest)
    (out : ∀ own bindings, Bindings.ofType host.depth type = .ok own →
      own.bind host.depth m.returnType type = .ok bindings → ∀ site,
      RunsOut (host.resolve ⟨bindings.resolve first.type, site⟩ after)) :
    RunsOut (produceByMethod host cell selector site type store) := by
  apply runsOut_step_bind chosen
  cases bound : Bindings.ofType host.depth type with
  | error exhausted => exact ⟨after, rfl⟩
  | ok own =>
      change RunsOut ((Run.ofBounded (own.bind host.depth m.returnType type) >>= _) after)
      cases fitted : own.bind host.depth m.returnType type with
      | error exhausted => exact ⟨after, rfl⟩
      | ok bindings =>
          have member : first ∈ m.parameters := taken ▸ List.mem_cons_self
          have made := Site.methodParameter_of_mem member site
          have arguments : RunsOut (host.requestArguments bindings (site.methodParameter m)
              m.parameters after) := by
            rw [taken]
            exact Host.runsOut_requestArguments made (out own bindings bound fitted _)
          exact runsOut_bind_of_ok rfl (runsOut_bind arguments)

/-! ## Members that leave no choice -/

variable {c : Class}

/-- Of a class with one usable constructor, which has parameters, that one is chosen. -/
theorem chosenConstructor_only {k : Constructor} (constructed : constructedClass? type = some c)
    (only : c.usableConstructors = [k]) (takes : k.isDefault = false)
    (store : Store)
    (settles : ∀ choice, store.constructors.find? (cell, c.name) = some choice → choice = some k)
    (site : Site) :
    ∃ after, chosenConstructor cell (.unique Matcher.isDefaultConstructor.negate) site type store
        = (some k, after) ∧
      after.constructors.find? (cell, c.name) = some (some k) := by
  unfold chosenConstructor
  rw [constructed]
  dsimp only
  rcases outcome : Store.settle _ _ _ store with ⟨choice, after⟩
  have remembered := Store.remembered_of_settle (fun _ _ => Table.find?_insert_self _ _ _) outcome
  have settled : choice = some k := by
    rcases Store.remembered_or_chosen outcome with known | picked
    · exact settles choice known
    · rw [only] at picked
      rw [← picked]
      refine (Selector.onlyMatch_answer _ site none [k] _).trans ?_
      simp [Matcher.negate, Matcher.isDefaultConstructor, Matcher.ofPredicate, takes]
  exact ⟨after, by rw [settled], settled ▸ remembered⟩

/-- Of a class with one factory method, that one is chosen. -/
theorem chosenMethod_only {m : Method} (manufactured : manufacturedClass? type = some c)
    (only : c.factoryMethods = [m])
    (store : Store)
    (settles : ∀ choice, store.methods.find? (cell, c.name) = some choice → choice = some m)
    (site : Site) :
    ∃ after, chosenMethod cell (.unique Matcher.any) site type store = (some m, after) ∧
      after.methods.find? (cell, c.name) = some (some m) := by
  unfold chosenMethod
  rw [manufactured]
  dsimp only
  rcases outcome : Store.settle _ _ _ store with ⟨choice, after⟩
  have remembered := Store.remembered_of_settle (fun _ _ => Table.find?_insert_self _ _ _) outcome
  have settled : choice = some m := by
    rcases Store.remembered_or_chosen outcome with known | picked
    · exact settles choice known
    · rw [only] at picked
      exact picked.symm
  exact ⟨after, by rw [settled], settled ▸ remembered⟩

end Strategy

namespace Chain

variable {chain : Chain}

theorem firstAccepting_of_accepts {strategy : Strategy} {wanted : Request} {store after : Store}
    (accepts : strategy.accepts wanted.site wanted.type store = (true, after))
    (rest : List Strategy) :
    firstAccepting (strategy :: rest) wanted store = (some strategy, after) := by
  simp only [firstAccepting, bind, StateT.bind, accepts]
  rfl

theorem firstAccepting_of_declines {strategy : Strategy} {wanted : Request} {store after : Store}
    (declines : strategy.accepts wanted.site wanted.type store = (false, after))
    (rest : List Strategy) :
    firstAccepting (strategy :: rest) wanted store = firstAccepting rest wanted after := by
  simp only [firstAccepting, bind, StateT.bind, declines]
  rfl

/-- Strategies that decline are passed over. -/
theorem firstAccepting_of_passed {front : List Strategy} {wanted : Request}
    (passed : ∀ strategy ∈ front, strategy.accepts wanted.site wanted.type = pure false)
    (rest : List Strategy) : firstAccepting (front ++ rest) wanted = firstAccepting rest wanted := by
  induction front with
  | nil => rfl
  | cons strategy front ih =>
      have here := passed strategy List.mem_cons_self
      have behind := ih fun other member => passed other (List.mem_cons_of_mem _ member)
      simp only [List.cons_append, firstAccepting, here, pure_bind, Bool.false_eq_true, if_false,
        behind]

theorem runsOut_resolveFor {host : Host} {wanted : Request} {strategy : Strategy}
    {store accepted : Store}
    (found : firstAccepting chain.strategies wanted
      (Store.record (.requested wanted.type wanted.site) store).2 = (some strategy, accepted))
    (out : RunsOut (strategy.produce host wanted.site wanted.type accepted)) :
    RunsOut (chain.resolveFor host wanted store) := by
  rcases out with ⟨after, outcome⟩
  refine ⟨after, ?_⟩
  rw [resolveFor_of_found found]
  simp only [Functor.map, EStateM.map, outcome]

/-- No depth suffices for requests of a kind if serving one leads to another one. -/
theorem runsOut_resolveWithin (kind : Request → Store → Prop)
    (leads : ∀ depth wanted store, kind wanted store →
      (∀ again later, kind again later → RunsOut (chain.resolveWithin depth again later)) →
      RunsOut (chain.resolveFor (chain.hostWithin depth) wanted store))
    (depth : Nat) {wanted : Request} {store : Store} (here : kind wanted store) :
    RunsOut (chain.resolveWithin depth wanted store) := by
  induction depth generalizing wanted store with
  | zero => exact ⟨store, rfl⟩
  | succ depth ih => exact leads depth wanted store here fun again later same => ih same

end Chain
end TestData
