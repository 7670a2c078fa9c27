import TestData.Run.Store

namespace TestData

/-!
# Requests and their host

While a strategy serves a request it may need other stubs.  It asks for them at
the host: the chain the whole request was issued to, whatever chain or decorator
the strategy itself came from.  A strategy sees no more of its host than this
record, so what it does is a function of the answers it gets.
-/

/-- A type that is wanted at a site. -/
structure Request where
  type : TypeExpr
  site : Site

/-- What comes of a request: a stub, or nothing if no strategy accepts it, or an error. -/
abbrev Outcome := Except StubError (Option Value)

namespace Request

/-- The stub, where there has to be one; it is an error if no strategy accepted the request. -/
def demand (wanted : Request) : Outcome → Except StubError Value
  | .ok (some value) => .ok value
  | .ok none => .error (.unresolvable wanted.type wanted.site)
  | .error cause => .error cause

end Request

/-- The chain a request was issued to, as the strategies that serve it see it. -/
structure Host where
  /-- The stub for a request, or nothing if no strategy accepts it. -/
  resolve : Request → Run (Option Value)
  /-- The number of strategies in the chain. -/
  length : Nat
  /-- How deep computations on types may go. -/
  depth : Nat

namespace Host

/-- The stub for a request; it is an error if no strategy accepts it. -/
def request (host : Host) (wanted : Request) : Run Value := do
  match ← host.resolve wanted with
  | some value => return value
  | none => Run.fail (.unresolvable wanted.type wanted.site)

/-- The stubs for two requests, in order. -/
def requestBoth (host : Host) (first second : Request) : Run (Value × Value) := do
  let left ← host.request first
  let right ← host.request second
  return (left, right)

/-- Arguments for parameters, each requested at the site made for its parameter. -/
def requestArguments (host : Host) (bindings : Bindings)
    (siteOf : Parameter → Except SiteError Site) : List Parameter → Run (List Value)
  | [] => return []
  | parameter :: rest => do
      let site ← Run.ofSite (siteOf parameter)
      let value ← host.request ⟨bindings.resolve parameter.type, site⟩
      let values ← host.requestArguments bindings siteOf rest
      return value :: values

end Host

/--
What a user's own supplier or enhancer does: make objects, ask the host for stubs at
whatever sites, go on as it likes with what comes of that, and in the end hand over a
value or fail.
-/
inductive Action where
  | give (value : Value)
  | make (content : Content) (next : Value → Action)
  | request (wanted : Request) (next : Outcome → Action)
  | fail (cause : StubError)

namespace Action

instance : Inhabited Action := ⟨.give .null⟩

/-- Make a new object and hand it over. -/
def giveNew (content : Content) : Action :=
  .make content .give

/-- Ask for a stub that there has to be, and hand on the error if there is none. -/
def require (wanted : Request) (next : Value → Action) : Action :=
  .request wanted fun outcome =>
    match wanted.demand outcome with
    | .ok value => next value
    | .error cause => .fail cause

/-- Carry out an action. -/
def run (host : Host) : Action → Run Value
  | .give value => return value
  | .make content next => do (next (← Store.create content)).run host
  | .request wanted next => do (next (← Run.attempt (host.resolve wanted))).run host
  | .fail cause => Run.fail cause

end Action
end TestData
