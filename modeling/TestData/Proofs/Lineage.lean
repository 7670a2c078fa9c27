import TestData.Proofs.Composition
import TestData.Chain.Assembly
import TestData.Strategy.Supplier

namespace TestData

/-!
# Where nested requests and errors come from

Serving a request is a dialogue with the host: requests are issued one after the other,
each answer decides how it goes on, and an error in place of an answer ends the dialogue
as it is.  Which requests a chain issues does not depend on who the host is, so a request
that is served by a strategy from an included chain leads to requests at the outermost
one.  All of them are issued at sites that come from the site of the request served.
-/

/-- A request as it is issued: whether there has to be an answer, and in which store. -/
structure Call where
  needed : Bool
  wanted : Request
  store : Store

/-- What a call comes to at a host; it is an error if a needed answer is missing. -/
def Host.answer (host : Host) (call : Call) : EStateM.Result Failure Store (Option Value) :=
  if call.needed then (some <$> host.request call.wanted) call.store
  else host.resolve call.wanted call.store

/-- A computation as seen from its host: how it ends, or the next call and what follows. -/
inductive Dialogue (α : Type) where
  | done (result : α) (store : Store)
  | failed (failure : Failure) (store : Store)
  | asking (call : Call) (next : Option Value → Store → Dialogue α)

namespace Dialogue

variable {α β : Type} {host : Host} {origin : Site}

/-- The end that a bounded computation leads to. -/
def ofBounded : Bounded α → Store → Dialogue α
  | .ok result, store => .done result store
  | .error _, store => .failed .exhausted store

/-- How it ends once a needed answer is there, or is missing although nothing failed. -/
def given (wanted : Request) : Option Value → Store → Dialogue Value
  | some value, store => .done value store
  | none, store => .failed (.error (.unresolvable wanted.type wanted.site)) store

/-- What the dialogue comes to if a host answers the calls; an error is the end of it. -/
def answeredBy (host : Host) : Dialogue α → EStateM.Result Failure Store α
  | .done result store => .ok result store
  | .failed failure store => .error failure store
  | .asking call next =>
      match host.answer call with
      | .ok answer store => (next answer store).answeredBy host
      | .error failure store => .error failure store

/-- Go on with another dialogue when this one is done. -/
def bind : Dialogue α → (α → Store → Dialogue β) → Dialogue β
  | .done result store, next => next result store
  | .failed failure store, _ => .failed failure store
  | .asking call goesOn, next => .asking call fun answer store => (goesOn answer store).bind next

theorem answeredBy_bind (dialogue : Dialogue α) (next : α → Store → Dialogue β) :
    (dialogue.bind next).answeredBy host =
      match dialogue.answeredBy host with
      | .ok result store => (next result store).answeredBy host
      | .error failure store => .error failure store := by
  induction dialogue with
  | done result store => rfl
  | failed failure store => rfl
  | asking call goesOn ih =>
      simp only [bind, answeredBy]
      cases host.answer call with
      | ok answer store => exact ih answer store
      | error failure store => rfl

/-- All calls, and all errors the dialogue ends in by itself, come from the origin. -/
def Within (origin : Site) : Dialogue α → Prop
  | .done .. => True
  | .failed failure _ => ∀ cause, failure = .error cause → cause.ComesFrom origin
  | .asking call next =>
      call.wanted.site.ComesFrom origin ∧ ∀ answer store, (next answer store).Within origin

theorem Within.bind {dialogue : Dialogue α} {next : α → Store → Dialogue β}
    (within : dialogue.Within origin) (goesOn : ∀ result store, (next result store).Within origin) :
    (dialogue.bind next).Within origin := by
  induction dialogue with
  | done result store => exact goesOn result store
  | failed failure store => exact within
  | asking call later ih => exact ⟨within.1, fun answer store => ih answer store (within.2 answer store)⟩

/-- The call comes up in the dialogue with the host. -/
inductive Asks (host : Host) : Dialogue α → Call → Prop where
  | now {call : Call} {next : Option Value → Store → Dialogue α} : Asks host (.asking call next) call
  | later {call other : Call} {next : Option Value → Store → Dialogue α} {answer : Option Value}
      {store : Store} (answered : host.answer call = .ok answer store)
      (asks : Asks host (next answer store) other) : Asks host (.asking call next) other

theorem Within.comesFrom {dialogue : Dialogue α} {call : Call} (within : dialogue.Within origin)
    (asks : dialogue.Asks host call) : call.wanted.site.ComesFrom origin := by
  induction asks with
  | now => exact within.1
  | later answered asks ih => exact ih (within.2 _ _)

/-- An error in place of an answer is what the dialogue comes to. -/
theorem answeredBy_of_asks {dialogue : Dialogue α} {call : Call} {failure : Failure}
    {after : Store} (asks : dialogue.Asks host call)
    (broken : host.answer call = .error failure after) :
    dialogue.answeredBy host = .error failure after := by
  induction asks with
  | now => simp only [answeredBy, broken]
  | later answered asks ih =>
      simp only [answeredBy, answered]
      exact ih broken

/-- What the dialogue fails with is its own error or that of one of its calls. -/
theorem Within.error_comesFrom {dialogue : Dialogue α} (within : dialogue.Within origin)
    (calls : ∀ call cause after, call.wanted.site.ComesFrom origin →
      host.answer call = .error (.error cause) after → cause.ComesFrom origin)
    {cause : StubError} {after : Store}
    (outcome : dialogue.answeredBy host = .error (.error cause) after) :
    cause.ComesFrom origin := by
  induction dialogue with
  | done result store => cases outcome
  | failed failure store =>
      cases outcome
      exact within cause rfl
  | asking call next ih =>
      simp only [answeredBy] at outcome
      cases answered : host.answer call with
      | ok answer store =>
          rw [answered] at outcome
          exact ih answer store (within.2 answer store) outcome
      | error failure store =>
          rw [answered] at outcome
          cases outcome
          exact calls call cause after within.1 answered

end Dialogue

/--
A computation that is put together from pieces is one dialogue with every host of the
same length and depth.
-/
theorem Composed.conducted {origin : Site} {α : Type} {computation : Host → Run α}
    (composed : Composed origin computation) :
    ∃ talk : Nat → Nat → Store → Dialogue α,
      (∀ host store, computation host store
        = (talk host.length host.depth store).answeredBy host) ∧
      ∀ length depth store, (talk length depth store).Within origin := by
  induction composed with
  | @step α step blind =>
      exact ⟨fun length _ store => .done (step length store).1 (step length store).2,
        fun _ _ => rfl, fun _ _ _ => trivial⟩
  | @bounded α bounded steady =>
      refine ⟨fun _ depth store => .ofBounded (bounded depth) store, fun host store => ?_,
        fun _ depth store => ?_⟩
      · dsimp only
        cases bounded host.depth <;> rfl
      · dsimp only
        cases bounded depth with
        | ok result => exact trivial
        | error exhausted =>
            intro cause same
            cases same
  | @fail α cause here =>
      refine ⟨fun _ _ store => .failed (.error cause) store, fun _ _ => rfl, fun _ _ store => ?_⟩
      rintro _ ⟨⟩
      exact here
  | @resolve wanted here =>
      refine ⟨fun _ _ store => .asking ⟨false, wanted, store⟩ .done, fun host store => ?_,
        fun _ _ _ => ⟨here, fun _ _ => trivial⟩⟩
      simp only [Dialogue.answeredBy, Host.answer, Bool.false_eq_true, if_false]
      cases host.resolve wanted store <;> rfl
  | @request wanted here =>
      -- An answer that is needed is there, or the call has failed.
      refine ⟨fun _ _ store => .asking ⟨true, wanted, store⟩ (.given wanted),
        fun host store => ?_, fun _ _ _ => ⟨here, fun answer store => ?_⟩⟩
      · simp only [Dialogue.answeredBy, Host.answer, if_true, Functor.map, EStateM.map]
        cases host.request wanted store <;> rfl
      · cases answer with
        | some value => exact trivial
        | none =>
            rintro _ ⟨⟩ site ⟨⟩
            exact here
  | @bind α β first next begins goesOn ihFirst ihNext =>
      obtain ⟨talk, conducts, within⟩ := ihFirst
      obtain ⟨later, goesOnWith⟩ := Classical.skolem.mp ihNext
      refine ⟨fun length depth store => (talk length depth store).bind fun result =>
        later result length depth, fun host store => ?_, fun length depth store => ?_⟩
      · rw [Dialogue.answeredBy_bind, ← conducts host store]
        simp only [Bind.bind, EStateM.bind]
        cases first host store with
        | ok result between => exact (goesOnWith result).1 host between
        | error failure after => rfl
      · exact (within length depth store).bind fun result => (goesOnWith result).2 length depth

namespace Chain

variable {chain : Chain} {talk : Request → Nat → Nat → Store → Dialogue (Option Value)}

/-- For every host whatsoever, what the chain does to serve a request is to talk to it so. -/
def Conducts (chain : Chain)
    (talk : Request → Nat → Nat → Store → Dialogue (Option Value)) : Prop :=
  ∀ host wanted store, chain.resolveFor host wanted store
    = (talk wanted host.length host.depth store).answeredBy host

/-- In the course of a call within some depth there is another one, within a smaller depth. -/
inductive Nested (chain : Chain)
    (talk : Request → Nat → Nat → Store → Dialogue (Option Value)) :
    Nat → Call → Nat → Call → Prop where
  | direct {depth : Nat} {outer inner : Call}
      (asks : (talk outer.wanted chain.strategies.length depth outer.store).Asks
        (chain.hostWithin depth) inner) :
      Nested chain talk (depth + 1) outer depth inner
  | deeper {depth within : Nat} {outer between inner : Call}
      (asks : (talk outer.wanted chain.strategies.length depth outer.store).Asks
        (chain.hostWithin depth) between)
      (nested : Nested chain talk depth between within inner) :
      Nested chain talk (depth + 1) outer within inner

end Chain

/-- An error while a call is resolved is what the call comes to. -/
theorem Host.answer_of_error {host : Host} {call : Call} {failure : Failure} {after : Store}
    (outcome : host.resolve call.wanted call.store = .error failure after) :
    host.answer call = .error failure after := by
  unfold answer
  split
  · simp only [Functor.map, EStateM.map, request, Run.bind_of_error outcome]
  · exact outcome

/-- What a call fails with is the error of resolving it, or that there is no answer. -/
theorem Host.error_of_answer {host : Host} {call : Call} {failure : Failure} {after : Store}
    (outcome : host.answer call = .error failure after) :
    host.resolve call.wanted call.store = .error failure after ∨
      failure = .error (.unresolvable call.wanted.type call.wanted.site) := by
  unfold answer at outcome
  split at outcome
  · simp only [Functor.map, EStateM.map, request] at outcome
    cases resolved : host.resolve call.wanted call.store with
    | error cause last =>
        rw [Run.bind_of_error resolved] at outcome
        cases outcome
        exact Or.inl rfl
    | ok answer last =>
        rw [Run.bind_of_ok resolved] at outcome
        cases answer with
        | some value => cases outcome
        | none =>
            cases outcome
            exact Or.inr rfl
  · exact Or.inl outcome

namespace Chain

variable {chain : Chain} {talk : Request → Nat → Nat → Store → Dialogue (Option Value)}

theorem resolveWithin_of_conducts (conducts : chain.Conducts talk) (depth : Nat)
    (wanted : Request) (store : Store) :
    (chain.hostWithin (depth + 1)).resolve wanted store =
      (talk wanted chain.strategies.length depth store).answeredBy (chain.hostWithin depth) :=
  conducts (chain.hostWithin depth) wanted store

/-- By induction on the nesting: each call in between comes from the one before. -/
theorem Nested.comesFrom
    (within : ∀ wanted length depth store, (talk wanted length depth store).Within wanted.site)
    {depth innerDepth : Nat} {outer inner : Call}
    (nested : chain.Nested talk depth outer innerDepth inner) :
    inner.wanted.site.ComesFrom outer.wanted.site := by
  induction nested with
  | direct asks => exact (within _ _ _ _).comesFrom asks
  | deeper asks nested ih => exact ih.trans ((within _ _ _ _).comesFrom asks)

/-- By induction on the nesting: an error ends one dialogue after the other. -/
theorem Nested.answer_of_error (conducts : chain.Conducts talk)
    {depth innerDepth : Nat} {outer inner : Call}
    (nested : chain.Nested talk depth outer innerDepth inner) {failure : Failure} {after : Store}
    (broken : (chain.hostWithin innerDepth).answer inner = .error failure after) :
    (chain.hostWithin depth).answer outer = .error failure after := by
  induction nested with
  | direct asks =>
      apply Host.answer_of_error
      rw [resolveWithin_of_conducts conducts]
      exact Dialogue.answeredBy_of_asks asks broken
  | deeper asks nested ih =>
      apply Host.answer_of_error
      rw [resolveWithin_of_conducts conducts]
      exact Dialogue.answeredBy_of_asks asks (ih broken)

/-- By induction on the depth: the errors of nested calls come from their sites already. -/
theorem error_comesFrom (conducts : chain.Conducts talk)
    (within : ∀ wanted length depth store, (talk wanted length depth store).Within wanted.site)
    (depth : Nat) {call : Call} {cause : StubError} {after : Store}
    (outcome : (chain.hostWithin depth).answer call = .error (.error cause) after) :
    cause.ComesFrom call.wanted.site := by
  induction depth generalizing call cause after with
  | zero =>
      rcases Host.error_of_answer outcome with resolved | declined
      · cases resolved
      · cases declined
        exact fun site arose => Option.some.inj arose ▸ .refl _
  | succ depth ih =>
      rcases Host.error_of_answer outcome with resolved | declined
      · rw [resolveWithin_of_conducts conducts] at resolved
        refine (within _ _ _ _).error_comesFrom (fun inner cause after below broken => ?_) resolved
        exact (ih broken).trans below
      · cases declined
        exact fun site arose => Option.some.inj arose ▸ .refl _

end Chain

/--
Whoever the host is, a chain serves a request by talking to this host alone.  With the
chain as its own host, every nested request, however deep, is at a site that comes from
the site of the outer one, and an error in place of an answer to it is what the outer
request comes to, unchanged.  So every error of a request comes from its site.
-/
theorem nested_requests_keep_lineage (chain : Chain) (own : chain.Local) :
    ∃ talk, chain.Conducts talk ∧ ∀ depth outer,
      (∀ innerDepth inner, chain.Nested talk depth outer innerDepth inner →
        inner.wanted.site.ComesFrom outer.wanted.site ∧
        ∀ failure after, (chain.hostWithin innerDepth).answer inner = .error failure after →
          (chain.hostWithin depth).answer outer = .error failure after) ∧
      ∀ cause after, (chain.hostWithin depth).answer outer = .error (.error cause) after →
        cause.ComesFrom outer.wanted.site := by
  obtain ⟨talk, said⟩ := Classical.skolem.mp fun wanted =>
    (Composed.resolveFor own wanted).conducted
  have conducts : chain.Conducts talk := fun host wanted store => (said wanted).1 host store
  have within := fun wanted => (said wanted).2
  refine ⟨talk, conducts, fun depth outer => ⟨fun innerDepth inner nested => ⟨?_, ?_⟩, ?_⟩⟩
  · exact nested.comesFrom within
  · exact fun failure after broken => nested.answer_of_error conducts broken
  · exact fun cause after outcome => Chain.error_comesFrom conducts within depth outcome

/--
An included chain remembers options, and the outer one refuses to make texts: the error
is the one that arose at the type argument, below the memory, below the request.
-/
theorem refusal_below_remembered_option :
    let refusing : Strategy :=
      .enhancing (.constant (.plain Class.string) .null) (.failing "no texts")
    let remembering : Strategy := .memoizing ⟨0⟩ (.optional .present) .byType
    let chain := Chain.assemble [refusing] [⟨[remembering]⟩] Chain.empty
    let wanted : Request := ⟨.parameterized Class.option [.plain Class.string], .unknown⟩
    chain.Local ∧ ∃ site after,
      (chain.hostWithin 2).answer ⟨true, wanted, {}⟩
        = .error (.error (.produce (.plain Class.string) site "no texts")) after ∧
      site.ComesFrom .unknown := by
  intro refusing remembering chain wanted
  have own : chain.Local := by
    have refuses : refusing.Local := by
      refine ⟨trivial, fun site type value arose same => ?_⟩
      exact Option.some.inj same ▸ .refl site
    have remembers : remembering.Local := trivial
    intro strategy member
    rcases List.mem_cons.mp member with rfl | included
    · exact refuses
    · cases List.mem_singleton.mp included
      exact remembers
  obtain ⟨talk, conducts, lineage⟩ := nested_requests_keep_lineage chain own
  have outcome : ∃ site after, (chain.hostWithin 2).answer ⟨true, wanted, {}⟩
      = .error (.error (.produce (.plain Class.string) site "no texts")) after := ⟨_, _, rfl⟩
  rcases outcome with ⟨site, after, outcome⟩
  exact ⟨own, site, after, outcome, (lineage 2 _).2 _ after outcome site rfl⟩

end TestData
