import TestData.Strategy.Host

namespace TestData

/-!
# Requests one after the other

Strategies that need several stubs request them in turn.  Each request starts from the store that
the one before it has left, and the first that fails is the last one that is made.
-/

/-- Every two neighbours as a pair: the first with the second, the third with the fourth. -/
def pairUp {α : Type} : List α → List (α × α)
  | first :: second :: rest => (first, second) :: pairUp rest
  | _ => []

namespace Host

/-- All the requests are answered, one after the other. -/
inductive GivesInTurn (host : Host) : List Request → List Value → Store → Store → Prop where
  | none (store : Store) : GivesInTurn host [] [] store store
  | next {wanted : Request} {rest : List Request} {value : Value} {values : List Value}
      {store between after : Store} (given : host.request wanted store = .ok value between)
      (later : GivesInTurn host rest values between after) :
      GivesInTurn host (wanted :: rest) (value :: values) store after

/-- Some requests are answered, the next one fails, and those behind it are not made. -/
def FailsInTurn (host : Host) (requests : List Request) (store : Store) (failure : Failure)
    (after : Store) : Prop :=
  ∃ front failing rest values between, requests = front ++ failing :: rest ∧
    host.GivesInTurn front values store between ∧
    host.request failing between = .error failure after

/-- The stubs for requests that are made one after the other. -/
def requestAll (host : Host) (requests : List Request) : Run (List Value) :=
  requests.mapM host.request

variable {host : Host} {requests front : List Request} {values : List Value}
  {store between after : Store} {failure : Failure}

/-- By induction on the requests, all are answered or there is a first one that fails. -/
theorem givesInTurn_or_failsInTurn (host : Host) (requests : List Request) (store : Store) :
    (∃ values after, host.GivesInTurn requests values store after) ∨
      ∃ failure after, host.FailsInTurn requests store failure after := by
  induction requests generalizing store with
  | nil => exact .inl ⟨[], store, .none store⟩
  | cons wanted rest ih =>
      cases first : host.request wanted store with
      | error failure after =>
          exact .inr ⟨failure, after, [], wanted, rest, [], store, rfl, .none store, first⟩
      | ok value between =>
          rcases ih between with ⟨values, after, given⟩ |
            ⟨failure, after, front, failing, behind, values, stopped, split, given, failed⟩
          · exact .inl ⟨value :: values, after, .next first given⟩
          · exact .inr ⟨failure, after, wanted :: front, failing, behind, value :: values, stopped,
              congrArg (wanted :: ·) split, .next first given, failed⟩

/-! ## Making all requests -/

theorem requestAll_cons (host : Host) (wanted : Request) (rest : List Request) :
    host.requestAll (wanted :: rest) = do
      let value ← host.request wanted
      let values ← host.requestAll rest
      return value :: values :=
  List.mapM_cons

theorem requestAll_of_given (given : host.GivesInTurn requests values store after) :
    host.requestAll requests store = .ok values after := by
  induction given with
  | none store => rfl
  | next given later ih =>
      rw [requestAll_cons, Run.bind_of_ok given, Run.bind_of_ok ih]
      rfl

/-- What is behind the first request that fails makes no difference. -/
theorem requestAll_of_failed {failing : Request}
    (given : host.GivesInTurn front values store between)
    (failed : host.request failing between = .error failure after) (rest : List Request) :
    host.requestAll (front ++ failing :: rest) store = .error failure after := by
  induction given with
  | none store =>
      rw [List.nil_append, requestAll_cons]
      exact Run.bind_of_error failed
  | next given later ih =>
      rw [List.cons_append, requestAll_cons, Run.bind_of_ok given]
      exact Run.bind_of_error (ih failed)

theorem requestAll_ok_iff :
    host.requestAll requests store = .ok values after ↔
      host.GivesInTurn requests values store after := by
  constructor
  · intro outcome
    rcases givesInTurn_or_failsInTurn host requests store with
      ⟨answers, last, given⟩ |
      ⟨cause, last, front, failing, rest, answers, stopped, rfl, given, failed⟩
    · cases (requestAll_of_given given).symm.trans outcome
      exact given
    · cases (requestAll_of_failed given failed rest).symm.trans outcome
  · exact requestAll_of_given

theorem requestAll_error_iff :
    host.requestAll requests store = .error failure after ↔
      host.FailsInTurn requests store failure after := by
  constructor
  · intro outcome
    rcases givesInTurn_or_failsInTurn host requests store with
      ⟨answers, last, given⟩ |
      ⟨cause, last, front, failing, rest, answers, stopped, rfl, given, failed⟩
    · cases (requestAll_of_given given).symm.trans outcome
    · cases (requestAll_of_failed given failed rest).symm.trans outcome
      exact ⟨front, failing, rest, answers, stopped, rfl, given, failed⟩
  · rintro ⟨front, failing, rest, values, between, rfl, given, failed⟩
    exact requestAll_of_failed given failed rest

/-! ## The same requests over and over -/

theorem times_request (host : Host) (count : Nat) (wanted : Request) :
    Run.times count (host.request wanted) = host.requestAll (List.replicate count wanted) := by
  induction count with
  | zero => rfl
  | succ count ih => rw [Run.times_succ, List.replicate_succ, requestAll_cons, ih]

/-- Two requests in turn, over and over: the answers belong together in pairs. -/
theorem times_requestBoth (host : Host) (count : Nat) (first second : Request) :
    Run.times count (host.requestBoth first second) =
      pairUp <$> host.requestAll (List.replicate count [first, second]).flatten := by
  induction count with
  | zero => rfl
  | succ count ih =>
      rw [Run.times_succ, List.replicate_succ, List.flatten_cons, ih]
      simp only [List.cons_append, List.nil_append, requestAll_cons, requestBoth,
        map_eq_pure_bind, bind_assoc, pure_bind, pairUp]

end Host
end TestData
