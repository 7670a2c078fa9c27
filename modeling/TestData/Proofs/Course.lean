import TestData.Proofs.Searching

namespace TestData

/-!
# The course of a run

What is to be shown of a run is often of one form: every store it comes to stands in
some relation to the store it began in, and it fails only in certain ways.  A course is
such a pair of relations, closed under going on.  That a computation keeps to a course
is checked piece by piece along its binds; the changes that serving a request makes to
a store are few, and a course says of each whether it is allowed.
-/

/-- The events that tell what became of memos. -/
def Event.isAboutMemos : Event → Bool
  | .computed .. | .recalled .. => true
  | .probed _ | .requested .. | .supplied .. | .selected .. => false

namespace Store

/-- The same is remembered from one request to the next. -/
structure Alike (before after : Store) : Prop where
  memos : after.memos = before.memos
  constructors : after.constructors = before.constructors
  methods : after.methods = before.methods

theorem Alike.trans {before between after : Store} (first : Alike before between)
    (second : Alike between after) : Alike before after :=
  ⟨second.memos.trans first.memos, second.constructors.trans first.constructors,
    second.methods.trans first.methods⟩

/-- What is remembered is as it was, and no memo was in play. -/
structure Quiet (before after : Store) : Prop where
  alike : Alike before after
  trace : ∃ news, after.trace = news ++ before.trace ∧
    ∀ event ∈ news, event.isAboutMemos = false

theorem Quiet.refl (store : Store) : Quiet store store :=
  ⟨⟨rfl, rfl, rfl⟩, [], rfl, by simp⟩

theorem Quiet.trans {before between after : Store} (first : Quiet before between)
    (second : Quiet between after) : Quiet before after := by
  rcases first.trace with ⟨early, earlyTrace, earlyQuiet⟩
  rcases second.trace with ⟨late, lateTrace, lateQuiet⟩
  refine ⟨first.alike.trans second.alike, late ++ early, ?_, ?_⟩
  · rw [lateTrace, earlyTrace, List.append_assoc]
  · intro event member
    rcases List.mem_append.mp member with new | old
    · exact lateQuiet event new
    · exact earlyQuiet event old

/-- What serving a request does to a store, apart from settling on a member of a class. -/
inductive Change : Store → Store → Prop where
  | quiet {before after : Store} (quiet : Quiet before after) : Change before after
  | computing {store : Store} {cell : Cell} {key : MemoKey}
      (unknown : store.memos.find? (cell, key) = none) :
      Change store (record (.computed cell key) store).2
  | recalling {store : Store} {cell : Cell} {key : MemoKey} {value : Value}
      (known : store.memos.find? (cell, key) = some value) :
      Change store (record (.recalled cell key value) store).2
  | remembering {store : Store} {cell : Cell} {key : MemoKey} (value : Value)
      (unknown : store.memos.find? (cell, key) = none) :
      Change store
        (record (.recalled cell key value)
          { store with memos := store.memos.insert (cell, key) value }).2

end Store

/-! ## Steps made of elementary ones -/

/--
The step makes objects and notes, hands out numbers and traces what it does, and leaves
alone what is remembered from one request to the next.
-/
inductive Step.Plain : {α : Type} → Step α → Prop where
  | pure {α : Type} (result : α) : Plain (Pure.pure result : Step α)
  | bind {α β : Type} {step : Step α} {next : α → Step β} (first : Plain step)
      (second : ∀ result, Plain (next result)) : Plain (step >>= next)
  | create (content : Content) : Plain (Store.create content)
  | note (entry : Entry) : Plain (Store.note entry)
  | draw (cell : Cell) (generator : Generator) (bound : Nat) :
      Plain (Store.draw cell generator bound)
  | nextNumber (cell : Cell) : Plain (Store.nextNumber cell)
  | record {event : Event} (quiet : event.isAboutMemos = false) : Plain (Store.record event)
  | heed (verdict : Verdict) : Plain (Store.heed verdict)

namespace Step

variable {α : Type}

/-- A plain step leaves alone what is remembered, wherever it is taken. -/
theorem Plain.quiet {step : Step α} (plain : Plain step) (store : Store) :
    Store.Quiet store (step store).2 := by
  induction plain generalizing store with
  | pure result => exact .refl store
  | bind first second quiet quietNext => exact (quiet store).trans (quietNext _ _)
  | create content => exact ⟨⟨rfl, rfl, rfl⟩, [], rfl, by simp⟩
  | note entry => exact ⟨⟨rfl, rfl, rfl⟩, [], rfl, by simp⟩
  | draw cell generator bound => exact ⟨⟨rfl, rfl, rfl⟩, [], rfl, by simp⟩
  | nextNumber cell => exact ⟨⟨rfl, rfl, rfl⟩, [_], rfl, by simp [Event.isAboutMemos]⟩
  | @record event quiet => exact ⟨⟨rfl, rfl, rfl⟩, [event], rfl, by simpa using quiet⟩
  | heed verdict =>
      refine ⟨⟨rfl, rfl, rfl⟩, (verdict.probes.map Event.probed).reverse, rfl, ?_⟩
      intro event member
      rcases List.mem_map.mp (List.mem_reverse.mp member) with ⟨name, -, rfl⟩
      rfl

theorem plain_carryOut (reply : Reply) : Plain (Store.carryOut reply) := by
  cases reply with
  | existing value => exact .pure _
  | fresh content => exact .bind (.create content) fun _ => .pure _
  | noted entry => exact .bind (.note entry) fun _ => .bind (.create .unit) fun _ => .pure _
  | failed message => exact .pure _

theorem plain_carryOutSetter (reply : SetterReply) : Plain (Store.carryOutSetter reply) := by
  rcases reply with message | (_ | entry)
  · exact .pure _
  · exact .pure _
  · exact .bind (.note entry) fun _ => .pure _

/-- Whatever is asked and drawn in a search, what is remembered stays as it is. -/
theorem Searching.plain {cells : Cell → Prop} {step : Step α} (searching : Searching cells step) :
    Plain step := by
  induction searching with
  | pure result => exact .pure result
  | bind _ _ first second => exact .bind first second
  | heed verdict => exact .heed verdict
  | draw _ generator bound => exact .draw _ generator bound

theorem plain_select (selector : Selector α) (site : Site) (candidates : List (Option α)) :
    Plain (selector.select site candidates) :=
  (searching_select selector.uses_all site candidates).plain

theorem plain_chosenConstant (selector : Selector Value) (site : Site) (type : TypeExpr) :
    Plain (Strategy.chosenConstant selector site type) :=
  (searching_chosenConstant selector.uses_all site type).plain

theorem plain_methodsToCall (matcher : Matcher Method) (site : Site) (type : TypeExpr) :
    Plain (Enhancer.methodsToCall matcher site type) :=
  (@searching_methodsToCall (fun _ => True) matcher site type).plain

end Step

/-! ## Courses and the computations that keep to them -/

/-- Whether an error says that a request could not be served. -/
def StubError.isUnresolvable : StubError → Bool
  | .unresolvable .. => true
  | .unsupported _ | .invalidSite _ | .produce .. | .config _ | .io | .serialization => false

/--
What may become of a store, and in which failures a computation may end.  Failing with
an error that is not about a request of its own is always allowed.  Where a failure is
overcome the run goes on, so a store that is left by a failure is one that may be reached.
-/
structure Course where
  reaches : Store → Store → Prop
  fails : Store → Failure → Store → Prop
  refl (store : Store) : reaches store store
  trans {before between after : Store} :
    reaches before between → reaches between after → reaches before after
  reaches_of_fails {before after : Store} {failure : Failure} :
    fails before failure after → reaches before after
  fails_after {before between after : Store} {failure : Failure} :
    reaches before between → fails between failure after → fails before failure after
  change {before after : Store} : Store.Change before after → reaches before after
  fails_ordinary (store : Store) {cause : StubError} :
    cause.isUnresolvable = false → fails store (.error cause) store

/-- The store a computation leaves behind, however it ended. -/
def Run.left {α : Type} : EStateM.Result Failure Store α → Store
  | .ok _ after => after
  | .error _ after => after

namespace Course

variable {α β : Type} {course : Course}

/-- A course that also puts no limit on what members are picked and how deep a run goes. -/
structure Lenient (course : Course) : Prop where
  constructors (store : Store) (slot : Cell × String) (choice : Option Constructor) :
    course.reaches store { store with constructors := store.constructors.insert slot choice }
  methods (store : Store) (slot : Cell × String) (choice : Option Method) :
    course.reaches store { store with methods := store.methods.insert slot choice }
  exhausts (store : Store) : course.fails store .exhausted store

/-- Taken in a store, the step keeps to the course. -/
def Admits (course : Course) (step : Step α) (before : Store) : Prop :=
  course.reaches before (step before).2

/-- Carried out in a store, the computation keeps to the course, however it ends. -/
def Keeps (course : Course) (computation : Run α) (before : Store) : Prop :=
  match computation before with
  | .ok _ after => course.reaches before after
  | .error failure after => course.fails before failure after

theorem admits_plain {step : Step α} (plain : step.Plain) (store : Store) :
    course.Admits step store :=
  course.change (.quiet (plain.quiet store))

theorem admits_pure (result : α) (store : Store) : course.Admits (pure result) store :=
  course.refl store

theorem admits_bind {step : Step α} {next : α → Step β} {store : Store}
    (first : course.Admits step store)
    (second : course.Admits (next (step store).1) (step store).2) :
    course.Admits (step >>= next) store :=
  course.trans first second

theorem keeps_pure (result : α) (store : Store) : course.Keeps (pure result) store :=
  course.refl store

theorem keeps_throw {failure : Failure} {store : Store}
    (fails : course.fails store failure store) :
    course.Keeps (throw failure : Run α) store :=
  fails

/-- A computation that ended well, and what it goes on with. -/
theorem keeps_bind_of_ok {computation : Run α} {next : α → Run β} {store between : Store}
    {result : α} (outcome : computation store = .ok result between)
    (reached : course.reaches store between) (goesOn : course.Keeps (next result) between) :
    course.Keeps (computation >>= next) store := by
  unfold Keeps at goesOn ⊢
  rw [Run.bind_of_ok outcome]
  cases last : next result between with
  | ok final after => exact course.trans reached (by simpa only [last] using goesOn)
  | error failure after => exact course.fails_after reached (by simpa only [last] using goesOn)

/-- Going on after a computation is looked at only where the computation ended well. -/
theorem keeps_bind {computation : Run α} {next : α → Run β} {store : Store}
    (first : course.Keeps computation store)
    (second : ∀ result after, computation store = .ok result after →
      course.Keeps (next result) after) :
    course.Keeps (computation >>= next) store := by
  unfold Keeps at first
  cases outcome : computation store with
  | error failure after =>
      unfold Keeps
      rw [Run.bind_of_error outcome]
      simpa only [outcome] using first
  | ok result between =>
      have reached : course.reaches store between := by simpa only [outcome] using first
      exact keeps_bind_of_ok outcome reached (second result between outcome)

theorem keeps_ofStep {step : Step α} {store : Store} (admitted : course.Admits step store) :
    course.Keeps (Run.ofStep step) store :=
  admitted

/-- A step in front of a computation, where it is known what the step comes to. -/
theorem keeps_step_bind {step : Step α} {next : α → Run β} {store after : Store} {result : α}
    (taken : step store = (result, after)) (admitted : course.Admits step store)
    (goesOn : course.Keeps (next result) after) :
    course.Keeps (Run.ofStep step >>= next) store := by
  refine keeps_bind (keeps_ofStep admitted) fun given last outcome => ?_
  rw [Run.ofStep_apply, taken] at outcome
  cases outcome
  exact goesOn

theorem keeps_ofSite (made : Except SiteError α) (store : Store) :
    course.Keeps (Run.ofSite made) store := by
  cases made with
  | ok result => exact keeps_pure result store
  | error cause => exact keeps_throw (course.fails_ordinary store rfl)

/-- A bounded computation changes nothing; whether it may run out has to be known. -/
theorem keeps_ofBounded {bounded : Bounded α} {store : Store}
    (exhausts : bounded = .error ⟨⟩ → course.fails store .exhausted store) :
    course.Keeps (Run.ofBounded bounded) store := by
  rcases bounded with ⟨⟩ | result
  · exact keeps_throw (exhausts rfl)
  · exact keeps_pure result store

theorem keeps_times {computation : Run α} (each : ∀ store, course.Keeps computation store)
    (count : Nat) (store : Store) : course.Keeps (Run.times count computation) store := by
  induction count generalizing store with
  | zero => exact keeps_pure [] store
  | succ count ih =>
      rw [Run.times_succ]
      refine keeps_bind (each store) fun result after _ => ?_
      exact keeps_bind (ih after) fun results last _ => keeps_pure _ last

/-! ## Requests at a host -/

/-- Requests of this kind keep to the course, whether or not the host must serve them. -/
structure Serves (course : Course) (host : Host) (wanted : Request) : Prop where
  resolve (store : Store) : course.Keeps (host.resolve wanted) store
  request (store : Store) : course.Keeps (host.request wanted) store

/-- The host's answers keep to the course if declining a request may count as a failure. -/
theorem serves_of_resolve {host : Host} {wanted : Request}
    (resolve : ∀ store, course.Keeps (host.resolve wanted) store)
    (declines : ∀ store after, host.resolve wanted store = .ok none after →
      course.fails store (.error (.unresolvable wanted.type wanted.site)) after) :
    course.Serves host wanted where
  resolve := resolve
  request store := by
    have kept := resolve store
    unfold Keeps at kept ⊢
    cases outcome : host.resolve wanted store with
    | error failure after =>
        rw [Host.request, Run.bind_of_error outcome]
        simpa only [outcome] using kept
    | ok answer after =>
        rw [Host.request, Run.bind_of_ok outcome]
        cases answer with
        | none => exact declines store after outcome
        | some value =>
            have reached : course.reaches store after := by simpa only [outcome] using kept
            exact reached

/--
Once a request has come to an outcome the run goes on from there, also behind an error, or
it ends in what the missing answer or the error is handed on as.
-/
theorem keeps_attempt_bind {host : Host} {wanted : Request} (serves : course.Serves host wanted)
    {next : Outcome → Run α}
    (goesOn : ∀ outcome, (∀ after, course.Keeps (next outcome) after) ∨
      ∃ cause, wanted.demand outcome = .error cause ∧ next outcome = Run.fail cause)
    (store : Store) : course.Keeps (Run.attempt (host.resolve wanted) >>= next) store := by
  have resolves := serves.resolve store
  unfold Keeps at resolves
  cases outcome : host.resolve wanted store with
  | ok answer after =>
      have reached : course.reaches store after := by simpa only [outcome] using resolves
      have attempted := Run.attempt_of_ok outcome
      rcases goesOn (.ok answer) with kept | ⟨cause, missing, handsOn⟩
      · exact keeps_bind_of_ok attempted reached (kept after)
      · cases answer with
        | some value => cases missing
        | none =>
            cases missing
            have declines := serves.request store
            unfold Keeps at declines ⊢
            rw [Host.request, Run.bind_of_ok outcome] at declines
            rw [Run.bind_of_ok attempted, handsOn]
            exact declines
  | error failure after =>
      have fails : course.fails store failure after := by simpa only [outcome] using resolves
      cases failure with
      | error cause =>
          have attempted := Run.attempt_of_error outcome
          rcases goesOn (.error cause) with kept | ⟨same, handed, handsOn⟩
          · exact keeps_bind_of_ok attempted (course.reaches_of_fails fails) (kept after)
          · cases handed
            unfold Keeps
            rw [Run.bind_of_ok attempted, handsOn]
            exact fails
      | exhausted =>
          unfold Keeps
          rw [Run.bind_of_error (Run.attempt_of_exhausted outcome)]
          exact fails

theorem keeps_requestBoth {host : Host} {first second : Request}
    (servesFirst : course.Serves host first) (servesSecond : course.Serves host second)
    (store : Store) : course.Keeps (host.requestBoth first second) store := by
  refine keeps_bind (servesFirst.request store) fun left between _ => ?_
  exact keeps_bind (servesSecond.request between) fun right after _ => keeps_pure _ after

theorem keeps_requestArguments {host : Host} {bindings : Bindings}
    {siteOf : Parameter → Except SiteError Site} {parameters : List Parameter}
    (serves : ∀ parameter ∈ parameters, ∀ site,
      course.Serves host ⟨bindings.resolve parameter.type, site⟩)
    (store : Store) :
    course.Keeps (host.requestArguments bindings siteOf parameters) store := by
  induction parameters generalizing store with
  | nil => exact keeps_pure [] store
  | cons parameter rest ih =>
      have servesRest := ih fun other member => serves other (List.mem_cons_of_mem _ member)
      refine keeps_bind (keeps_ofSite _ store) fun site between _ => ?_
      refine keeps_bind ((serves parameter List.mem_cons_self site).request between)
        fun value after _ => ?_
      exact keeps_bind (servesRest after) fun values last _ => keeps_pure _ last

end Course
end TestData
