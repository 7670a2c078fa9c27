import TestData.Failure
import TestData.Matcher.Basic
import TestData.Run.Generator
import TestData.Run.Table

namespace TestData

/-!
# The state of a run

Strategies and selectors are plain data.  What they remember from one request to
the next, such as sequence numbers, memoized values, selected members and the
draws of random generators, lives in a store, each piece under a cell that the
owner was given when it was made.  A strategy that is used in several places has
one cell, and so one memory.

The store also hands out identities for new objects, keeps the notes of objects
and traces what happened: probes, requests, supplied numbers, selections, memos
that were computed and memos that were handed out, latest first.
-/

/-- The name of a piece of state. -/
structure Cell where
  number : Nat
  deriving DecidableEq, Repr, Inhabited

/-- What tells apart the memoized values of one type. -/
inductive MemoScope where
  | shared
  | element (key : ElementKey)
  | custom (name : String)
  deriving DecidableEq, Repr

/-- The key under which a value is memoized. -/
structure MemoKey where
  type : TypeKey
  scope : MemoScope
  deriving DecidableEq, Repr

/-- Something that happened in a run. -/
inductive Event where
  | probed (name : String)
  | requested (type : TypeExpr) (site : Site)
  | supplied (cell : Cell) (number : UInt64)
  | selected (cell : Cell) (className : String)
  | computed (cell : Cell) (key : MemoKey)
  | recalled (cell : Cell) (key : MemoKey) (value : Value)

/-- The state of a run. -/
structure Store where
  nextIdentity : Nat := 0
  nextCell : Nat := 0
  notes : Table Nat (List Note) := .empty
  counters : Table Cell UInt64 := .empty
  memos : Table (Cell × MemoKey) Value := .empty
  constructors : Table (Cell × String) (Option Constructor) := .empty
  methods : Table (Cell × String) (Option Method) := .empty
  draws : Table Cell (List Nat) := .empty
  trace : List Event := []

/-- Computations that read and change the state of a run and cannot fail. -/
abbrev Step := StateM Store

theorem Step.pure_apply {α : Type} (result : α) (store : Store) :
    (pure result : Step α) store = (result, store) := rfl

theorem Step.not_isSome_of_none {α : Type} {step : Step (Option α)} {store after : Store}
    (outcome : step store = (none, after)) : ¬ (step store).1.isSome = true := by
  rw [outcome]
  exact Bool.false_ne_true

namespace Store

instance : Inhabited Store := ⟨{}⟩

/-- What happened so far, in order. -/
def events (store : Store) : List Event :=
  store.trace.reverse

/-- The names of the probes that were passed so far, in order. -/
def probes (store : Store) : List String :=
  store.events.filterMap fun event =>
    match event with
    | .probed name => some name
    | _ => none

/-- The store with what happened so far forgotten. -/
def withoutTrace (store : Store) : Store :=
  { store with trace := [] }

/-- The notes of an object, in order. -/
def notesOf (store : Store) (identity : Nat) : List Note :=
  (store.notes.find? identity).getD []

/-- A new object with the given content. -/
def create (content : Content) : Step Value := fun store =>
  (.object store.nextIdentity content, { store with nextIdentity := store.nextIdentity + 1 })

/-- A cell that nothing else uses. -/
def newCell : Step Cell := fun store =>
  (⟨store.nextCell⟩, { store with nextCell := store.nextCell + 1 })

/-- Trace an event. -/
def record (event : Event) : Step Unit :=
  modify fun store => { store with trace := event :: store.trace }

/-- Trace the probes of a verdict and give its answer. -/
def heed (verdict : Verdict) : Step Bool := fun store =>
  (verdict.holds,
    { store with trace := (verdict.probes.map Event.probed).reverse ++ store.trace })

/-- Add a note to the notes of an object. -/
def note (entry : Entry) : Step Unit :=
  modify fun store =>
    { store with
      notes := store.notes.insert entry.identity
        (store.notesOf entry.identity ++ [entry.note]) }

/-- The next sequence number of a cell; the numbers start at zero and wrap around. -/
def nextNumber (cell : Cell) : Step UInt64 := fun store =>
  let number := (store.counters.find? cell).getD 0
  (number, { store with
    counters := store.counters.insert cell (number + 1)
    trace := .supplied cell number :: store.trace })

/-- A random number below a bound, from the generator of a cell. -/
def draw (cell : Cell) (generator : Generator) (bound : Nat) : Step Nat := fun store =>
  let past := (store.draws.find? cell).getD []
  (generator.draw past bound, { store with draws := store.draws.insert cell (bound :: past) })

/--
A choice that is made once: what was remembered if there is something, else what
is chosen now, which is then remembered.
-/
def settle {α : Type} (remembered : Store → Option (Option α))
    (keep : Option α → Store → Store) (choose : Step (Option α)) : Step (Option α) := do
  match remembered (← get) with
  | some choice => return choice
  | none =>
      let choice ← choose
      modify (keep choice)
      return choice

theorem settle_of_known {α : Type} {remembered : Store → Option (Option α)}
    {store : Store} {choice : Option α} (known : remembered store = some choice)
    (keep : Option α → Store → Store) (choose : Step (Option α)) :
    settle remembered keep choose store = (choice, store) := by
  simp only [settle, bind, StateT.bind, get, getThe, MonadStateOf.get, StateT.get, pure, known]
  rfl

theorem settle_of_unknown {α : Type} {remembered : Store → Option (Option α)}
    {store : Store} (unknown : remembered store = none)
    (keep : Option α → Store → Store) (choose : Step (Option α)) :
    settle remembered keep choose store =
      ((choose store).1, keep (choose store).1 (choose store).2) := by
  simp only [settle, bind, StateT.bind, get, getThe, MonadStateOf.get, StateT.get, pure, unknown]
  rfl

/-- A choice was either remembered or is made now. -/
theorem remembered_or_chosen {α : Type} {remembered : Store → Option (Option α)}
    {keep : Option α → Store → Store} {choose : Step (Option α)} {store after : Store}
    {choice : Option α} (settled : settle remembered keep choose store = (choice, after)) :
    remembered store = some choice ∨ (choose store).1 = choice := by
  cases known : remembered store with
  | some old =>
      rw [settle_of_known known] at settled
      cases settled
      exact Or.inl rfl
  | none =>
      rw [settle_of_unknown known] at settled
      exact Or.inr (congrArg Prod.fst settled)

/-- In the end the choice is remembered. -/
theorem remembered_of_settle {α : Type} {remembered : Store → Option (Option α)}
    {keep : Option α → Store → Store} {choose : Step (Option α)} {store after : Store}
    {choice : Option α} (reads : ∀ choice store, remembered (keep choice store) = some choice)
    (settled : settle remembered keep choose store = (choice, after)) :
    remembered after = some choice := by
  cases known : remembered store with
  | some old =>
      rw [settle_of_known known] at settled
      cases settled
      exact known
  | none =>
      rw [settle_of_unknown known] at settled
      cases settled
      exact reads _ _

/-- What a call of a member comes to in the run: a value, or the message of a failure. -/
def carryOut : Reply → Step (Except String Value)
  | .existing value => return .ok value
  | .fresh content => return .ok (← create content)
  | .noted entry => do
      note entry
      return .ok (← create .unit)
  | .failed message => return .error message

/-- What setting a field comes to in the run: nothing, or the message of a failure. -/
def carryOutSetter : SetterReply → Step (Except String Unit)
  | .ok (some entry) => do
      note entry
      return .ok ()
  | .ok none => return .ok ()
  | .error message => return .error message

end Store

/-- Computations that change the state of a run and may fail; a failure keeps the changes. -/
abbrev Run := EStateM Failure Store

namespace Run

variable {α : Type}

/-- A computation that cannot fail, as one that may. -/
def ofStep (step : Step α) : Run α := fun store =>
  let (result, store) := step store
  .ok result store

/-- Fail with an error. -/
def fail (cause : StubError) : Run α :=
  throw (.error cause)

/-- The outcome of making a site, with the error of an invalid site. -/
def ofSite : Except SiteError α → Run α
  | .ok made => pure made
  | .error cause => fail (.invalidSite cause)

/-- The result of a bounded computation, or exhaustion. -/
def ofBounded : Bounded α → Run α
  | .ok result => pure result
  | .error _ => throw .exhausted

/-- The outcome of a computation, be it an error; that it ran out of depth is no outcome. -/
def attempt (computation : Run α) : Run (Except StubError α) := fun store =>
  match computation store with
  | .ok result store => .ok (.ok result) store
  | .error (.error cause) store => .ok (.error cause) store
  | .error .exhausted store => .error .exhausted store

/-- Go on with a computation a number of times; what it gave so far is gathered, latest first. -/
def gather (computation : Run α) (gathered : List α) : Nat → Run (List α)
  | 0, store => .ok gathered.reverse store
  | count + 1, store =>
      match computation store with
      | .ok result store => gather computation (result :: gathered) count store
      | .error cause store => .error cause store

/-- What a computation gives when it is carried out a number of times; its first failure ends it. -/
def times (count : Nat) (computation : Run α) : Run (List α) :=
  gather computation [] count

instance : MonadLift Step Run := ⟨ofStep⟩

@[simp]
theorem ofStep_apply (step : Step α) (store : Store) :
    ofStep step store = .ok (step store).1 (step store).2 := rfl

theorem get_apply (store : Store) : (get : Run Store) store = .ok store store := rfl

theorem bind_of_ok {β : Type} {computation : Run α} {next : α → Run β} {store between : Store}
    {result : α} (outcome : computation store = .ok result between) :
    (computation >>= next) store = next result between := by
  simp only [bind, EStateM.bind, outcome]

theorem bind_of_error {β : Type} {computation : Run α} {next : α → Run β}
    {store after : Store} {failure : Failure} (outcome : computation store = .error failure after) :
    (computation >>= next) store = .error failure after := by
  simp only [bind, EStateM.bind, outcome]

theorem attempt_of_ok {computation : Run α} {store after : Store} {result : α}
    (outcome : computation store = .ok result after) :
    attempt computation store = .ok (.ok result) after := by
  simp only [attempt, outcome]

theorem attempt_of_error {computation : Run α} {store after : Store} {cause : StubError}
    (outcome : computation store = .error (.error cause) after) :
    attempt computation store = .ok (.error cause) after := by
  simp only [attempt, outcome]

theorem attempt_of_exhausted {computation : Run α} {store after : Store}
    (outcome : computation store = .error .exhausted after) :
    attempt computation store = .error .exhausted after := by
  simp only [attempt, outcome]

theorem gather_eq (computation : Run α) (gathered : List α) (count : Nat) (store : Store) :
    gather computation gathered count store =
      match times count computation store with
      | .ok results store => .ok (gathered.reverse ++ results) store
      | .error cause store => .error cause store := by
  induction count generalizing gathered store with
  | zero => simp [times, gather]
  | succ count ih =>
      simp only [times, gather]
      cases computation store with
      | error cause store => rfl
      | ok result store =>
          simp only [ih (result :: gathered), ih [result]]
          cases times count computation store <;> simp

@[simp]
theorem times_zero (computation : Run α) : times 0 computation = pure [] := rfl

theorem times_succ (count : Nat) (computation : Run α) :
    times (count + 1) computation = do
      let result ← computation
      let results ← times count computation
      return result :: results := by
  funext store
  simp only [times, gather, bind, EStateM.bind]
  cases computation store with
  | error cause store => rfl
  | ok result store =>
      simp only [gather_eq computation [result]]
      cases h : times count computation store <;> simp_all [times, pure, EStateM.pure]

end Run
end TestData
