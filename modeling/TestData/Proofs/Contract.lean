import TestData.Proofs.Integrity

namespace TestData

/-!
# What computations promise

Often something is to be known of the result of a computation, whatever store it began in.
A contract names what holds of the store all the time and in which ways a computation may
fail; under a contract a computation gives results of one kind.  What a strategy gives is
put together from what its requests give, with one lemma for each way of making a stub.
-/

/-- What holds of every store, and how a computation may fail; only members matter to it. -/
structure Contract where
  holds : Store → Prop
  fails : Failure → Prop
  alike {before after : Store} : before.Alike after → holds before → holds after

namespace Contract

variable {contract : Contract} {α β : Type}

/-- The step keeps what holds of the store, and its result is of the kind. -/
def Takes (contract : Contract) (step : Step α) (kind : α → Prop) : Prop :=
  ∀ store, contract.holds store → contract.holds (step store).2 ∧ kind (step store).1

/-- The computation does so too, unless it fails in a way that is allowed. -/
def Gives (contract : Contract) (computation : Run α) (kind : α → Prop) : Prop :=
  ∀ store, contract.holds store →
    match computation store with
    | .ok result after => contract.holds after ∧ kind result
    | .error failure after => contract.holds after ∧ contract.fails failure

/-! ## Steps -/

theorem takes_pure {result : α} {kind : α → Prop} (given : kind result) :
    contract.Takes (pure result) kind :=
  fun _ holds => ⟨holds, given⟩

theorem takes_plain {step : Step α} (plain : step.Plain) {kind : α → Prop}
    (given : ∀ store, contract.holds store → kind (step store).1) : contract.Takes step kind :=
  fun store holds => ⟨contract.alike (plain.quiet store).alike holds, given store holds⟩

theorem takes_bind {step : Step α} {next : α → Step β} {kind : α → Prop} {last : β → Prop}
    (first : contract.Takes step kind)
    (goesOn : ∀ result, kind result → contract.Takes (next result) last) :
    contract.Takes (step >>= next) last := by
  intro store holds
  have between := first store holds
  exact goesOn (step store).1 between.2 (step store).2 between.1

/--
A choice is remembered or made now.  Only one that is made now has to be put down, so more
may be known of it there.
-/
theorem takes_settle {remembered : Store → Option (Option α)} {keep : Option α → Store → Store}
    {choose : Step (Option α)} {picked kind : Option α → Prop}
    (known : ∀ {store choice}, contract.holds store → remembered store = some choice → kind choice)
    (chooses : contract.Takes choose picked)
    (keeps : ∀ {store choice}, contract.holds store → picked choice →
      contract.holds (keep choice store) ∧ kind choice) :
    contract.Takes (Store.settle remembered keep choose) kind := by
  intro store holds
  cases settled : remembered store with
  | some choice =>
      rw [Store.settle_of_known settled]
      exact ⟨holds, known holds settled⟩
  | none =>
      rw [Store.settle_of_unknown settled]
      have chosen := chooses store holds
      exact keeps chosen.1 chosen.2

/-- What a search through strategies finds is one of them. -/
theorem takes_firstAccepting {strategies : List Strategy} {wanted : Request}
    (accepts : ∀ strategy ∈ strategies,
      contract.Takes (strategy.accepts wanted.site wanted.type) fun _ => True) :
    contract.Takes (Chain.firstAccepting strategies wanted) fun found =>
      ∀ strategy ∈ found, strategy ∈ strategies := by
  induction strategies with
  | nil => exact takes_pure fun _ member => nomatch member
  | cons strategy rest ih =>
      refine takes_bind (accepts strategy List.mem_cons_self) fun accepted _ => ?_
      cases accepted with
      | true =>
          refine takes_pure ?_
          rintro _ ⟨⟩
          exact List.mem_cons_self
      | false =>
          have behind := ih fun other member => accepts other (List.mem_cons_of_mem _ member)
          exact fun store holds => ⟨(behind store holds).1, fun other found =>
            List.mem_cons_of_mem _ ((behind store holds).2 other found)⟩

/-! ## Computations -/

theorem gives_ofStep {step : Step α} {kind : α → Prop} (taken : contract.Takes step kind) :
    contract.Gives (Run.ofStep step) kind :=
  taken

theorem gives_pure {result : α} {kind : α → Prop} (given : kind result) :
    contract.Gives (pure result) kind :=
  fun _ holds => ⟨holds, given⟩

theorem gives_throw {failure : Failure} (allowed : contract.fails failure) (kind : α → Prop) :
    contract.Gives (throw failure : Run α) kind :=
  fun _ holds => ⟨holds, allowed⟩

theorem gives_ofBounded {bounded : Bounded α} (allowed : contract.fails .exhausted)
    {kind : α → Prop} (given : ∀ result, bounded = .ok result → kind result) :
    contract.Gives (Run.ofBounded bounded) kind := by
  cases bounded with
  | ok result => exact gives_pure (given result rfl)
  | error exhausted => exact gives_throw allowed kind

theorem gives_bind {computation : Run α} {next : α → Run β} {kind : α → Prop} {last : β → Prop}
    (first : contract.Gives computation kind)
    (goesOn : ∀ result, kind result → contract.Gives (next result) last) :
    contract.Gives (computation >>= next) last := by
  intro store holds
  have began := first store holds
  cases outcome : computation store with
  | ok result between =>
      rw [outcome] at began
      rw [Run.bind_of_ok outcome]
      exact goesOn result began.2 between began.1
  | error failure after =>
      rw [outcome] at began
      rw [Run.bind_of_error outcome]
      exact began

theorem Gives.mono {computation : Run α} {kind wider : α → Prop}
    (gives : contract.Gives computation kind) (among : ∀ result, kind result → wider result) :
    contract.Gives computation wider := by
  intro store holds
  have given := gives store holds
  split
  · next outcome =>
      rw [outcome] at given
      exact ⟨given.1, among _ given.2⟩
  · next outcome =>
      rw [outcome] at given
      exact given

/-- What holds of the store holds of what is left of it, however the computation ended. -/
theorem Gives.left {computation : Run α} {kind : α → Prop} (gives : contract.Gives computation kind)
    {store : Store} (holds : contract.holds store) :
    contract.holds (Run.left (computation store)) := by
  have given := gives store holds
  cases outcome : computation store with
  | ok result after =>
      rw [outcome] at given
      exact given.1
  | error failure after =>
      rw [outcome] at given
      exact given.1

/-- A computation that is repeated gives as many results as it is carried out. -/
theorem gives_times {computation : Run α} {kind : α → Prop}
    (each : contract.Gives computation kind) (count : Nat) :
    contract.Gives (Run.times count computation) fun results =>
      results.length = count ∧ ∀ result ∈ results, kind result := by
  induction count with
  | zero => exact gives_pure ⟨rfl, fun _ member => nomatch member⟩
  | succ count ih =>
      rw [Run.times_succ]
      refine gives_bind each fun result given => gives_bind ih fun results others => ?_
      exact gives_pure ⟨congrArg (· + 1) others.1, List.forall_mem_cons.mpr ⟨given, others.2⟩⟩

/-! ## Requests -/

variable {host : Host} {kind : Value → Prop}

/-- An answer is handed on; that there is none has to be ruled out, or it is a failure. -/
theorem gives_request {wanted : Request} {answers : Option Value → Prop}
    (resolves : contract.Gives (host.resolve wanted) answers)
    (answered : ∀ value, answers (some value) → kind value)
    (refused : answers none → contract.fails (.error (.unresolvable wanted.type wanted.site))) :
    contract.Gives (host.request wanted) kind := by
  refine gives_bind resolves fun answer given => ?_
  cases answer with
  | some value => exact gives_pure (answered value given)
  | none => exact gives_throw (refused given) kind

theorem gives_requestBoth {first second : Request} {left right : Value → Prop}
    (begins : contract.Gives (host.request first) left)
    (goesOn : contract.Gives (host.request second) right) :
    contract.Gives (host.requestBoth first second) fun pair => left pair.1 ∧ right pair.2 :=
  gives_bind begins fun _ early => gives_bind goesOn fun _ late => gives_pure ⟨early, late⟩

theorem gives_requestArguments {bindings : Bindings} {siteOf : Parameter → Except SiteError Site}
    (invalid : ∀ cause, contract.fails (.error (.invalidSite cause))) {parameters : List Parameter}
    (each : ∀ parameter ∈ parameters, ∀ site,
      contract.Gives (host.request ⟨bindings.resolve parameter.type, site⟩) kind) :
    contract.Gives (host.requestArguments bindings siteOf parameters) fun arguments =>
      ∀ argument ∈ arguments, kind argument := by
  induction parameters with
  | nil => exact gives_pure fun _ member => nomatch member
  | cons parameter rest ih =>
      have others := ih fun other member => each other (List.mem_cons_of_mem _ member)
      rw [Host.requestArguments]
      cases siteOf parameter with
      | error cause => exact gives_throw (invalid cause) _
      | ok site =>
          rw [Run.ofSite, pure_bind]
          refine gives_bind (each parameter List.mem_cons_self site) fun value given => ?_
          refine gives_bind others fun values among => ?_
          exact gives_pure (List.forall_mem_cons.mpr ⟨given, among⟩)

/-! ## Making stubs -/

variable {site : Site} {type : TypeExpr}

/-- The value is an object with a content of this sort. -/
def Holding (sort : Content → Prop) (value : Value) : Prop :=
  ∃ identity content, value = .object identity content ∧ sort content

theorem gives_create {content : Content} {sort : Content → Prop} (fits : sort content) :
    contract.Gives (Run.ofStep (Store.create content)) (Holding sort) :=
  gives_ofStep (takes_plain (.create content) fun _ _ => ⟨_, content, rfl, fits⟩)

/-- The argument at a position is wanted at a site below that of the applied class. -/
def argumentAt (site : Site) (raw : Class) (arguments : List TypeExpr) (index : Nat)
    (inRange : index < arguments.length) : Request :=
  ⟨arguments[index], .child (.typeArgument raw arguments index) site⟩

/-- An option is empty, or holds what is given for the argument. -/
theorem gives_produceOptional {mode : OptionalMode} (lenient : ∀ cause, contract.fails (.error cause))
    (elements : ∀ raw arguments (inRange : 0 < arguments.length),
      type.unwrap = some (.parameterized raw arguments) →
      contract.Gives (host.resolve (argumentAt site raw arguments 0 inRange)) fun answer =>
        ∀ value ∈ answer, kind value) :
    contract.Gives (Strategy.produceOptional host mode site type) <|
      Holding fun content => ∃ item : Option Value, content = .option item ∧
        ∀ value ∈ item, kind value := by
  have empty : contract.Gives (Run.ofStep (Store.create (.option none))) <|
      Holding fun content => ∃ item : Option Value, content = .option item ∧
        ∀ value ∈ item, kind value :=
    gives_create ⟨none, rfl, fun _ member => nomatch member⟩
  unfold Strategy.produceOptional
  split
  · next raw arguments applied =>
      split
      · by_cases inRange : 0 < arguments.length
        · have element := elements raw arguments inRange applied
          rw [Strategy.argumentRequest_of_lt inRange, pure_bind]
          cases mode with
          | empty => exact empty
          | present =>
              have needed : contract.Gives
                  (host.request (argumentAt site raw arguments 0 inRange)) kind :=
                gives_request element (fun value given => given value rfl) fun _ => lenient _
              refine gives_bind needed fun value given => gives_create ⟨some value, rfl, ?_⟩
              rintro _ ⟨⟩
              exact given
          | presentIfPossible =>
              exact gives_bind element fun item given => gives_create ⟨item, rfl, given⟩
        · rw [Strategy.argumentRequest, Site.argumentAt, dif_neg inRange]
          exact gives_throw (lenient _) _
      · exact gives_throw (lenient _) _
  · split
    · exact empty
    · exact gives_throw (lenient _) _
  · exact gives_throw (lenient _) _

/-- A collection has as many elements as it is to have, each as it is given for the argument. -/
theorem gives_produceCollection {c : Class} {build : List Value → Content} {size : Nat}
    (elements : ∀ raw arguments (inRange : 0 < arguments.length),
      type.unwrap = some (.parameterized raw arguments) →
      contract.Gives (host.request (argumentAt site raw arguments 0 inRange)) kind)
    (declines : Strategy.acceptsShape type c 1 size = false →
      contract.fails (.error (.unresolvable type site))) :
    contract.Gives (Strategy.produceCollection host c build size site type) <|
      Holding fun content => ∃ items : List Value, content = build items ∧
        items.length = size ∧ ∀ item ∈ items, kind item := by
  unfold Strategy.produceCollection
  unfold Strategy.acceptsShape at declines
  split
  · next raw =>
      rw [raw] at declines
      split
      · next empty =>
          have none := beq_iff_eq.mp empty
          exact gives_create ⟨[], rfl, none.symm, fun _ member => nomatch member⟩
      · next filled => exact gives_throw (declines (Bool.eq_false_iff.mpr filled)) _
  · next raw arguments applied =>
      have inRange : 0 < arguments.length := by
        rw [Course.length_of_shape_applied applied]
        exact Nat.one_pos
      have element := elements raw arguments inRange (Course.unwrap_of_shape_applied applied)
      rw [Strategy.argumentRequest_of_lt inRange, pure_bind]
      refine gives_bind (gives_times element size) fun items given => ?_
      exact gives_create ⟨items, rfl, given⟩
  · next other =>
      rw [other] at declines
      exact gives_throw (declines rfl) _

/-- A map has as many entries as it is to have, each made of what is given for the arguments. -/
theorem gives_produceMap {c : Class} {build : List (Value × Value) → Content} {size : Nat}
    {keys values : Value → Prop}
    (elements : ∀ raw arguments (inRange : 1 < arguments.length),
      type.unwrap = some (.parameterized raw arguments) →
      contract.Gives (host.request (argumentAt site raw arguments 0 (by omega))) keys ∧
        contract.Gives (host.request (argumentAt site raw arguments 1 inRange)) values)
    (declines : Strategy.acceptsShape type c 2 size = false →
      contract.fails (.error (.unresolvable type site))) :
    contract.Gives (Strategy.produceMap host c build size site type) <|
      Holding fun content => ∃ pairs : List (Value × Value), content = build pairs ∧
        pairs.length = size ∧ ∀ pair ∈ pairs, keys pair.1 ∧ values pair.2 := by
  unfold Strategy.produceMap
  unfold Strategy.acceptsShape at declines
  split
  · next raw =>
      rw [raw] at declines
      split
      · next empty =>
          have none := beq_iff_eq.mp empty
          exact gives_create ⟨[], rfl, none.symm, fun _ member => nomatch member⟩
      · next filled => exact gives_throw (declines (Bool.eq_false_iff.mpr filled)) _
  · next raw arguments applied =>
      have both := Course.length_of_shape_applied applied
      have inRange : 1 < arguments.length := by omega
      have entry := elements raw arguments inRange (Course.unwrap_of_shape_applied applied)
      rw [Strategy.argumentRequest_of_lt (by omega : 0 < arguments.length),
        Strategy.argumentRequest_of_lt inRange, pure_bind, pure_bind]
      refine gives_bind (gives_times (gives_requestBoth entry.1 entry.2) size) fun pairs given => ?_
      exact gives_create ⟨pairs, rfl, given⟩
  · next other =>
      rw [other] at declines
      exact gives_throw (declines rfl) _

/-- An array has as many elements as it is to have, each as it is given for the component. -/
theorem gives_produceArray {size : Nat}
    (elements : ∀ component, type.component? = some component →
      contract.Gives (host.request ⟨component, site.arrayElement component⟩) kind)
    (declines : type.component? = none → contract.fails (.error (.unresolvable type site))) :
    contract.Gives (Strategy.produceArray host size site type) <|
      Holding fun content => ∃ items : List Value, content = .list items ∧
        items.length = size ∧ ∀ item ∈ items, kind item := by
  unfold Strategy.produceArray
  split
  · next component array =>
      refine gives_bind (gives_times (elements component array) size) fun items given => ?_
      exact gives_create ⟨items, rfl, given⟩
  · next other => exact gives_throw (declines other) _

/-! ## Chains -/

/-- What a chain answers is what the strategy gives that is the first to accept. -/
theorem gives_resolveFor {chain : Chain} {wanted : Request} {found : Option Strategy → Prop}
    {answers : Option Value → Prop}
    (search : contract.Takes (Chain.firstAccepting chain.strategies wanted) found)
    (declined : found none → answers none)
    (makes : ∀ strategy, found (some strategy) →
      contract.Gives (strategy.produce host wanted.site wanted.type) fun value =>
        answers (some value)) :
    contract.Gives (chain.resolveFor host wanted) answers := by
  have record : contract.Takes (Store.record (.requested wanted.type wanted.site)) fun _ => True :=
    takes_plain (.record rfl) fun _ _ => trivial
  refine gives_bind (gives_ofStep record) fun _ _ => ?_
  refine gives_bind (gives_ofStep search) fun answer served => ?_
  cases answer with
  | none => exact gives_pure (declined served)
  | some strategy => exact gives_bind (makes strategy served) fun value given => gives_pure given

end Contract
end TestData
