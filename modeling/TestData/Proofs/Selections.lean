import TestData.Proofs.Memo
import TestData.Proofs.Reentry

namespace TestData

/-!
# Selections are made once

Strategies that call constructors or factory methods settle on one member for each class
name.  Accepting a request settles as much as serving it does, and both may happen in the
midst of another request.  What can be relied on is this: the first request for a class runs
the selector and keeps its answer, and from then on nothing takes the entry away.  So a class
name has its member, or its lack of one, for good.

"From then on" means: from the moment in which the selector of the first request has answered.
A request that comes in before, because that selector asks for stubs itself, finds no entry and
runs the selector anew, and the entry made for it gives way to the answer of the first request.

The key of an entry is a name alone.  Which descriptor of that name is asked for, in what
form of type and at which site matters only for the first of the requests.
-/

/-! ## Requests of both kinds -/

/-- A strategy is asked whether it accepts a request, or a stub is asked for. -/
inductive Inquiry where
  | accepts (strategy : Strategy) (site : Site) (type : TypeExpr)
  | stub (call : StubCall)

namespace Inquiry

/-- The store that an inquiry leaves behind, however it ends. -/
def after : Inquiry → Store → Store
  | .accepts strategy site type, store => (strategy.accepts site type store).2
  | .stub call, store => Run.left (call.run store)

/-- The store after some inquiries, one after the other. -/
def runAll : List Inquiry → Store → Store
  | [], store => store
  | inquiry :: rest, store => runAll rest (inquiry.after store)

theorem moves_runAll (inquiries : List Inquiry) (start : Store) :
    Store.Moves (fun _ => True) start (runAll inquiries start) := by
  induction inquiries generalizing start with
  | nil => exact .refl
  | cons inquiry rest ih =>
      have first : Store.Moves (fun _ => True) start (inquiry.after start) := by
        cases inquiry with
        | accepts strategy site type =>
            exact (Step.working_accepts strategy.ownedBy_all site type).moves start
        | stub call => exact call.moves_run start
      exact first.trans (ih _)

/-- Requests to strategies whose selectors ask nobody are a run, also in the midst of selections. -/
theorem leads_runAll {returns : Slot → Prop} {underWay : List Slot} (inquiries : List Inquiry)
    (start : Store) (allowed : ∀ slot ∈ underWay, returns slot) :
    Moment.Leads returns ⟨underWay, start⟩ ⟨underWay, runAll inquiries start⟩ :=
  Moment.leads_of_moves (moves_runAll inquiries start) allowed

end Inquiry

/-! ## Settling on members of one kind -/

namespace MemberKind

/-- The class whose members can serve a type. -/
def eligible : MemberKind → TypeExpr → Option Class
  | .constructor => Strategy.constructedClass?
  | .method => Strategy.manufacturedClass?

/--
What classes of a kind's members are like: concrete and with a constructor, or anything but
primitive, an enum or an interface and with a method.
-/
def Offers : MemberKind → Class → Prop
  | .constructor, c => c.kind = .concrete ∧ c.constructors ≠ []
  | .method, c => c.kind ≠ .primitive ∧ c.kind ≠ .enum ∧ c.kind ≠ .interface ∧ c.methods ≠ []

theorem isInstantiable_iff {c : Class} : c.isInstantiable = true ↔ c.kind = .concrete := by
  cases kind : c.kind <;>
    simp [Class.isInstantiable, Class.isAbstract, Class.isPrimitive, Class.isEnum, Class.isArray,
      Class.component?, kind]

theorem isManufacturable_iff {c : Class} :
    c.isManufacturable = true ↔ c.kind ≠ .primitive ∧ c.kind ≠ .enum ∧ c.kind ≠ .interface := by
  cases kind : c.kind <;>
    simp [Class.isManufacturable, Class.isPrimitive, Class.isEnum, Class.isInterface, kind]

/-- Which class's members can serve a type depends on its raw class alone. -/
theorem eligible_eq_some_iff {kind : MemberKind} {type : TypeExpr} {c : Class} :
    kind.eligible type = some c ↔ type.rawType = some c ∧ kind.Offers c := by
  cases kind with
  | constructor =>
      rw [eligible, Strategy.constructedClass?, Option.filter_eq_some_iff, Bool.and_eq_true,
        isInstantiable_iff, Bool.not_eq_true', List.isEmpty_eq_false_iff]
      rfl
  | method =>
      rw [eligible, Strategy.manufacturedClass?, Option.filter_eq_some_iff, Bool.and_eq_true,
        isManufacturable_iff, Bool.not_eq_true', List.isEmpty_eq_false_iff, and_assoc, and_assoc]
      rfl

/-- The members that may be picked. -/
def candidates : (kind : MemberKind) → Class → List kind.Member
  | .constructor => Class.usableConstructors
  | .method => Class.factoryMethods

/-- The strategy that settles on members of the kind. -/
def strategy : (kind : MemberKind) → Cell → Selector kind.Member → Strategy
  | .constructor => .constructor
  | .method => .factoryMethod

/-- What is done with a member. -/
def serve : (kind : MemberKind) → Host → kind.Member → Site → TypeExpr → Run Value
  | .constructor, host, k, site, type => do
      let bindings ← Run.ofBounded (Bindings.ofType host.depth type)
      Strategy.callConstructor host k bindings site type
  | .method, host, m, site, type => do
      let bindings ← Run.ofBounded (do
        (← Bindings.ofType host.depth type).bind host.depth m.returnType type)
      Strategy.callFactoryMethod host m bindings site type

/-- What picks a member: at a site, among candidates. -/
abbrev Pick (kind : MemberKind) : Type :=
  Site → List kind.Member → Step (Option kind.Member)

variable (kind : MemberKind) (cell : Cell) (pick : kind.Pick)

/--
The member for a type.  What picks one where there is no entry yet is left open: it may do
anything to the store, and so settle on members of other classes meanwhile, or of this one.
-/
def settle (site : Site) (type : TypeExpr) : Step (Option kind.Member) :=
  match kind.eligible type with
  | none => return none
  | some c =>
      let slot : Slot := ⟨kind, cell, c.name⟩
      Store.settle slot.settled? slot.keep (do
        Store.record (.selected cell c.name)
        pick site (kind.candidates c))

/-- The types for which there is a member are accepted. -/
def accepts (site : Site) (type : TypeExpr) : Step Bool :=
  return (← kind.settle cell pick site type).isSome

/-- Without a member the request is refused, and with one the stub is made by it. -/
def produce (host : Host) (site : Site) (type : TypeExpr) : Run Value := do
  match ← kind.settle cell pick site type with
  | some member => kind.serve host member site type
  | none => Strategy.giveUp site type

variable {kind cell pick} {site : Site} {type : TypeExpr} {c : Class}
  {before after store : Store} {choice : Option kind.Member}

theorem settle_of_known (eligible : kind.eligible type = some c)
    (known : Slot.settled? ⟨kind, cell, c.name⟩ store = some choice) :
    kind.settle cell pick site type store = (choice, store) := by
  rw [settle, eligible]
  exact Store.settle_of_known known _ _

theorem settle_of_unknown (eligible : kind.eligible type = some c)
    (unknown : Slot.settled? ⟨kind, cell, c.name⟩ store = none) :
    let slot : Slot := ⟨kind, cell, c.name⟩
    let picked := pick site (kind.candidates c) (slot.start store)
    kind.settle cell pick site type store = (picked.1, slot.keep picked.1 picked.2) := by
  rw [settle, eligible]
  exact Store.settle_of_unknown unknown _ _

theorem settle_of_ineligible (none : kind.eligible type = none) (store : Store) :
    kind.settle cell pick site type store = (Option.none, store) := by
  rw [settle, none]
  rfl

/-- In the end there is an entry. -/
theorem settled?_of_settle (eligible : kind.eligible type = some c)
    (settled : kind.settle cell pick site type before = (choice, after)) :
    Slot.settled? ⟨kind, cell, c.name⟩ after = some choice := by
  rw [settle, eligible] at settled
  exact Store.remembered_of_settle (Slot.settled?_keep ⟨kind, cell, c.name⟩) settled

/-- Once the selection is over, the answer is the same whatever the run leads to. -/
theorem settle_of_settled {again : kind.Pick} {there : Site} {other : TypeExpr} {d : Class}
    {later : Store} {returns : Slot → Prop} {underWay still : List Slot}
    (eligible : kind.eligible type = some c) (eligibleToo : kind.eligible other = some d)
    (named : d.name = c.name) (settled : kind.settle cell pick site type before = (choice, after))
    (idle : ⟨kind, cell, c.name⟩ ∉ underWay)
    (run : Moment.Leads returns ⟨underWay, after⟩ ⟨still, later⟩) :
    kind.settle cell again there other later = (choice, later) := by
  have decided : Moment.Decided ⟨kind, cell, c.name⟩ choice ⟨underWay, after⟩ :=
    ⟨idle, settled?_of_settle eligible settled⟩
  have known := (decided.leads run).entry
  rw [← named] at known
  exact settle_of_known eligibleToo known

/-- Settling is a part of the run, whatever its selector does, if what that does is one. -/
theorem leads_settle {returns : Slot → Prop} {underWay : List Slot}
    (eligible : kind.eligible type = some c)
    (allowed : ⟨kind, cell, c.name⟩ ∈ underWay → returns ⟨kind, cell, c.name⟩)
    (selector : let slot : Slot := ⟨kind, cell, c.name⟩
      Moment.Leads returns ⟨slot :: underWay, slot.start before⟩
        ⟨slot :: underWay, (pick site (kind.candidates c) (slot.start before)).2⟩) :
    Moment.Leads returns ⟨underWay, before⟩
      ⟨underWay, (kind.settle cell pick site type before).2⟩ := by
  cases known : Slot.settled? ⟨kind, cell, c.name⟩ before with
  | some choice =>
      rw [settle_of_known eligible known]
  | none =>
      rw [settle_of_unknown eligible known]
      exact Moment.leads_selection known allowed selector _

theorem accepts_of_settle (settled : kind.settle cell pick site type before = (choice, after)) :
    kind.accepts cell pick site type before = (choice.isSome, after) := by
  simp only [accepts, bind, StateT.bind, settled]
  rfl

theorem produce_of_settle (host : Host)
    (settled : kind.settle cell pick site type before = (choice, after)) :
    kind.produce cell pick host site type before =
      match choice with
      | some member => kind.serve host member site type after
      | none => .error (.error (.unresolvable type site)) after := by
  have taken : Run.ofStep (kind.settle cell pick site type) before = .ok choice after := by
    rw [Run.ofStep_apply, settled]
  refine (Run.bind_of_ok taken).trans ?_
  cases choice <;> rfl

/-- The strategies of the kind accept and make stubs in this way. -/
theorem accepts_strategy (cell : Cell) (selector : Selector kind.Member) :
    (kind.strategy cell selector).accepts = kind.accepts cell selector.selectFrom := by
  cases kind <;> rfl

theorem produce_strategy (cell : Cell) (selector : Selector kind.Member) (host : Host)
    (site : Site) (type : TypeExpr) :
    (kind.strategy cell selector).produce host site type =
      kind.produce cell selector.selectFrom host site type := by
  cases kind <;>
    refine congrArg (Bind.bind (m := Run) _) (funext fun choice => ?_) <;>
    cases choice <;> rfl

end MemberKind

/--
What can be relied on of the selections of a strategy.  Where it is not said that the
selector of the strategy does the picking, anything may: drawing from a generator, counting
calls, asking other selectors, looking at the site, or asking for stubs, be it for such as
this very strategy makes.  Runs in which all that happens are those of `Moment.Leads`.
-/
structure FrozenSelections (kind : MemberKind) (cell : Cell) (selector : Selector kind.Member) :
    Prop where
  /-- The strategy accepts and makes stubs as its selector settles. -/
  settles : (kind.strategy cell selector).accepts = kind.accepts cell selector.selectFrom ∧
    (kind.strategy cell selector).produce = kind.produce cell selector.selectFrom
  /-- The eligible requests are those for types with a raw class that offers members. -/
  eligible {type : TypeExpr} {c : Class} :
    kind.eligible type = some c ↔ type.rawType = some c ∧ kind.Offers c
  /-- A request that is not eligible neither picks a member nor looks at entries. -/
  ineligible (pick : kind.Pick) (site : Site) {type : TypeExpr} (store : Store) :
    kind.eligible type = none → kind.settle cell pick site type store = (none, store)
  /-- The first request for an eligible class picks a member, once, and keeps the answer, also
  in place of an entry that was made while the selector was at work. -/
  first (pick : kind.Pick) (site : Site) {type : TypeExpr} {c : Class} {before : Store} :
    let slot : Slot := ⟨kind, cell, c.name⟩
    kind.eligible type = some c → slot.settled? before = none →
      let picked := pick site (kind.candidates c) (slot.start before)
      kind.settle cell pick site type before = (picked.1, slot.keep picked.1 picked.2)
  /-- From then on each request for an eligible descriptor of that name, in any form and at any
  site, gets that answer, and then the store stays as it is. -/
  frozen (pick again : kind.Pick) (site there : Site) {type other : TypeExpr} {c d : Class}
    {before after later : Store} {choice : Option kind.Member} {returns : Slot → Prop}
    {underWay still : List Slot} :
    kind.eligible type = some c → kind.eligible other = some d → d.name = c.name →
      kind.settle cell pick site type before = (choice, after) →
      ⟨kind, cell, c.name⟩ ∉ underWay → Moment.Leads returns ⟨underWay, after⟩ ⟨still, later⟩ →
      kind.settle cell again there other later = (choice, later)
  /-- In particular after any further requests to accept types and to make stubs. -/
  frozenAfter (pick again : kind.Pick) (site there : Site) {type other : TypeExpr} {c d : Class}
    {before after : Store} {choice : Option kind.Member} (between : List Inquiry) :
    kind.eligible type = some c → kind.eligible other = some d → d.name = c.name →
      kind.settle cell pick site type before = (choice, after) →
      kind.settle cell again there other (Inquiry.runAll between after) =
        (choice, Inquiry.runAll between after)
  /-- Over a whole run the selector is run as often as entries are made, unless it comes back to
  a slot it is at work for. -/
  counted {returns : Slot → Prop} {start after : Store} (name : String) :
    (∀ kind : MemberKind, ¬ returns ⟨kind, cell, name⟩) →
      Moment.Leads returns ⟨[], start⟩ ⟨[], after⟩ →
      after.selections (cell, name) + start.entries (cell, name) =
        start.selections (cell, name) + after.entries (cell, name)
  /-- A request is a part of such a run, whatever its selector does, if what that does is one. -/
  inRun (pick : kind.Pick) (site : Site) {type : TypeExpr} {c : Class} {before : Store}
    {returns : Slot → Prop} {underWay : List Slot} :
    let slot : Slot := ⟨kind, cell, c.name⟩
    kind.eligible type = some c → (slot ∈ underWay → returns slot) →
      Moment.Leads returns ⟨slot :: underWay, slot.start before⟩
        ⟨slot :: underWay, (pick site (kind.candidates c) (slot.start before)).2⟩ →
      Moment.Leads returns ⟨underWay, before⟩
        ⟨underWay, (kind.settle cell pick site type before).2⟩
  /-- Requests to strategies whose selectors ask nobody are such a run. -/
  countedAfter (inquiries : List Inquiry) (start : Store) (name : String) :
    (Inquiry.runAll inquiries start).selections (cell, name) + start.entries (cell, name) =
      start.selections (cell, name) + (Inquiry.runAll inquiries start).entries (cell, name)
  /-- The types for which there is a member are accepted. -/
  accepts (pick : kind.Pick) (site : Site) {type : TypeExpr} {before after : Store}
    {choice : Option kind.Member} :
    kind.settle cell pick site type before = (choice, after) →
      kind.accepts cell pick site type before = (choice.isSome, after)
  /-- Without a member no stub is made. -/
  refuses (pick : kind.Pick) (host : Host) (site : Site) {type : TypeExpr} {before after : Store} :
    kind.settle cell pick site type before = (none, after) →
      kind.produce cell pick host site type before =
        .error (.error (.unresolvable type site)) after
  /-- The stub is made by the member. -/
  serves (pick : kind.Pick) (host : Host) (site : Site) {type : TypeExpr} {before after : Store}
    {member : kind.Member} :
    kind.settle cell pick site type before = (some member, after) →
      kind.produce cell pick host site type before = kind.serve host member site type after

/--
Of two descriptors with one name the first one counts: the second would leave the choice
between two constructors, but its selector is not run.
-/
example :
    let narrow : Class := { Class.named "Gate" with constructorDeclarations := [{}] }
    let wide : Class := { Class.named "Gate" with
      constructorDeclarations := [{}, { parameters := [⟨"lock", .plain Class.unit, []⟩] }] }
    let strategy : Strategy := .constructor ⟨0⟩ (.unique Matcher.any)
    let inquiries : List Inquiry := [.accepts strategy .unknown (.plain narrow),
      .accepts strategy .unknown (.plain wide)]
    let after := Inquiry.runAll inquiries {}
    after.selections (⟨0⟩, "Gate") = 1 ∧ (strategy.accepts .unknown (.plain wide) after).1 = true := by
  exact ⟨rfl, rfl⟩

end TestData
