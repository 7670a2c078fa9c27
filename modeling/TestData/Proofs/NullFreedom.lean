import TestData.Proofs.Contract
import TestData.Proofs.Separation.ReadyMade

namespace TestData

/-!
# Freedom from null

The full chain has no strategy that makes null, and its strategies put together what they
are given or get from members.  So null does not come out of it, neither as a stub nor
anywhere inside one, unless a constant or a member of the class graph brings it in.
-/

/-! ## Values without null -/

/-- The values a content is made of; those of instances of described classes count if opened. -/
def Content.parts (opened : Bool) : Content → List Value
  | .list items | .deque items => items
  | .entries pairs => pairs.flatMap fun pair => [pair.1, pair.2]
  | .option item => item.toList
  | .made _ _ arguments => if opened then arguments else []
  | .number .. | .text _ | .truth _ | .character _ | .unit | .chain _ | .atomicFlag _
  | .atomicNumber .. | .instant _ | .duration _ => []

namespace Value

/-- The one value is the other, or it occurs in it at some depth. -/
inductive OccursIn (opened : Bool) (value : Value) : Value → Prop where
  | here : OccursIn opened value value
  | inside {identity : Nat} {content : Content} {part : Value}
      (member : part ∈ content.parts opened) (occurs : OccursIn opened value part) :
      OccursIn opened value (.object identity content)

/-- The value is not null, and there is no null in it at any depth. -/
def NullFree (opened : Bool) (value : Value) : Prop :=
  ¬ OccursIn opened .null value

variable {opened : Bool}

/-- An object is free from null if all it is made of is. -/
theorem nullFree_object {identity : Nat} {content : Content}
    (parts : ∀ part ∈ content.parts opened, part.NullFree opened) :
    (object identity content).NullFree opened := by
  intro occurs
  cases occurs with
  | inside member occurs => exact parts _ member occurs

end Value

/-- Default values are made of nothing. -/
theorem TypeExpr.parts_of_defaultContent? (opened : Bool) {type : TypeExpr} {content : Content}
    (found : type.defaultContent? = some content) : content.parts opened = [] := by
  unfold TypeExpr.defaultContent? at found
  split at found
  · split at found
    · split at found
      · cases found
        rfl
      · cases found
        rfl
      · rcases Option.map_eq_some_iff.mp found with ⟨kind, -, rfl⟩
        rfl
    · cases found
  · cases found

/-! ## Members that bring in no null -/

variable {opened : Bool}

/-- What a call comes to is one of the arguments, or is free from null by itself. -/
def Reply.BringsNoNull (opened : Bool) (arguments : List Value) : Reply → Prop
  | .existing value => value ∈ arguments ∨ value.NullFree opened
  | .fresh content => ∀ part ∈ content.parts opened, part.NullFree opened
  | .noted _ | .failed _ => True

/-- No constant of the graph has null in it, and no member brings it in. -/
structure ClassGraph.BringsNoNull (graph : ClassGraph) (opened : Bool) : Prop where
  constants {c : Class} (member : graph.contains c) :
    ∀ value ∈ c.constants, value.NullFree opened
  constructors {c : Class} {k : Constructor} (member : graph.contains c)
    (usable : k ∈ c.usableConstructors) (arguments : List Value) :
    (∀ argument ∈ arguments, argument.NullFree opened) →
      (k.call arguments).BringsNoNull opened arguments
  methods {c : Class} {m : Method} (member : graph.contains c) (usable : m ∈ c.factoryMethods)
    (arguments : List Value) : (∀ argument ∈ arguments, argument.NullFree opened) →
      (m.call none arguments).BringsNoNull opened arguments

/-! ## Members of the graph -/

theorem Store.SettledIn.of_agree {graph : ClassGraph} {cells : Cell → Prop} {before after : Store}
    (settled : before.SettledIn graph cells) (agree : Store.Agree cells before after) :
    after.SettledIn graph cells where
  constructors {cell name _} own known :=
    settled.constructors own ((agree.constructors (cell, name) own).symm.trans known)
  methods {cell name _} own known :=
    settled.methods own ((agree.methods (cell, name) own).symm.trans known)

variable {graph : ClassGraph} {cells : Cell → Prop} {type : TypeExpr}

/-- In these cells only members of the graph are settled on; every failure is allowed. -/
def Contract.membersOf (graph : ClassGraph) (cells : Cell → Prop) : Contract where
  holds store := store.SettledIn graph cells
  fails _ := True
  alike alike settled := settled.of_members_eq ⟨alike.constructors, alike.methods⟩

namespace Contract

theorem membersOf_search {α : Type} (cell : Cell) (name : String) {selector : Selector α}
    (picks : selector.Picks) (site : Site) (candidates : List α) :
    (membersOf graph cells).Takes
      (do
        Store.record (.selected cell name)
        selector.selectFrom site candidates)
      fun choice => ∀ picked, choice = some picked → picked ∈ candidates :=
  takes_plain (Course.plain_pick cell name selector site candidates) fun _ _ =>
    picks site candidates _

/-- The constructor that is chosen for a type of the graph is a usable one of the graph. -/
theorem takes_chosenConstructor {cell : Cell} (own : cells cell) {selector : Selector Constructor}
    (picks : selector.Picks) (within : type.Within graph.contains) (site : Site) :
    (membersOf graph cells).Takes (Strategy.chosenConstructor cell selector site type)
      fun choice => ∀ k, choice = some k → ∃ c, graph.contains c ∧ k ∈ c.usableConstructors := by
  unfold Strategy.chosenConstructor
  split
  · exact takes_pure nofun
  · next c constructed =>
      refine takes_settle ?_ (membersOf_search cell c.name picks site _) ?_
      · rintro store choice settled known k rfl
        obtain ⟨d, member, -, usable⟩ := settled.constructors own known
        exact ⟨d, member, usable⟩
      · intro store choice settled picked
        have usable : ∀ k, choice = some k → graph.contains c ∧ k ∈ c.usableConstructors :=
          fun k chosen => ⟨within.constructed constructed, picked k chosen⟩
        exact ⟨settled.insertConstructor usable, fun k chosen => ⟨c, usable k chosen⟩⟩

/-- The method that is chosen for a type of the graph is a factory method of the graph. -/
theorem takes_chosenMethod {cell : Cell} (own : cells cell) {selector : Selector Method}
    (picks : selector.Picks) (within : type.Within graph.contains) (site : Site) :
    (membersOf graph cells).Takes (Strategy.chosenMethod cell selector site type)
      fun choice => ∀ m, choice = some m → ∃ c, graph.contains c ∧ m ∈ c.factoryMethods := by
  unfold Strategy.chosenMethod
  split
  · exact takes_pure nofun
  · next c manufactured =>
      refine takes_settle ?_ (membersOf_search cell c.name picks site _) ?_
      · rintro store choice settled known m rfl
        obtain ⟨d, member, -, usable⟩ := settled.methods own known
        exact ⟨d, member, usable⟩
      · intro store choice settled picked
        have usable : ∀ m, choice = some m → graph.contains c ∧ m ∈ c.factoryMethods :=
          fun m chosen => ⟨within.manufactured manufactured, picked m chosen⟩
        exact ⟨settled.insertMethod usable, fun m chosen => ⟨c, usable m chosen⟩⟩

/-- The constant that is chosen for a type of the graph is one of the graph. -/
theorem takes_chosenConstant {selector : Selector Value} (picks : selector.Picks)
    (within : type.Within graph.contains) (site : Site) :
    (membersOf graph cells).Takes (Strategy.chosenConstant selector site type)
      fun choice => ∀ value, choice = some value → ∃ c, graph.contains c ∧ value ∈ c.constants := by
  unfold Strategy.chosenConstant
  split
  · next c unwraps =>
      split
      · next isEnum =>
          have contains : graph.contains c := by
            cases within.unwrap unwraps with
            | plain within =>
                cases within with
                | member member => exact member
                | arrayOf within => cases isEnum
          refine takes_plain (Step.plain_select selector site _) fun store _ value chosen => ?_
          exact ⟨c, contains, picks site c.constants store value chosen⟩
      · exact takes_pure nofun
  · exact takes_pure nofun

end Contract

/-! ## Strategies that make no null -/

namespace Strategy

/--
The strategy keeps its members in these cells, picks from the candidates, and hands out
nothing that has null in it.  Suppliers that ask for stubs, and strategies that remember
values or go on with other types, are left out.
-/
def MakesNoNull (opened : Bool) (cells : Cell → Prop) : Strategy → Prop
  | .constant _ value => value.NullFree opened
  | .supplied _ _ supplier => ∀ site number, ∃ content,
      supplier site number = .giveNew content ∧
        ∀ part ∈ content.parts opened, part.NullFree opened
  | .collection _ build _ => ∀ items, (build items).parts opened = items
  | .map _ build _ => ∀ pairs, (build pairs).parts opened = pairs.flatMap fun pair => [pair.1, pair.2]
  | .constructor cell selector => cells cell ∧ selector.Picks
  | .factoryMethod cell selector => cells cell ∧ selector.Picks
  | .enumValue selector => selector.Picks
  | .conditional inner _ => inner.MakesNoNull opened cells
  | .nullValue | .implementation .. | .memoizing .. | .enhancing .. => False
  | .defaultValue | .optional _ | .array _ | .chain => True

end Strategy

namespace Contract

variable {host : Host} {site : Site}

theorem takes_accepts {strategy : Strategy} (own : strategy.MakesNoNull opened cells)
    (within : type.Within graph.contains) (site : Site) :
    (membersOf graph cells).Takes (strategy.accepts site type) fun _ => True := by
  induction strategy with
  | defaultValue | constant | supplied | optional | collection | map | array | chain =>
      exact takes_pure trivial
  | constructor cell selector =>
      exact takes_bind (takes_chosenConstructor own.1 own.2 within site) fun _ _ => takes_pure trivial
  | factoryMethod cell selector =>
      exact takes_bind (takes_chosenMethod own.1 own.2 within site) fun _ _ => takes_pure trivial
  | enumValue selector =>
      exact takes_bind (takes_chosenConstant own within site) fun _ _ => takes_pure trivial
  | conditional inner condition ih =>
      refine takes_bind (ih own) fun accepted _ => ?_
      cases accepted with
      | true => exact takes_plain (.heed _) fun _ _ => trivial
      | false => exact takes_pure trivial
  | nullValue | implementation | memoizing | enhancing => exact own.elim

/-- What a member hands over has no null in it, if it brings in none. -/
theorem gives_called {arguments : List Value} {reply : Reply}
    (brings : reply.BringsNoNull opened arguments)
    (given : ∀ argument ∈ arguments, argument.NullFree opened) (site : Site) (type : TypeExpr)
    (member : String) :
    (membersOf graph cells).Gives (Strategy.called site type member reply) (Value.NullFree opened) := by
  have carried : (membersOf graph cells).Takes (Store.carryOut reply) fun answer =>
      ∀ value, answer = .ok value → value.NullFree opened := by
    refine takes_plain (Step.plain_carryOut reply) fun store _ value handed => ?_
    cases reply with
    | existing known =>
        cases handed
        exact brings.elim (given value) id
    | fresh content =>
        cases handed
        exact Value.nullFree_object brings
    | noted entry =>
        cases handed
        exact Value.nullFree_object fun _ member => nomatch member
    | failed message => cases handed
  refine gives_bind (gives_ofStep carried) fun answer handed => ?_
  cases answer with
  | ok value => exact gives_pure (handed value rfl)
  | error message => exact gives_throw trivial _

/-- Whatever the host is asked for within the graph, it gives no null. -/
def Serves (graph : ClassGraph) (cells : Cell → Prop) (opened : Bool) (host : Host) : Prop :=
  ∀ wanted : Request, wanted.type.Within graph.contains →
    (membersOf graph cells).Gives (host.resolve wanted) fun answer =>
      ∀ value ∈ answer, value.NullFree opened

theorem Serves.request (serves : Serves graph cells opened host) {wanted : Request}
    (within : wanted.type.Within graph.contains) :
    (membersOf graph cells).Gives (host.request wanted) (Value.NullFree opened) :=
  gives_request (serves wanted within) (fun value given => given value rfl) fun _ => trivial

theorem gives_new {content : Content} (parts : ∀ part ∈ content.parts opened, part.NullFree opened) :
    (membersOf graph cells).Gives (Run.ofStep (Store.create content)) (Value.NullFree opened) :=
  gives_ofStep (takes_plain (.create content) fun _ _ => Value.nullFree_object parts)

/-- Giving up gives nothing, so no null either. -/
theorem gives_onlyIf {accepted : Bool} {work : Run Value} {kind : Value → Prop}
    (works : (membersOf graph cells).Gives work kind) (site : Site) (type : TypeExpr) :
    (membersOf graph cells).Gives
      (if accepted = true then work else Strategy.giveUp site type) kind := by
  split
  · exact works
  · exact gives_throw trivial _

theorem gives_defaultValue (site : Site) (type : TypeExpr) :
    (membersOf graph cells).Gives (Strategy.defaultValue.produce host site type)
      (Value.NullFree opened) := by
  unfold Strategy.produce
  split
  · next content found =>
      have none := TypeExpr.parts_of_defaultContent? opened found
      exact gives_new (none ▸ nofun)
  · exact gives_throw trivial _

theorem gives_supplied {cell : Cell} {expected : TypeExpr} {supplier : Site → UInt64 → Action}
    (own : (Strategy.supplied cell expected supplier).MakesNoNull opened cells) (site : Site)
    (type : TypeExpr) :
    (membersOf graph cells).Gives ((Strategy.supplied cell expected supplier).produce host site type)
      (Value.NullFree opened) := by
  have counts : (membersOf graph cells).Takes (Store.nextNumber cell) fun _ => True :=
    takes_plain (.nextNumber cell) fun _ _ => trivial
  refine gives_onlyIf (gives_bind (gives_ofStep counts) fun number _ => ?_) site type
  obtain ⟨content, supplies, parts⟩ := own site number
  rw [supplies]
  exact gives_bind (gives_new parts) fun value given => gives_pure given

/-- The arguments of a type of the graph are of the graph, wherever they are asked for. -/
theorem within_argumentAt (within : type.Within graph.contains) (site : Site) {raw : Class}
    {arguments : List TypeExpr} {index : Nat}
    (applied : type.unwrap = some (.parameterized raw arguments))
    (inRange : index < arguments.length) :
    (argumentAt site raw arguments index inRange).type.Within graph.contains :=
  (within.unwrap applied).part (List.getElem_mem inRange)

theorem gives_optional (serves : Serves graph cells opened host)
    (within : type.Within graph.contains) (mode : OptionalMode) (site : Site) :
    (membersOf graph cells).Gives ((Strategy.optional mode).produce host site type)
      (Value.NullFree opened) := by
  show (membersOf graph cells).Gives (Strategy.produceOptional host mode site type) _
  refine (gives_produceOptional (fun _ => trivial) fun raw arguments inRange applied =>
    serves _ (within_argumentAt within site applied inRange)).mono ?_
  rintro _ ⟨identity, _, rfl, item, rfl, given⟩
  exact Value.nullFree_object fun part member => given part (Option.mem_toList.mp member)

theorem gives_collection (serves : Serves graph cells opened host)
    (within : type.Within graph.contains) {c : Class} {build : List Value → Content} {size : Size}
    (own : (Strategy.collection c build size).MakesNoNull opened cells) (site : Site) :
    (membersOf graph cells).Gives ((Strategy.collection c build size).produce host site type)
      (Value.NullFree opened) := by
  show (membersOf graph cells).Gives (Strategy.produceCollection host c build _ site type) _
  refine (gives_produceCollection (fun raw arguments inRange applied =>
    serves.request (within_argumentAt within site applied inRange)) fun _ => trivial).mono ?_
  rintro _ ⟨identity, _, rfl, items, rfl, -, given⟩
  refine Value.nullFree_object fun part member => given part ?_
  rwa [own items] at member

theorem gives_map (serves : Serves graph cells opened host) (within : type.Within graph.contains)
    {c : Class} {build : List (Value × Value) → Content} {size : Size}
    (own : (Strategy.map c build size).MakesNoNull opened cells) (site : Site) :
    (membersOf graph cells).Gives ((Strategy.map c build size).produce host site type)
      (Value.NullFree opened) := by
  show (membersOf graph cells).Gives (Strategy.produceMap host c build _ site type) _
  refine (gives_produceMap (fun raw arguments inRange applied =>
    ⟨serves.request (within_argumentAt within site applied _),
      serves.request (within_argumentAt within site applied inRange)⟩) fun _ => trivial).mono ?_
  rintro _ ⟨identity, _, rfl, pairs, rfl, -, given⟩
  refine Value.nullFree_object fun part member => ?_
  rw [own pairs] at member
  obtain ⟨pair, among, side⟩ := List.mem_flatMap.mp member
  simp only [List.mem_cons, List.not_mem_nil, or_false] at side
  rcases side with rfl | rfl
  · exact (given pair among).1
  · exact (given pair among).2

theorem gives_array (serves : Serves graph cells opened host) (within : type.Within graph.contains)
    (size : Size) (site : Site) :
    (membersOf graph cells).Gives ((Strategy.array size).produce host site type)
      (Value.NullFree opened) := by
  show (membersOf graph cells).Gives (Strategy.produceArray host _ site type) _
  refine (gives_produceArray (fun component array => serves.request (within.component array))
    fun _ => trivial).mono ?_
  rintro _ ⟨identity, _, rfl, items, rfl, -, given⟩
  exact Value.nullFree_object given

theorem gives_produceByConstructor (serves : Serves graph cells opened host)
    (brings : graph.BringsNoNull opened) (within : type.Within graph.contains) {cell : Cell}
    {selector : Selector Constructor}
    (own : (Strategy.constructor cell selector).MakesNoNull opened cells) (site : Site) :
    (membersOf graph cells).Gives (Strategy.produceByConstructor host cell selector site type)
      (Value.NullFree opened) := by
  have chooses := takes_chosenConstructor own.1 own.2 within site
  refine gives_bind (gives_ofStep chooses) fun choice usable => ?_
  cases choice with
  | none => exact gives_throw trivial _
  | some k =>
      obtain ⟨c, member, usable⟩ := usable k rfl
      refine gives_bind (gives_ofBounded trivial fun bindings => Bindings.within_ofType within)
        fun bindings bound => ?_
      have each : ∀ parameter ∈ k.parameters, ∀ site, (membersOf graph cells).Gives
          (host.request ⟨bindings.resolve parameter.type, site⟩) (Value.NullFree opened) :=
        fun parameter taken site => serves.request <| bound.resolve <|
          ClassGraph.within_constructorParameter member (Class.of_mem_usableConstructors usable)
            (ParameterDeclaration.of_mem_ownedBy taken)
      refine gives_bind (gives_requestArguments (fun _ => trivial) each) fun arguments given => ?_
      exact gives_called (brings.constructors member usable arguments given) given site type _

theorem gives_produceByMethod (serves : Serves graph cells opened host)
    (brings : graph.BringsNoNull opened) (within : type.Within graph.contains) {cell : Cell}
    {selector : Selector Method}
    (own : (Strategy.factoryMethod cell selector).MakesNoNull opened cells) (site : Site) :
    (membersOf graph cells).Gives (Strategy.produceByMethod host cell selector site type)
      (Value.NullFree opened) := by
  have chooses := takes_chosenMethod own.1 own.2 within site
  refine gives_bind (gives_ofStep chooses) fun choice usable => ?_
  cases choice with
  | none => exact gives_throw trivial _
  | some m =>
      obtain ⟨c, member, usable⟩ := usable m rfl
      have declared := (Class.of_mem_factoryMethods usable).1
      refine gives_bind (gives_ofBounded trivial fun bindings =>
        Bindings.within_ofMethod member declared within) fun bindings bound => ?_
      have each : ∀ parameter ∈ m.parameters, ∀ site, (membersOf graph cells).Gives
          (host.request ⟨bindings.resolve parameter.type, site⟩) (Value.NullFree opened) :=
        fun parameter taken site => serves.request <| bound.resolve <|
          ClassGraph.within_methodParameter member declared
            (ParameterDeclaration.of_mem_ownedBy taken)
      refine gives_bind (gives_requestArguments (fun _ => trivial) each) fun arguments given => ?_
      exact gives_called (brings.methods member usable arguments given) given site type _

theorem gives_enumValue (brings : graph.BringsNoNull opened) (within : type.Within graph.contains)
    {selector : Selector Value} (own : (Strategy.enumValue selector).MakesNoNull opened cells)
    (site : Site) :
    (membersOf graph cells).Gives ((Strategy.enumValue selector).produce host site type)
      (Value.NullFree opened) := by
  refine gives_bind (gives_ofStep (takes_chosenConstant own within site)) fun choice known => ?_
  cases choice with
  | none => exact gives_throw trivial _
  | some value =>
      obtain ⟨c, member, among⟩ := known value rfl
      exact gives_pure (brings.constants member value among)

/-- A strategy that makes no null gives none, as long as its host does not. -/
theorem gives_produce (serves : Serves graph cells opened host) (brings : graph.BringsNoNull opened)
    {strategy : Strategy} (own : strategy.MakesNoNull opened cells)
    (within : type.Within graph.contains) (site : Site) :
    (membersOf graph cells).Gives (strategy.produce host site type) (Value.NullFree opened) := by
  induction strategy with
  | defaultValue => exact gives_defaultValue site type
  | constant expected value => exact gives_onlyIf (gives_pure own) site type
  | supplied cell expected supplier => exact gives_supplied own site type
  | optional mode => exact gives_optional serves within mode site
  | collection c build size => exact gives_collection serves within own site
  | map c build size => exact gives_map serves within own site
  | array size => exact gives_array serves within size site
  | constructor cell selector => exact gives_produceByConstructor serves brings within own site
  | factoryMethod cell selector => exact gives_produceByMethod serves brings within own site
  | enumValue selector => exact gives_enumValue brings within own site
  | chain =>
      have parts : ∀ part ∈ (Content.chain host.length).parts opened, part.NullFree opened := nofun
      exact gives_onlyIf (gives_new parts) site type
  | conditional inner condition ih => exact ih own
  | nullValue | implementation | memoizing | enhancing => exact own.elim

/-- By induction on the depth: a chain of such strategies gives no null. -/
theorem serves_hostWithin {chain : Chain}
    (own : ∀ strategy ∈ chain.strategies, strategy.MakesNoNull opened cells)
    (brings : graph.BringsNoNull opened) (depth : Nat) :
    Serves graph cells opened (chain.hostWithin depth) := by
  induction depth with
  | zero => exact fun _ _ => gives_throw trivial _
  | succ depth ih =>
      intro wanted within
      have search := takes_firstAccepting fun strategy member =>
        takes_accepts (own strategy member) within wanted.site
      refine gives_resolveFor search (fun _ _ absent => nomatch absent) fun strategy found => ?_
      refine (gives_produce ih brings (own strategy (found strategy rfl)) within _).mono ?_
      rintro value given _ ⟨⟩
      exact given

end Contract

/-! ## The full chain -/

namespace Chain

theorem full_makesNoNull (opened : Bool) (before : Store) :
    ∀ strategy ∈ (full before).1.strategies,
      strategy.MakesNoNull opened (cellsFrom before.nextCell 9) := by
  have own : ∀ index, index < 9 → cellsFrom before.nextCell 9 ⟨before.nextCell + index⟩ :=
    fun index inside => ⟨Nat.le_add_right _ _, Nat.add_lt_add_left inside _⟩
  have front : ∀ strategy ∈ beforeFactoryMethod before,
      strategy.MakesNoNull opened (cellsFrom before.nextCell 9) := by
    unfold beforeFactoryMethod
    simp only [List.forall_mem_cons, List.not_mem_nil, false_implies, implies_true, and_true]
    refine ⟨?_, ?_, ?_, ?_, ?_, ?_, ?_, ?_, ?_, trivial⟩
    all_goals first
      | exact fun _ _ => ⟨_, rfl, nofun⟩
      | exact Value.nullFree_object nofun
  have collections : ∀ strategy ∈ Strategy.defaultCollections 1,
      strategy.MakesNoNull opened (cellsFrom before.nextCell 9) := by
    simp [Strategy.defaultCollections, Strategy.MakesNoNull, Content.parts]
  have back : ∀ strategy ∈ afterFactoryMethod before,
      strategy.MakesNoNull opened (cellsFrom before.nextCell 9) := by
    unfold afterFactoryMethod
    simp only [List.forall_mem_append, List.forall_mem_cons, List.not_mem_nil, false_implies,
      implies_true, and_true]
    refine ⟨⟨⟨?_, ?_⟩, ?_⟩, trivial, trivial, Selector.Standard.picks trivial, trivial⟩
    · exact ⟨own 1 (by decide), Selector.Standard.picks trivial⟩
    · exact ⟨own 0 (by decide), Selector.Standard.picks trivial⟩
    · exact fun strategy member => collections strategy (List.mem_reverse.mp member)
  rw [full_strategies]
  refine List.forall_mem_append.mpr ⟨front, List.forall_mem_cons.mpr ⟨?_, back⟩⟩
  exact ⟨own 2 (by decide), Selector.Standard.picks trivial⟩

/--
The stores a full chain can be found in: it may have been asked for types of the graph, as
a whole or one of its strategies, in whichever way that ended, and others that have no
cells in common with it may have done what they like.
-/
inductive FullReaches (graph : ClassGraph) (before : Store) : Store → Prop where
  | new : FullReaches graph before (full before).2
  | asked {store : Store} (reached : FullReaches graph before store) {wanted : Request}
      (within : wanted.type.Within graph.contains) (depth : Nat) :
      FullReaches graph before (Run.left ((full before).1.resolveWithin depth wanted store))
  | accepted {store : Store} (reached : FullReaches graph before store) {strategy : Strategy}
      (member : strategy ∈ (full before).1.strategies) (site : Site) {type : TypeExpr}
      (within : type.Within graph.contains) :
      FullReaches graph before (strategy.accepts site type store).2
  | produced {store : Store} (reached : FullReaches graph before store) {strategy : Strategy}
      (member : strategy ∈ (full before).1.strategies) (depth : Nat) (site : Site)
      {type : TypeExpr} (within : type.Within graph.contains) :
      FullReaches graph before
        (Run.left (strategy.produce ((full before).1.hostWithin depth) site type store))
  | elsewhere {store after : Store} (reached : FullReaches graph before store)
      (moves : Store.Moves (fun cell => ¬ cellsFrom before.nextCell 9 cell) store after) :
      FullReaches graph before after

/-- In whichever way a chain was used, what it settled on are members of the graph. -/
theorem FullReaches.settledIn (brings : graph.BringsNoNull opened) {before store : Store}
    (tidy : before.Tidy) (reaches : FullReaches graph before store) :
    store.SettledIn graph (cellsFrom before.nextCell 9) := by
  have own := full_makesNoNull opened before
  induction reaches with
  | new =>
      have fresh : before.SettledIn graph fun cell => before.nextCell ≤ cell.number :=
        tidy.settledIn
      exact ⟨fun inside known => fresh.constructors inside.1 known,
        fun inside known => fresh.methods inside.1 known⟩
  | asked _ within depth settled =>
      exact (Contract.serves_hostWithin own brings depth _ within).left settled
  | @accepted store _ strategy member site type within settled =>
      exact (Contract.takes_accepts (own strategy member) within site store settled).1
  | produced _ member depth site within settled =>
      have serves := Contract.serves_hostWithin own brings depth
      exact (Contract.gives_produce serves brings (own _ member) within site).left settled
  | elsewhere _ moves settled =>
      have beside := Store.Beside.of_moves (fun _ inside foreign => foreign inside) moves
      exact settled.of_agree beside.agree

end Chain

/--
The full chain never gives null: if no constant of the graph has null in it and no member
brings it in, then whatever is asked for within the graph, in whatever state the chain is,
a stub is not null, and there is no null anywhere in it, be it with or without a look into
instances of described classes.
-/
theorem full_stub_nullFree {opened : Bool} {graph : ClassGraph}
    (brings : graph.BringsNoNull opened) {before store : Store} (tidy : before.Tidy)
    (reaches : Chain.FullReaches graph before store) {wanted : Request}
    (within : wanted.type.Within graph.contains) (depth : Nat) {value : Value} {after : Store} :
    (((Chain.full before).1.hostWithin depth).request wanted store = .ok value after →
        value.NullFree opened) ∧
      (((Chain.full before).1.hostWithin depth).resolve wanted store = .ok (some value) after →
        value.NullFree opened) := by
  have settled := reaches.settledIn brings tidy
  have serves := Contract.serves_hostWithin (Chain.full_makesNoNull opened before) brings depth
  constructor
  · intro outcome
    have given := serves.request within store settled
    rw [outcome] at given
    exact given.2
  · intro outcome
    have given := serves wanted within store settled
    rw [outcome] at given
    exact given.2 value rfl

/-! ### Parcels that hand on what they get -/

namespace Class

/-- A color, of which there is one. -/
def color : Class where
  name := "Color"
  kind := .enum
  constants := [.object 0 (.text "red")]

/-- A class whose constructor hands on its argument. -/
def parcel : Class where
  name := "Parcel"
  kind := .concrete
  constructorDeclarations := [{
    parameters := [{ name := "content", type := .parameterized vec [.plain color] }]
    invoker := some (Invoker.argument 0) }]

end Class

namespace ClassGraph

def parcels : ClassGraph where
  contains c := c = Class.parcel ∨ c = Class.color ∨ c = Class.vec ∨ c = Class.option
  closed := by
    rintro c (rfl | rfl | rfl | rfl) type mentioned
    · cases List.mem_singleton.mp mentioned
      refine .parameterized (.member (Or.inr (Or.inr (Or.inl rfl)))) fun argument member => ?_
      cases List.mem_singleton.mp member
      exact .plain (.member (Or.inr (Or.inl rfl)))
    all_goals cases mentioned

theorem parcels_bringsNoNull (opened : Bool) : parcels.BringsNoNull opened where
  constants := by
    rintro c (rfl | rfl | rfl | rfl) value member
    · cases member
    · cases List.mem_singleton.mp member
      exact Value.nullFree_object nofun
    · cases member
    · cases member
  constructors := by
    rintro c k (rfl | rfl | rfl | rfl) usable arguments given
    · cases List.mem_singleton.mp usable
      cases arguments with
      | nil => exact trivial
      | cons first rest => exact Or.inl List.mem_cons_self
    all_goals cases usable
  methods := by
    rintro c m (rfl | rfl | rfl | rfl) usable <;> cases usable

end ClassGraph

/-- After a refusal, too, an option of a parcel is a list of colors without any null. -/
theorem optional_parcel_nullFree :
    let before : Store := { nextIdentity := 1 }
    let chain := (Chain.full before).1
    let refused : Request := ⟨.var ⟨"Parcel", "T"⟩ [], .unknown⟩
    let wanted : Request := ⟨.parameterized Class.option [.plain Class.parcel], .unknown⟩
    let store := Run.left (chain.resolveWithin 1 refused (Chain.full before).2)
    ClassGraph.parcels.BringsNoNull true ∧ before.Tidy ∧
      Chain.FullReaches ClassGraph.parcels before store ∧
      wanted.type.Within ClassGraph.parcels.contains ∧
      ∃ value after, (chain.hostWithin 5).request wanted store = .ok value after ∧
        value.NullFree true := by
  intro before chain refused wanted store
  have brings := ClassGraph.parcels_bringsNoNull true
  have tidy : before.Tidy := ⟨fun _ => rfl, fun _ => rfl⟩
  have reaches : Chain.FullReaches ClassGraph.parcels before store := .asked .new (.var _ _) 1
  have within : wanted.type.Within ClassGraph.parcels.contains := by
    refine .parameterized (.member (Or.inr (Or.inr (Or.inr rfl)))) fun argument member => ?_
    cases List.mem_singleton.mp member
    exact .plain (.member (Or.inl rfl))
  exact ⟨brings, tidy, reaches, within, _, _, rfl,
    (full_stub_nullFree brings tidy reaches within 5).1 rfl⟩

end TestData
