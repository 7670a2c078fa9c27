import TestData.Proofs.Serving
import TestData.Proofs.Termination.Arguments

namespace TestData

/-!
# Settling on members

A strategy that goes by members picks one for a class name once and calls it from then
on, whatever descriptor of that name it is given.  As long as the graph is consistent
this does no harm: the descriptor that the member was picked from is the one at hand.
That this stays so is an invariant of the store, and on the course of stores that keep
to it, with no failure for want of depth, requests are served by induction on the depth.
-/

variable {graph : ClassGraph}

/-- In these cells, members that were settled on were usable in the graph. -/
structure Store.SettledIn (graph : ClassGraph) (cells : Cell → Prop) (store : Store) : Prop where
  constructors {cell : Cell} {name : String} {k : Constructor} :
    cells cell → store.constructors.find? (cell, name) = some (some k) →
      ∃ c, graph.contains c ∧ c.name = name ∧ k ∈ c.usableConstructors
  methods {cell : Cell} {name : String} {m : Method} :
    cells cell → store.methods.find? (cell, name) = some (some m) →
      ∃ c, graph.contains c ∧ c.name = name ∧ m ∈ c.factoryMethods

namespace Store.SettledIn

variable {cells : Cell → Prop} {before after store : Store}

theorem of_members_eq (settled : before.SettledIn graph cells)
    (members : after.constructors = before.constructors ∧ after.methods = before.methods) :
    after.SettledIn graph cells where
  constructors own known := settled.constructors own (members.1 ▸ known)
  methods own known := settled.methods own (members.2 ▸ known)

theorem insertConstructor (settled : store.SettledIn graph cells) {cell : Cell} {c : Class}
    {choice : Option Constructor}
    (usable : ∀ k, choice = some k → graph.contains c ∧ k ∈ c.usableConstructors) :
    { store with constructors := store.constructors.insert (cell, c.name) choice }.SettledIn
      graph cells where
  constructors {other name k} own known := by
    by_cases same : (other, name) = (cell, c.name)
    · cases same
      have chosen := (store.constructors.find?_insert_self (cell, c.name) choice).symm.trans known
      rcases usable k (Option.some.inj chosen) with ⟨member, among⟩
      exact ⟨c, member, rfl, among⟩
    · exact settled.constructors own
        ((store.constructors.find?_insert_of_ne choice same).symm.trans known)
  methods own known := settled.methods own known

theorem insertMethod (settled : store.SettledIn graph cells) {cell : Cell} {c : Class}
    {choice : Option Method}
    (usable : ∀ m, choice = some m → graph.contains c ∧ m ∈ c.factoryMethods) :
    { store with methods := store.methods.insert (cell, c.name) choice }.SettledIn graph cells where
  constructors own known := settled.constructors own known
  methods {other name m} own known := by
    by_cases same : (other, name) = (cell, c.name)
    · cases same
      have chosen := (store.methods.find?_insert_self (cell, c.name) choice).symm.trans known
      rcases usable m (Option.some.inj chosen) with ⟨member, among⟩
      exact ⟨c, member, rfl, among⟩
    · exact settled.methods own
        ((store.methods.find?_insert_of_ne choice same).symm.trans known)

end Store.SettledIn

/-- From this cell on, members that were settled on were usable in the graph. -/
structure Store.Settled (graph : ClassGraph) (fresh : Nat) (store : Store) : Prop where
  constructors {cell : Cell} {name : String} {k : Constructor} :
    fresh ≤ cell.number → store.constructors.find? (cell, name) = some (some k) →
      ∃ c, graph.contains c ∧ c.name = name ∧ k ∈ c.usableConstructors
  methods {cell : Cell} {name : String} {m : Method} :
    fresh ≤ cell.number → store.methods.find? (cell, name) = some (some m) →
      ∃ c, graph.contains c ∧ c.name = name ∧ m ∈ c.factoryMethods

namespace Store

theorem Change.members_eq {before after : Store} (change : Change before after) :
    after.constructors = before.constructors ∧ after.methods = before.methods := by
  cases change with
  | quiet quiet => exact ⟨quiet.alike.constructors, quiet.alike.methods⟩
  | computing | recalling | remembering => exact ⟨rfl, rfl⟩

namespace Settled

variable {fresh : Nat} {before after store : Store}

theorem of_members_eq (settled : before.Settled graph fresh)
    (members : after.constructors = before.constructors ∧ after.methods = before.methods) :
    after.Settled graph fresh where
  constructors own known := settled.constructors own (members.1 ▸ known)
  methods own known := settled.methods own (members.2 ▸ known)

theorem settledIn (settled : store.Settled graph fresh) :
    store.SettledIn graph fun cell => fresh ≤ cell.number :=
  ⟨settled.constructors, settled.methods⟩

theorem of_settledIn (settled : store.SettledIn graph fun cell => fresh ≤ cell.number) :
    store.Settled graph fresh :=
  ⟨settled.constructors, settled.methods⟩

theorem insertConstructor (settled : store.Settled graph fresh) {cell : Cell} {c : Class}
    {choice : Option Constructor}
    (usable : ∀ k, choice = some k → graph.contains c ∧ k ∈ c.usableConstructors) :
    { store with constructors := store.constructors.insert (cell, c.name) choice }.Settled
      graph fresh :=
  of_settledIn (settled.settledIn.insertConstructor usable)

theorem insertMethod (settled : store.Settled graph fresh) {cell : Cell} {c : Class}
    {choice : Option Method}
    (usable : ∀ m, choice = some m → graph.contains c ∧ m ∈ c.factoryMethods) :
    { store with methods := store.methods.insert (cell, c.name) choice }.Settled graph fresh :=
  of_settledIn (settled.settledIn.insertMethod usable)

end Settled
end Store

/-! ## Strategies that ask for parts and parameters only -/

/-- The action makes do without the host. -/
def Action.AsksNothing : Action → Prop
  | .give _ => True
  | .make _ next => ∀ value, (next value).AsksNothing
  | .request .. => False
  | .fail _ => True

/-- What is selected is one of the candidates. -/
def Selector.Picks {α : Type} (selector : Selector α) : Prop :=
  ∀ site candidates store choice,
    (selector.selectFrom site candidates store).1 = some choice → choice ∈ candidates

/--
What the strategy asks for are parts of the requested type and the parameters of members
of its class; what it settles on is in a cell from this one on.
-/
def Strategy.Tame (fresh : Nat) : Strategy → Prop
  | .supplied _ _ supplier => ∀ site number, (supplier site number).AsksNothing
  | .constructor cell selector => fresh ≤ cell.number ∧ selector.Picks
  | .factoryMethod cell selector => fresh ≤ cell.number ∧ selector.Picks
  | .implementation .. | .enhancing .. => False
  | .memoizing _ inner _ | .conditional inner _ => inner.Tame fresh
  | _ => True

theorem Selector.Standard.picks {α : Type} {selector : Selector α} (standard : selector.Standard) :
    selector.Picks :=
  fun _ _ _ _ => standard.mem_of_selectFrom

namespace Strategy

variable {fresh : Nat} {store after : Store} {type : TypeExpr}

theorem constructors_of_constructedClass? {c : Class} (constructed : constructedClass? type = some c) :
    c.constructorDeclarations ≠ [] := by
  have some := (Option.filter_eq_some_iff.mp constructed).2
  intro none
  simp [Class.constructors, none] at some

theorem methods_of_manufacturedClass? {c : Class}
    (manufactured : manufacturedClass? type = some c) : c.methodDeclarations ≠ [] := by
  have some := (Option.filter_eq_some_iff.mp manufactured).2
  intro none
  simp [Class.methods, none] at some

/-- Remembered or picked now, the constructor is one of the class at hand. -/
theorem usable_of_chosenConstructor (consistent : graph.Consistent)
    (settled : store.Settled graph fresh) {cell : Cell} (own : fresh ≤ cell.number)
    {selector : Selector Constructor} (picks : selector.Picks) {site : Site} {k : Constructor}
    (contains : ∀ c, constructedClass? type = some c → graph.contains c)
    (chosen : chosenConstructor cell selector site type store = (some k, after)) :
    ∃ c, constructedClass? type = some c ∧ k ∈ c.usableConstructors := by
  unfold chosenConstructor at chosen
  cases constructed : constructedClass? type with
  | none => rw [constructed] at chosen; cases chosen
  | some c =>
      rw [constructed] at chosen
      refine ⟨c, rfl, ?_⟩
      rcases Store.remembered_or_chosen chosen with known | picked
      · rcases settled.constructors own known with ⟨d, member, name, usable⟩
        have declares := constructors_of_constructedClass? constructed
        have same := consistent member (contains c constructed) name
          (Or.inl (List.ne_nil_of_mem (Class.of_mem_usableConstructors usable))) (Or.inl declares)
        exact same ▸ usable
      · exact picks site c.usableConstructors _ k picked

/-- Remembered or picked now, the factory method is one of the class at hand. -/
theorem usable_of_chosenMethod (consistent : graph.Consistent)
    (settled : store.Settled graph fresh) {cell : Cell} (own : fresh ≤ cell.number)
    {selector : Selector Method} (picks : selector.Picks) {site : Site} {m : Method}
    (contains : ∀ c, manufacturedClass? type = some c → graph.contains c)
    (chosen : chosenMethod cell selector site type store = (some m, after)) :
    ∃ c, manufacturedClass? type = some c ∧ m ∈ c.factoryMethods := by
  unfold chosenMethod at chosen
  cases manufactured : manufacturedClass? type with
  | none => rw [manufactured] at chosen; cases chosen
  | some c =>
      rw [manufactured] at chosen
      refine ⟨c, rfl, ?_⟩
      rcases Store.remembered_or_chosen chosen with known | picked
      · rcases settled.methods own known with ⟨d, member, name, usable⟩
        have declares := methods_of_manufacturedClass? manufactured
        have same := consistent member (contains c manufactured) name
          (Or.inr (List.ne_nil_of_mem (Class.of_mem_factoryMethods usable).1)) (Or.inr declares)
        exact same ▸ usable
      · exact picks site c.factoryMethods _ m picked

end Strategy

/-! ## The course on which nothing runs out of depth -/

namespace Course

/-- What is settled stays settled, and then no computation fails for want of depth. -/
def settling (graph : ClassGraph) (fresh : Nat) : Course where
  reaches before after := before.Settled graph fresh → after.Settled graph fresh
  fails before failure after :=
    before.Settled graph fresh → failure ≠ .exhausted ∧ after.Settled graph fresh
  refl _ settled := settled
  trans first second settled := second (first settled)
  reaches_of_fails fails settled := (fails settled).2
  fails_after first fails settled := fails (first settled)
  change change settled := settled.of_members_eq change.members_eq
  fails_ordinary _ _ _ settled := ⟨nofun, settled⟩

variable {fresh : Nat} {store : Store} {start type : TypeExpr} {host : Host}

theorem settling_fails (cause : StubError) (store : Store) :
    (settling graph fresh).fails store (.error cause) store :=
  fun settled => ⟨nofun, settled⟩

/-- Of stores that are not settled nothing is said. -/
theorem keeps_of_settled {α : Type} {computation : Run α}
    (keeps : store.Settled graph fresh → (settling graph fresh).Keeps computation store) :
    (settling graph fresh).Keeps computation store := by
  by_cases settled : store.Settled graph fresh
  · exact keeps settled
  · unfold Keeps
    split
    · exact fun holds => absurd holds settled
    · exact fun holds => absurd holds settled

theorem settling_chosenConstructor {cell : Cell} {selector : Selector Constructor}
    (picks : selector.Picks) {site : Site}
    (contains : ∀ c, Strategy.constructedClass? type = some c → graph.contains c) :
    (settling graph fresh).Admits (Strategy.chosenConstructor cell selector site type) store :=
  admits_chosenConstructor fun c constructed between settled =>
    settled.insertConstructor fun k selected =>
      ⟨contains c constructed, picks site c.usableConstructors between k selected⟩

theorem settling_chosenMethod {cell : Cell} {selector : Selector Method}
    (picks : selector.Picks) {site : Site}
    (contains : ∀ c, Strategy.manufacturedClass? type = some c → graph.contains c) :
    (settling graph fresh).Admits (Strategy.chosenMethod cell selector site type) store :=
  admits_chosenMethod fun c manufactured between settled =>
    settled.insertMethod fun m selected =>
      ⟨contains c manufactured, picks site c.factoryMethods between m selected⟩

theorem settling_accepts {strategy : Strategy} (tame : strategy.Tame fresh) {site : Site}
    (constructed : ∀ c, Strategy.constructedClass? type = some c → graph.contains c)
    (manufactured : ∀ c, Strategy.manufacturedClass? type = some c → graph.contains c) :
    (settling graph fresh).Admits (strategy.accepts site type) store := by
  induction strategy generalizing store with
  | defaultValue | constant | supplied | nullValue | optional | collection | map | array
  | implementation | chain => exact admits_pure _ store
  | constructor cell selector =>
      exact admits_bind (settling_chosenConstructor tame.2 constructed) (admits_pure _ _)
  | factoryMethod cell selector =>
      exact admits_bind (settling_chosenMethod tame.2 manufactured) (admits_pure _ _)
  | enumValue selector =>
      exact admits_plain (.bind (Step.plain_chosenConstant selector site type)
        fun _ => .pure _) store
  | memoizing cell inner discriminator ih => exact ih tame
  | conditional inner condition ih =>
      apply admits_bind (ih tame)
      split
      · exact admits_plain (.heed _) _
      · exact admits_pure _ _
  | enhancing inner enhancer => exact tame.elim

theorem settling_action {action : Action} (asksNothing : action.AsksNothing) :
    (settling graph fresh).Keeps (action.run host) store := by
  induction action generalizing store with
  | give value => exact keeps_pure value store
  | make content next ih =>
      have admitted : (settling graph fresh).Admits (Store.create content) store :=
        admits_plain (.create content) store
      exact keeps_step_bind rfl admitted (ih _ (asksNothing _))
  | request wanted next => exact asksNothing.elim
  | fail cause => exact keeps_throw (settling_fails cause store)

/-- What a strategy is to make weighs less than the depth of a host that serves what is lighter. -/
structure Lightens (graph : ClassGraph) (fresh : Nat) (start : TypeExpr) (host : Host)
    (type : TypeExpr) : Prop where
  reaches : graph.Reaches start host.depth type
  serves {lighter : TypeExpr} (reaches : graph.Reaches start (type.weight 0) lighter) (site : Site) :
    (settling graph fresh).Serves host ⟨lighter, site⟩

namespace Lightens

variable (lightens : Lightens graph fresh start host type)
include lightens

theorem servesPart {left part : TypeExpr} (unwraps : type.unwrap = some left)
    (member : part ∈ left.parts) (site : Site) :
    (settling graph fresh).Serves host ⟨part, site⟩ := by
  have lighter := TypeExpr.weight_front_le type
  rw [TypeExpr.front_of_unwrap unwraps] at lighter
  have inner := (lightens.reaches.unwrap unwraps).part member
  exact lightens.serves (inner.mono lighter) site

theorem servesComponent {component : TypeExpr} (array : type.component? = some component)
    (site : Site) : (settling graph fresh).Serves host ⟨component, site⟩ := by
  unfold TypeExpr.component? at array
  split at array
  · next unwraps =>
      rcases Option.map_eq_some_iff.mp array with ⟨element, found, rfl⟩
      exact lightens.servesPart unwraps (List.mem_map_of_mem (Option.mem_toList.mpr found)) site
  · next unwraps =>
      split at array
      · cases array
        exact lightens.servesPart unwraps List.mem_cons_self site
      · cases array
  · cases array

theorem containsConstructed {c : Class} (constructed : Strategy.constructedClass? type = some c) :
    graph.contains c :=
  lightens.reaches.contains (Strategy.rawType_of_constructedClass? constructed)
    (Or.inl (Strategy.constructors_of_constructedClass? constructed))

theorem containsManufactured {c : Class} (manufactured : Strategy.manufacturedClass? type = some c) :
    graph.contains c :=
  lightens.reaches.contains (Strategy.rawType_of_manufacturedClass? manufactured)
    (Or.inr (Strategy.methods_of_manufacturedClass? manufactured))

variable (orderly : graph.Orderly) (uncaptured : graph.Uncaptured start)
include orderly uncaptured

theorem keeps_produceByConstructor {cell : Cell} (own : fresh ≤ cell.number)
    {selector : Selector Constructor} (picks : selector.Picks) (site : Site) (store : Store) :
    (settling graph fresh).Keeps (Strategy.produceByConstructor host cell selector site type)
      store := by
  refine keeps_of_settled fun settled => ?_
  have usable : ∀ {k after}, Strategy.chosenConstructor cell selector site type store
      = (some k, after) → ∃ bindings, Bindings.ofType host.depth type = .ok bindings ∧
        ∀ parameter ∈ k.parameters,
          graph.Reaches start (type.weight 0) (bindings.resolve parameter.type) := by
    intro k after chosen
    obtain ⟨c, constructed, usable⟩ := Strategy.usable_of_chosenConstructor orderly.consistent
      settled own picks (fun c => lightens.containsConstructed) chosen
    exact lightens.reaches.constructorParameter orderly uncaptured (Nat.le_refl _) constructed usable
  refine Course.keeps_produceByConstructor
    (settling_chosenConstructor picks fun c => lightens.containsConstructed) ?_ ?_ ?_
  · intro k after chosen bindings bound parameter taken site
    rcases usable chosen with ⟨others, same, lighter⟩
    rw [bound] at same
    cases same
    exact lightens.serves (lighter parameter taken) site
  · intro k after chosen exhausted
    rcases usable chosen with ⟨bindings, bound, _⟩
    rw [bound] at exhausted
    cases exhausted
  · intro after chosen
    exact settling_fails _ after

theorem keeps_produceByMethod {cell : Cell} (own : fresh ≤ cell.number)
    {selector : Selector Method} (picks : selector.Picks) (site : Site) (store : Store) :
    (settling graph fresh).Keeps (Strategy.produceByMethod host cell selector site type) store := by
  refine keeps_of_settled fun settled => ?_
  have usable : ∀ {m after}, Strategy.chosenMethod cell selector site type store
      = (some m, after) → ∃ own bindings, Bindings.ofType host.depth type = .ok own ∧
        own.bind host.depth m.returnType type = .ok bindings ∧
        ∀ parameter ∈ m.parameters,
          graph.Reaches start (type.weight 0) (bindings.resolve parameter.type) := by
    intro m after chosen
    obtain ⟨c, manufactured, usable⟩ := Strategy.usable_of_chosenMethod orderly.consistent
      settled own picks (fun c => lightens.containsManufactured) chosen
    exact lightens.reaches.methodParameter orderly uncaptured (Nat.le_refl _) manufactured usable
  refine Course.keeps_produceByMethod
    (settling_chosenMethod picks fun c => lightens.containsManufactured) ?_ ?_ ?_
  · intro m after chosen own bindings bound fitted parameter taken site
    rcases usable chosen with ⟨others, fitting, same, fits, lighter⟩
    rw [bound] at same
    cases same
    rw [fitted] at fits
    cases fits
    exact lightens.serves (lighter parameter taken) site
  · intro m after chosen exhausted
    rcases usable chosen with ⟨own, bindings, bound, fitted, _⟩
    rw [bound] at exhausted
    change own.bind host.depth m.returnType type = .error ⟨⟩ at exhausted
    rw [fitted] at exhausted
    cases exhausted
  · intro after chosen
    exact settling_fails _ after

theorem keeps_produce {strategy : Strategy} (tame : strategy.Tame fresh) (site : Site)
    (store : Store) : (settling graph fresh).Keeps (strategy.produce host site type) store := by
  have declines : ∀ {refused : Prop} {site store}, refused →
      (settling graph fresh).fails store (.error (.unresolvable type site)) store :=
    fun {_ site store} _ => settling_fails _ store
  induction strategy generalizing site store with
  | defaultValue => exact keeps_defaultValue declines
  | constant expected value => exact keeps_onlyIf (keeps_pure value store) declines
  | supplied cell expected supplier =>
      have counts : (settling graph fresh).Admits (Store.nextNumber cell) store :=
        admits_plain (.nextNumber cell) store
      exact keeps_onlyIf (keeps_step_bind rfl counts (settling_action (tame site _))) declines
  | nullValue => exact keeps_onlyIf (keeps_pure Value.null store) declines
  | optional mode =>
      exact keeps_produceOptional
        (fun raw arguments applied argument member => lightens.servesPart applied member) declines
  | collection c build size =>
      exact keeps_produceCollection
        (fun raw arguments applied argument member => lightens.servesPart applied member) declines
  | map c build size =>
      exact keeps_produceMap
        (fun raw arguments applied argument member => lightens.servesPart applied member) declines
  | array size =>
      exact keeps_produceArray (fun component array => lightens.servesComponent array) declines
  | constructor cell selector =>
      exact lightens.keeps_produceByConstructor orderly uncaptured tame.1 tame.2 site store
  | factoryMethod cell selector =>
      exact lightens.keeps_produceByMethod orderly uncaptured tame.1 tame.2 site store
  | enumValue selector => exact keeps_enumValue fun after _ => settling_fails _ after
  | implementation target substitute => exact tame.elim
  | chain => exact keeps_onlyIf (keeps_create _ store) declines
  | memoizing cell inner discriminator ih => exact keeps_recalling fun _ => ih tame _ _
  | conditional inner condition ih => exact ih tame site store
  | enhancing inner enhancer => exact tame.elim

end Lightens

/--
By induction on the depth: a chain of tame strategies serves what weighs less than the
depth, for what is asked for on the way weighs less again.
-/
theorem settling_serves {chain : Chain} (tame : ∀ strategy ∈ chain.strategies, strategy.Tame fresh)
    (orderly : graph.Orderly) (uncaptured : graph.Uncaptured start) {depth n : Nat}
    (reaches : graph.Reaches start n type) (deep : n < depth) (site : Site) :
    (settling graph fresh).Serves (chain.hostWithin depth) ⟨type, site⟩ := by
  induction depth generalizing n type site with
  | zero => exact absurd deep (Nat.not_lt_zero n)
  | succ depth ih =>
      have light := reaches.weight
      have lightens : Lightens graph fresh start (chain.hostWithin depth) type :=
        ⟨reaches.mono (Nat.le_of_lt_succ deep), fun lighter site => ih lighter (by omega) site⟩
      have resolves : ∀ store, (settling graph fresh).Keeps
          ((chain.hostWithin (depth + 1)).resolve ⟨type, site⟩) store := by
        intro store
        refine keeps_resolveFor (fun strategy member store => ?_) fun strategy accepted found => ?_
        · exact settling_accepts (tame strategy member) (fun c => lightens.containsConstructed)
            fun c => lightens.containsManufactured
        · have member := (Chain.mem_of_firstAccepting found).1
          exact lightens.keeps_produce orderly uncaptured (tame strategy member) site accepted
      refine serves_of_resolve resolves fun store after outcome settled => ?_
      have kept := resolves store
      unfold Keeps at kept
      rw [outcome] at kept
      exact ⟨nofun, kept settled⟩

end Course
end TestData
