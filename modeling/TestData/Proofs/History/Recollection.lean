import TestData.Proofs.Separation.Serving

namespace TestData

/-!
# Recollections of what would be picked again

A strategy that goes by members runs its selector once for a class name and keeps the
answer.  If the selector looks at nothing but its candidates, and a name stands for one
class only, then what is kept is what the selector would pick again.  So what two chains
with the same selectors keep need not be the same for their choices to be: it is enough
that both keep right answers.  The stores of such chains are mirrored with no cell in
common, on the strength of an invariant of each.
-/

open Renamable

/-! ## Selectors that go by their candidates -/

namespace Selector

variable {α : Type}

/-- At every site and in every store, this is what the selector picks of the candidates. -/
def Settles (selector : Selector α) (candidates : List α) (choice : Option α) : Prop :=
  ∀ site store, (selector.selectFrom site candidates store).1 = choice

/-- What the selector picks is a matter of the candidates, and one of them. -/
structure Impartial (selector : Selector α) : Prop where
  picks : selector.Picks
  settles (candidates : List α) : ∃ choice, selector.Settles candidates choice

theorem Settles.unique {selector : Selector α} {candidates : List α} {choice other : Option α}
    (settles : selector.Settles candidates choice) (again : selector.Settles candidates other) :
    other = choice :=
  (again .unknown {}).symm.trans (settles .unknown {})

theorem Settles.mem {selector : Selector α} {candidates : List α} {choice : Option α}
    (settles : selector.Settles candidates choice) (picks : selector.Picks) {member : α}
    (chosen : choice = some member) : member ∈ candidates :=
  picks .unknown candidates {} member ((settles .unknown {}).trans chosen)

/-- The only candidate that matches is the same at all sites if the verdicts are. -/
theorem impartial_unique {matcher : Matcher α}
    (blind : ∀ site other candidate,
      (matcher site candidate).holds = (matcher other candidate).holds) :
    (unique matcher).Impartial where
  picks := Standard.picks trivial
  settles candidates := by
    refine ⟨((unique matcher).selectFrom .unknown candidates {}).1, fun site store => ?_⟩
    have alike : (fun candidate => (matcher site candidate).holds) =
        fun candidate => (matcher .unknown candidate).holds := funext (blind site .unknown)
    unfold selectFrom select
    rw [onlyMatch_answer, onlyMatch_answer, alike]

/-- At most one selector is at work in each cell, and all of them are impartial. -/
structure Allotted (selects : Cell → Selector α → Prop) : Prop where
  impartial {cell : Cell} {selector : Selector α} : selects cell selector → selector.Impartial
  one {cell : Cell} {selector other : Selector α} :
    selects cell selector → selects cell other → other = selector

end Selector

/-! ## Right answers -/

/--
What a table keeps under the name of a class is what the selector of the cell picks of
the members of the class.
-/
structure Table.Recalls {α : Type} (table : Table (Cell × String) (Option α))
    (selects : Cell → Selector α → Prop) (classes : Class → Prop) (members : Class → List α) :
    Prop where
  settles {cell : Cell} {selector : Selector α} {c : Class} {choice : Option α} :
    selects cell selector → classes c → table.find? (cell, c.name) = some choice →
      selector.Settles (members c) choice

/-- One more answer is right for its class, and it is the only class of this name. -/
theorem Table.Recalls.insert {α : Type} {table : Table (Cell × String) (Option α)}
    {selects : Cell → Selector α → Prop} {classes : Class → Prop} {members : Class → List α}
    (recalls : table.Recalls selects classes members) (allotted : Selector.Allotted selects)
    (named : ∀ {c d : Class}, classes c → classes d → c.name = d.name → c = d)
    {cell : Cell} {selector : Selector α} (own : selects cell selector) {c : Class}
    (among : classes c) {choice : Option α} (settles : selector.Settles (members c) choice) :
    (table.insert (cell, c.name) choice).Recalls selects classes members := by
  constructor
  intro wanted other d kept works member found
  by_cases same : (wanted, d.name) = (cell, c.name)
  · rw [same, find?_insert_self] at found
    injection same with cells names
    subst cells
    rw [allotted.one own works, named member among names, ← Option.some.inj found]
    exact settles
  · rw [find?_insert_of_ne _ _ same] at found
    exact recalls.settles works member found

namespace ClassGraph

/-- The classes of the graph under whose names constructors are kept. -/
def Constructs (graph : ClassGraph) (c : Class) : Prop :=
  graph.contains c ∧ c.constructorDeclarations ≠ []

/-- The classes of the graph under whose names methods are kept. -/
def Manufactures (graph : ClassGraph) (c : Class) : Prop :=
  graph.contains c ∧ c.methodDeclarations ≠ []

variable {graph : ClassGraph} {c d : Class}

theorem Consistent.constructs (consistent : graph.Consistent) (first : graph.Constructs c)
    (second : graph.Constructs d) (names : c.name = d.name) : c = d :=
  consistent first.1 second.1 names (Or.inl first.2) (Or.inl second.2)

theorem Consistent.manufactures (consistent : graph.Consistent) (first : graph.Manufactures c)
    (second : graph.Manufactures d) (names : c.name = d.name) : c = d :=
  consistent first.1 second.1 names (Or.inr first.2) (Or.inr second.2)

end ClassGraph

namespace Chain

/-- A strategy of the chain picks constructors by the selector and keeps them in the cell. -/
def Constructs (chain : Chain) (cell : Cell) (selector : Selector Constructor) : Prop :=
  .constructor cell selector ∈ chain.strategies

/-- A strategy of the chain picks factory methods by the selector and keeps them in the cell. -/
def Manufactures (chain : Chain) (cell : Cell) (selector : Selector Method) : Prop :=
  .factoryMethod cell selector ∈ chain.strategies

/-- The strategies of the chain pick members by impartial selectors, each in its own cell. -/
structure Impartial (chain : Chain) : Prop where
  constructors : Selector.Allotted chain.Constructs
  methods : Selector.Allotted chain.Manufactures

/-- All that the store keeps for the chain is what would be picked again. -/
structure Recalls (graph : ClassGraph) (chain : Chain) (store : Store) : Prop where
  constructors :
    store.constructors.Recalls chain.Constructs graph.Constructs Class.usableConstructors
  methods : store.methods.Recalls chain.Manufactures graph.Manufactures Class.factoryMethods

theorem Recalls.of_agree {graph : ClassGraph} {chain : Chain} {store after : Store}
    (recalls : chain.Recalls graph store)
    (agree : Store.AgreeOutside (fun _ => False) store after) : chain.Recalls graph after where
  constructors := ⟨fun own among found => recalls.constructors.settles own among
    ((agree.constructors _ not_false).symm.trans found)⟩
  methods := ⟨fun own among found => recalls.methods.settles own among
    ((agree.methods _ not_false).symm.trans found)⟩

end Chain

/-! ## Steps that keep answers right -/

variable {graph : ClassGraph} {old known : Nat} {chain counterpart : Chain} {type : TypeExpr}

/--
Where all that is kept for the chain is right the step gives a result of this kind, makes
nothing, and leaves all that is kept right.
-/
def Step.Recalling {α : Type} (graph : ClassGraph) (chain : Chain) (step : Step α)
    (holds : α → Prop) : Prop :=
  ∀ store : Store, chain.Recalls graph store →
    holds (step store).1 ∧ chain.Recalls graph (step store).2 ∧
      (step store).2.nextIdentity = store.nextIdentity

namespace Step

variable {α β : Type}

theorem Recalling.pure {result : α} {holds : α → Prop} (given : holds result) :
    Recalling graph chain (Pure.pure result) holds :=
  fun _ recalls => ⟨given, recalls, rfl⟩

theorem Recalling.bind {step : Step α} {next : α → Step β} {between : α → Prop} {holds : β → Prop}
    (first : Recalling graph chain step between)
    (second : ∀ result, between result → Recalling graph chain (next result) holds) :
    Recalling graph chain (step >>= next) holds := by
  intro store recalls
  rcases first store recalls with ⟨given, kept, quiet⟩
  rcases second _ given _ kept with ⟨final, left, still⟩
  exact ⟨final, left, still.trans quiet⟩

theorem recalling_record (event : Event) :
    Recalling graph chain (Store.record event) fun _ => True :=
  fun _ recalls => ⟨trivial, recalls.of_agree (.of_members_eq rfl rfl), rfl⟩

theorem recalling_nextNumber (cell : Cell) :
    Recalling graph chain (Store.nextNumber cell) fun _ => True :=
  fun _ recalls => ⟨trivial, recalls.of_agree (.of_members_eq rfl rfl), rfl⟩

/-- A search keeps nothing. -/
theorem Searching.recalling {cells : Cell → Prop} {step : Step α} (searching : Searching cells step)
    {holds : α → Prop} (always : ∀ store, holds (step store).1) :
    Recalling graph chain step holds := by
  intro store recalls
  have searched := (searching.searched store).rest
  have constructors : (step store).2.constructors = store.constructors := by rw [searched]
  have methods : (step store).2.methods = store.methods := by rw [searched]
  have quiet : (step store).2.nextIdentity = store.nextIdentity := by rw [searched]
  exact ⟨always store, recalls.of_agree (.of_members_eq constructors methods), quiet⟩

/-- What was settled is right, and what is settled now becomes what is kept. -/
theorem recalling_settle {remembered : Store → Option (Option α)} {keep : Option α → Store → Store}
    {search : Step (Option α)} {choice : Option α}
    (right : ∀ {store kept}, chain.Recalls graph store → remembered store = some kept → kept = choice)
    (searched : Recalling graph chain search fun found => found = choice)
    (keeps : ∀ {store}, chain.Recalls graph store →
      chain.Recalls graph (keep choice store) ∧
        (keep choice store).nextIdentity = store.nextIdentity) :
    Recalling graph chain (Store.settle remembered keep search) fun settled => settled = choice := by
  intro store recalls
  cases settled : remembered store with
  | some kept =>
      rw [Store.settle_of_known settled]
      exact ⟨right recalls settled, recalls, rfl⟩
  | none =>
      rw [Store.settle_of_unknown settled]
      rcases searched store recalls with ⟨found, left, quiet⟩
      rw [found]
      rcases keeps left with ⟨kept, still⟩
      exact ⟨rfl, kept, still.trans quiet⟩

theorem recalling_selectFrom {selector : Selector α} {candidates : List α} {choice : Option α}
    (settles : selector.Settles candidates choice) (site : Site) (event : Event) :
    Recalling graph chain (do
      Store.record event
      selector.selectFrom site candidates) fun found => found = choice :=
  .bind (recalling_record event) fun _ _ =>
    (searching_select selector.uses_all site _).recalling fun store => settles site store

/--
An impartial selector has one constructor for a type, a usable one.  Every chain that
picks by it chooses this one, whatever the cell, the site and the store.
-/
theorem recalling_chosenConstructor (consistent : graph.Consistent)
    {selector : Selector Constructor} (impartial : selector.Impartial)
    (within : type.Within graph.contains) :
    ∃ choice : Option Constructor,
      (∀ k, choice = some k → ∃ c, graph.contains c ∧ k ∈ c.usableConstructors) ∧
      ∀ {chain : Chain} {cell : Cell}, chain.Impartial → chain.Constructs cell selector →
        ∀ site, Recalling graph chain (Strategy.chosenConstructor cell selector site type)
          fun chosen => chosen = choice := by
  unfold Strategy.chosenConstructor
  cases constructed : Strategy.constructedClass? type with
  | none => exact ⟨none, nofun, fun _ _ _ => .pure rfl⟩
  | some c =>
      have contains := within.constructed constructed
      have constructs : graph.Constructs c :=
        ⟨contains, Strategy.constructors_of_constructedClass? constructed⟩
      rcases impartial.settles c.usableConstructors with ⟨choice, settles⟩
      refine ⟨choice, fun k chosen => ⟨c, contains, settles.mem impartial.picks chosen⟩, ?_⟩
      intro chain cell allotted own site
      refine recalling_settle (fun recalls found => ?_) (recalling_selectFrom settles site _)
        (fun recalls => ⟨⟨?_, recalls.methods⟩, rfl⟩)
      · exact settles.unique (recalls.constructors.settles own constructs found)
      · exact recalls.constructors.insert allotted.constructors consistent.constructs own
          constructs settles

theorem recalling_chosenMethod (consistent : graph.Consistent) {selector : Selector Method}
    (impartial : selector.Impartial) (within : type.Within graph.contains) :
    ∃ choice : Option Method,
      (∀ m, choice = some m → ∃ c, graph.contains c ∧ m ∈ c.factoryMethods) ∧
      ∀ {chain : Chain} {cell : Cell}, chain.Impartial → chain.Manufactures cell selector →
        ∀ site, Recalling graph chain (Strategy.chosenMethod cell selector site type)
          fun chosen => chosen = choice := by
  unfold Strategy.chosenMethod
  cases manufactured : Strategy.manufacturedClass? type with
  | none => exact ⟨none, nofun, fun _ _ _ => .pure rfl⟩
  | some c =>
      have contains := within.manufactured manufactured
      have manufactures : graph.Manufactures c :=
        ⟨contains, Strategy.methods_of_manufacturedClass? manufactured⟩
      rcases impartial.settles c.factoryMethods with ⟨choice, settles⟩
      refine ⟨choice, fun m chosen => ⟨c, contains, settles.mem impartial.picks chosen⟩, ?_⟩
      intro chain cell allotted own site
      refine recalling_settle (fun recalls found => ?_) (recalling_selectFrom settles site _)
        (fun recalls => ⟨⟨recalls.constructors, ?_⟩, rfl⟩)
      · exact settles.unique (recalls.methods.settles own manufactures found)
      · exact recalls.methods.insert allotted.methods consistent.manufactures own manufactures
          settles

end Step

/-! ## Stores with right answers -/

namespace Frame

/-- No cell is looked at any more; but what is kept for the two chains is right. -/
def recalling (frame : Frame graph old) (chain counterpart : Chain) : Frame graph old where
  cells _ := False
  change := frame.change
  injective := frame.injective
  fixed := frame.fixed
  knows store mirror := chain.Recalls graph store ∧ counterpart.Recalls graph mirror
  stays right here there := ⟨right.1.of_agree here, right.2.of_agree there⟩

variable {frame : Frame graph old} {store mirror : Store}

/-- Next identities apart, it takes right answers for two stores to be mirrored. -/
theorem mirrors_recalling
    (identities : ∀ ahead,
      frame.change (store.nextIdentity + ahead) = mirror.nextIdentity + ahead)
    (reached : old ≤ store.nextIdentity) (here : chain.Recalls graph store)
    (there : counterpart.Recalls graph mirror) :
    (frame.recalling chain counterpart).Mirrors store mirror where
  identities := identities
  reached := reached
  agree := ⟨nofun, nofun, nofun, nofun⟩
  settled := ⟨nofun, nofun⟩
  known := ⟨here, there⟩

/-- Steps that keep answers right make a pair. -/
theorem paired_recalling {α β : Type} {left : Step α} {right : Step β} {holds : α → Prop}
    {fits : β → Prop} (here : Step.Recalling graph chain left holds)
    (there : Step.Recalling graph counterpart right fits) :
    Step.Paired (frame.recalling chain counterpart) left right
      fun result other => holds result ∧ fits other := by
  intro store mirror mirrors
  rcases here store mirrors.known.1 with ⟨given, kept, quiet⟩
  rcases there mirror mirrors.known.2 with ⟨fitting, left, still⟩
  refine ⟨⟨given, fitting⟩, mirrors_recalling (fun ahead => ?_) (quiet ▸ mirrors.reached) kept left,
    quiet⟩
  rw [quiet, still]
  exact mirrors.identities ahead

/-- Of one and the same choice, what is known for one chain is known for both. -/
theorem paired_choice {α : Type} {left right : Step (Option α)} {choice : Option α}
    {holds : Option α → Prop} (given : holds choice)
    (here : Step.Recalling graph chain left fun chosen => chosen = choice)
    (there : Step.Recalling graph counterpart right fun chosen => chosen = choice) :
    Step.Paired (frame.recalling chain counterpart) left right
      fun chosen same => holds chosen ∧ same = chosen := by
  refine (paired_recalling here there).mono ?_
  rintro _ _ ⟨rfl, rfl⟩
  exact ⟨given, rfl⟩

variable (consistent : graph.Consistent) (pure : graph.Pure old) (here : chain.Impartial)
  (there : counterpart.Impartial) {cell other : Cell}
include consistent pure here there

/-- Constructors are chosen alike by the same selector, whatever is kept for it. -/
theorem couples_constructor {selector : Selector Constructor} (own : chain.Constructs cell selector)
    (foreign : counterpart.Constructs other selector) :
    (frame.recalling chain counterpart).Couples known (.constructor cell selector)
      (.constructor other selector) := by
  have chooses : ∀ {type : TypeExpr} (site : Site), type.Within graph.contains →
      Step.Paired (frame.recalling chain counterpart)
        (Strategy.chosenConstructor cell selector site type)
        (Strategy.chosenConstructor other selector site type) fun choice same =>
          (∀ k, choice = some k → ∃ c, graph.contains c ∧ k ∈ c.usableConstructors) ∧
            same = choice := by
    intro type site within
    have impartial := here.constructors.impartial own
    rcases Step.recalling_chosenConstructor consistent impartial within with ⟨choice, usable, chosen⟩
    exact paired_choice usable (chosen here own site) (chosen there foreign site)
  constructor
  · intro type site within
    exact .bind (chooses site within) fun _ _ both => .pure (congrArg Option.isSome both.2)
  · intro host mirror type serves site within
    exact serves.produceByConstructor pure within (chooses site within)

theorem couples_factoryMethod {selector : Selector Method} (own : chain.Manufactures cell selector)
    (foreign : counterpart.Manufactures other selector) :
    (frame.recalling chain counterpart).Couples known (.factoryMethod cell selector)
      (.factoryMethod other selector) := by
  have chooses : ∀ {type : TypeExpr} (site : Site), type.Within graph.contains →
      Step.Paired (frame.recalling chain counterpart)
        (Strategy.chosenMethod cell selector site type)
        (Strategy.chosenMethod other selector site type) fun choice same =>
          (∀ m, choice = some m → ∃ c, graph.contains c ∧ m ∈ c.factoryMethods) ∧
            same = choice := by
    intro type site within
    have impartial := here.methods.impartial own
    rcases Step.recalling_chosenMethod consistent impartial within with ⟨choice, usable, chosen⟩
    exact paired_choice usable (chosen here own site) (chosen there foreign site)
  constructor
  · intro type site within
    exact .bind (chooses site within) fun _ _ both => .pure (congrArg Option.isSome both.2)
  · intro host mirror type serves site within
    exact serves.produceByMethod pure within (chooses site within)

omit consistent pure here there in
/-- A supplier of equal objects gives the same whatever its numbers. -/
theorem couples_renewing {expected : TypeExpr} {content : Content} (below : Below 0 content) :
    (frame.recalling chain counterpart).Couples known
      (.supplied cell expected fun _ _ => .giveNew content)
      (.supplied other expected fun _ _ => .giveNew content) where
  accepts site within := .pure rfl
  produce {host mirror type} serves site within := by
    unfold Strategy.produce
    split
    · refine .paired_bind (paired_recalling (Step.recalling_nextNumber cell)
        (Step.recalling_nextNumber other)) fun number another _ => ?_
      refine .bind (.create_old serves.reached (below.mono (Nat.zero_le old))) fun _ made => ?_
      exact .pure made
    · exact Serves.giveUp site type

end Frame
end TestData
