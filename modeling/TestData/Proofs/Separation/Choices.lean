import TestData.Proofs.Separation.Mirror

namespace TestData

/-!
# Choices in mirrored stores

Whether a strategy accepts a request, and which member it settles on, is the same in two
mirrored stores: what is remembered in the cells of the frame is the same, and so are the
numbers drawn there.  What is chosen is a member of the graph, for selectors pick from
their candidates, and these are members of a class that the requested type uses.
-/

open Renamable

/-! ## Pure members and separable strategies -/

/-- What members of the graph come to is a matter of their arguments alone. -/
structure ClassGraph.Pure (graph : ClassGraph) (old : Nat) : Prop where
  constructors {c : Class} {k : Constructor} (member : graph.contains c)
    (usable : k ∈ c.usableConstructors) : Renamable.Pure old k.call
  methods {c : Class} {m : Method} (member : graph.contains c) (usable : m ∈ c.factoryMethods) :
    Renamable.Pure old (m.call none)
  constants {c : Class} {value : Value} (member : graph.contains c) (among : value ∈ c.constants) :
    Below old value

namespace Strategy

/--
All state of the strategy is kept in these cells, the constants it hands out have
identities below the given one, and it builds stubs without a look at identities.
Strategies that remember values or are put around others are left out, and so are
suppliers that ask for stubs.
-/
def Separable (cells : Cell → Prop) (known : Nat) : Strategy → Prop
  | .constant _ value => Below known value
  | .supplied cell _ supplier => cells cell ∧
      ∀ site number, ∃ content, supplier site number = .giveNew content ∧ Below 0 content
  | .collection _ build _ => Renamable.Pure 0 build
  | .map _ build _ => Renamable.Pure 0 build
  | .constructor cell selector => cells cell ∧ selector.Uses cells ∧ selector.Picks
  | .factoryMethod cell selector => cells cell ∧ selector.Uses cells ∧ selector.Picks
  | .enumValue selector => selector.Uses cells ∧ selector.Picks
  | .conditional inner _ => inner.Separable cells known
  | .implementation .. | .memoizing .. | .enhancing .. => False
  | .defaultValue | .nullValue | .optional _ | .array _ | .chain => True

theorem Separable.mono {strategy : Strategy} {cells wider : Cell → Prop} {known more : Nat}
    (separable : strategy.Separable cells known) (within : ∀ cell, cells cell → wider cell)
    (le : known ≤ more) : strategy.Separable wider more := by
  induction strategy with
  | constant type value => exact Below.mono separable le
  | supplied cell type supplier => exact ⟨within cell separable.1, separable.2⟩
  | collection c build size => exact separable
  | map c build size => exact separable
  | constructor cell selector | factoryMethod cell selector =>
      exact ⟨within cell separable.1, separable.2.1.mono within, separable.2.2⟩
  | enumValue selector => exact ⟨separable.1.mono within, separable.2⟩
  | conditional inner condition ih => exact ih separable
  | implementation | memoizing | enhancing => exact separable.elim
  | defaultValue | nullValue | optional | array | chain => exact trivial

theorem Separable.ownedBy {strategy : Strategy} {cells : Cell → Prop} {known : Nat}
    (separable : strategy.Separable cells known) : strategy.OwnedBy cells := by
  induction strategy with
  | supplied cell type supplier => exact separable.1
  | constructor cell selector | factoryMethod cell selector =>
      exact ⟨separable.1, separable.2.1⟩
  | enumValue selector => exact separable.1
  | conditional inner condition ih => exact ih separable
  | implementation | memoizing | enhancing => exact separable.elim
  | defaultValue | constant | nullValue | optional | collection | map | array | chain =>
      exact trivial

/-- The strategy with other identities in what it hands out. -/
def renamed (change : Nat → Nat) : Strategy → Strategy
  | .constant type value => .constant type (rename change value)
  | .conditional inner condition => .conditional (inner.renamed change) condition
  | strategy => strategy

/-- If what is handed out is below a bound, identities from the bound on do not matter. -/
theorem Separable.renamed_congr {strategy : Strategy} {cells : Cell → Prop} {known : Nat}
    {change other : Nat → Nat} (separable : strategy.Separable cells known)
    (agree : ∀ identity < known, change identity = other identity) :
    strategy.renamed change = strategy.renamed other := by
  induction strategy with
  | constant type value =>
      exact congrArg (Strategy.constant type) (Below.rename_congr separable agree)
  | conditional inner condition ih =>
      exact congrArg (fun inner => Strategy.conditional inner condition) (ih separable)
  | _ => rfl

/-- Which requests are accepted has nothing to do with identities. -/
theorem accepts_renamed (strategy : Strategy) (change : Nat → Nat) (site : Site)
    (type : TypeExpr) : (strategy.renamed change).accepts site type = strategy.accepts site type := by
  induction strategy with
  | conditional inner condition ih =>
      rw [renamed, accepts, accepts, ih]
  | _ => rfl

end Strategy

variable {graph : ClassGraph} {old known : Nat} {frame : Frame graph old} {type : TypeExpr}

/-- A class with constructors or methods behind a type of the graph is in the graph. -/
theorem TypeExpr.Within.constructed (within : type.Within graph.contains)
    {c : Class} (constructed : Strategy.constructedClass? type = some c) : graph.contains c :=
  within.contains (Strategy.rawType_of_constructedClass? constructed)
    (Or.inl (Strategy.constructors_of_constructedClass? constructed))

theorem TypeExpr.Within.manufactured (within : type.Within graph.contains)
    {c : Class} (manufactured : Strategy.manufacturedClass? type = some c) : graph.contains c :=
  within.contains (Strategy.rawType_of_manufacturedClass? manufactured)
    (Or.inr (Strategy.methods_of_manufacturedClass? manufactured))

namespace Step

/-- What was settled is settled in both stores, and what is not is chosen in both alike. -/
theorem mirrored_settle {α : Type} {remembered : Store → Option (Option α)}
    {keep : Option α → Store → Store} {search : Step (Option α)} {found holds : Option α → Prop}
    (same : ∀ {store mirror}, frame.Mirrors store mirror → remembered mirror = remembered store)
    (known : ∀ {store mirror choice}, frame.Mirrors store mirror →
      remembered store = some choice → holds choice)
    (searched : Mirrored frame search found) (suits : ∀ choice, found choice → holds choice)
    (keeps : ∀ {store mirror choice}, found choice → frame.Mirrors store mirror →
      frame.Mirrors (keep choice store) (keep choice mirror) ∧
        (keep choice store).nextIdentity = store.nextIdentity) :
    Mirrored frame (Store.settle remembered keep search) holds := by
  intro store mirror mirrors
  have alike := same mirrors
  cases settled : remembered store with
  | some choice =>
      rw [settled] at alike
      rw [Store.settle_of_known settled, Store.settle_of_known alike]
      exact ⟨known mirrors settled, rfl, mirrors, rfl⟩
  | none =>
      rw [settled] at alike
      rw [Store.settle_of_unknown settled, Store.settle_of_unknown alike]
      rcases searched store mirror mirrors with ⟨given, equal, made, quiet⟩
      rw [equal]
      rcases keeps given made with ⟨kept, still⟩
      exact ⟨suits _ given, rfl, kept, still.trans quiet⟩

theorem mirrored_selectFrom {α : Type} {selector : Selector α} (uses : selector.Uses frame.cells)
    (picks : selector.Picks) (site : Site) (candidates : List α) :
    Mirrored frame (selector.selectFrom site candidates) fun choice =>
      ∀ member, choice = some member → member ∈ candidates :=
  (searching_select uses site _).mirrored.of_always fun store member chosen =>
    picks site candidates store member chosen

theorem mirrored_chosenConstructor {cell : Cell} {selector : Selector Constructor}
    (own : frame.cells cell) (uses : selector.Uses frame.cells) (picks : selector.Picks)
    (site : Site) (within : type.Within graph.contains) :
    Mirrored frame (Strategy.chosenConstructor cell selector site type) fun choice =>
      ∀ k, choice = some k → ∃ c, graph.contains c ∧ k ∈ c.usableConstructors := by
  unfold Strategy.chosenConstructor
  cases constructed : Strategy.constructedClass? type with
  | none => exact .pure nofun
  | some c =>
      have contains := within.constructed constructed
      have searched : Mirrored frame (do
          Store.record (.selected cell c.name)
          selector.selectFrom site c.usableConstructors) _ :=
        .bind (mirrored_record _) fun _ _ => mirrored_selectFrom uses picks site _
      refine mirrored_settle (fun mirrors => mirrors.agree.constructors (cell, c.name) own)
        (fun mirrors known k chosen => ?_) searched
        (fun choice found k chosen => ⟨c, contains, found k chosen⟩)
        (fun found mirrors => ⟨mirrors.insertConstructor own fun k chosen =>
          ⟨contains, found k chosen⟩, rfl⟩)
      subst chosen
      rcases mirrors.settled.constructors own known with ⟨d, member, -, usable⟩
      exact ⟨d, member, usable⟩

theorem mirrored_chosenMethod {cell : Cell} {selector : Selector Method}
    (own : frame.cells cell) (uses : selector.Uses frame.cells) (picks : selector.Picks)
    (site : Site) (within : type.Within graph.contains) :
    Mirrored frame (Strategy.chosenMethod cell selector site type) fun choice =>
      ∀ m, choice = some m → ∃ c, graph.contains c ∧ m ∈ c.factoryMethods := by
  unfold Strategy.chosenMethod
  cases manufactured : Strategy.manufacturedClass? type with
  | none => exact .pure nofun
  | some c =>
      have contains := within.manufactured manufactured
      have searched : Mirrored frame (do
          Store.record (.selected cell c.name)
          selector.selectFrom site c.factoryMethods) _ :=
        .bind (mirrored_record _) fun _ _ => mirrored_selectFrom uses picks site _
      refine mirrored_settle (fun mirrors => mirrors.agree.methods (cell, c.name) own)
        (fun mirrors known m chosen => ?_) searched
        (fun choice found m chosen => ⟨c, contains, found m chosen⟩)
        (fun found mirrors => ⟨mirrors.insertMethod own fun m chosen =>
          ⟨contains, found m chosen⟩, rfl⟩)
      subst chosen
      rcases mirrors.settled.methods own known with ⟨d, member, -, usable⟩
      exact ⟨d, member, usable⟩

theorem mirrored_chosenConstant {selector : Selector Value} (pure : graph.Pure old)
    (uses : selector.Uses frame.cells) (picks : selector.Picks) (site : Site)
    (within : type.Within graph.contains) :
    Mirrored frame (Strategy.chosenConstant selector site type) fun choice =>
      ∀ value, choice = some value → Below old value := by
  unfold Strategy.chosenConstant
  split
  · next c unwraps =>
      split
      · next isEnum =>
          have contains : graph.contains c := by
            cases within.unwrap unwraps with
            | plain within =>
                cases within with
                | member member => exact member
                | arrayOf within => cases isEnum
          refine (searching_select uses site _).mirrored.of_always fun store value chosen => ?_
          exact pure.constants contains (picks site c.constants store value chosen)
      · exact .pure nofun
  · exact .pure nofun

/-- Both stores have the strategy accept the same requests. -/
theorem mirrored_accepts {strategy : Strategy} (pure : graph.Pure old)
    (separable : strategy.Separable frame.cells known) (site : Site)
    (within : type.Within graph.contains) :
    Mirrored frame (strategy.accepts site type) fun _ => True := by
  induction strategy with
  | defaultValue | constant | supplied | nullValue | optional | collection | map | array | chain =>
      exact .pure trivial
  | constructor cell selector =>
      exact .bind (mirrored_chosenConstructor separable.1 separable.2.1 separable.2.2 site within)
        fun _ _ => .pure trivial
  | factoryMethod cell selector =>
      exact .bind (mirrored_chosenMethod separable.1 separable.2.1 separable.2.2 site within)
        fun _ _ => .pure trivial
  | enumValue selector =>
      exact .bind (mirrored_chosenConstant pure separable.1 separable.2 site within)
        fun _ _ => .pure trivial
  | conditional inner condition ih =>
      refine .bind (ih separable) fun accepted _ => ?_
      cases accepted
      · exact .pure trivial
      · exact (Searching.heed _).mirrored
  | implementation | memoizing | enhancing => exact separable.elim

end Step
end TestData
