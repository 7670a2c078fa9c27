import TestData.Proofs.Separation.Worlds
import TestData.Proofs.Wildcards

namespace TestData

/-!
# Ready-made chains keep to themselves

Every ready-made chain is made by a recipe: it takes some cells and makes three constants
at most, and nothing else about it depends on the store.  So whatever a ready-made chain
is asked, and whatever others are made and asked in the meantime, its answers are those it
gives when the others are left alone.
-/

open Renamable

namespace Strategy

theorem renamed_id (strategy : Strategy) : strategy.renamed id = strategy := by
  induction strategy with
  | constant type value => exact congrArg (Strategy.constant type) (rename_id value)
  | conditional inner condition ih =>
      exact congrArg (fun inner => Strategy.conditional inner condition) ih
  | _ => rfl

/-- A strategy without constants of its own stays as it is. -/
theorem Separable.renamed_eq {strategy : Strategy} {cells : Cell → Prop}
    (separable : strategy.Separable cells 0) (change : Nat → Nat) :
    strategy.renamed change = strategy :=
  (separable.renamed_congr nofun).trans strategy.renamed_id

theorem separable_defaultCollections (cells : Cell → Prop) (size : Nat) :
    ∀ strategy ∈ defaultCollections size, strategy.Separable cells 0 := by
  simp [defaultCollections, Separable, pure_list, pure_deque, pure_entries]

theorem separable_renewing {cells : Cell → Prop} {cell : Cell} {type : TypeExpr}
    {content : Content} {known : Nat} (own : cells cell) (below : Below 0 content) :
    (supplied cell type fun _ _ => .giveNew content).Separable cells known :=
  ⟨own, fun _ _ => ⟨content, rfl, below⟩⟩

theorem separable_constant {cells : Cell → Prop} {type : TypeExpr} {content : Content}
    {identity known : Nat} (made : identity < known) (below : Below 0 content) :
    (constant type (.object identity content)).Separable cells known :=
  below_object_iff.mpr ⟨made, below.mono (Nat.zero_le known)⟩

theorem renamed_constant (change : Nat → Nat) (type : TypeExpr) (identity : Nat) {content : Content}
    (below : Below 0 content) :
    (constant type (.object identity content)).renamed change =
      .constant type (.object (change identity) content) := by
  have same : rename change content = content := below.rename_eq nofun
  show constant type (.object (change identity) (rename change content)) = _
  rw [same]

end Strategy

namespace Chain

theorem separable_afterConstructors (cells : Cell → Prop) :
    ∀ strategy ∈ afterConstructors, strategy.Separable cells 0 := by
  refine List.forall_mem_append.mpr ⟨fun strategy member => ?_, ?_⟩
  · exact Strategy.separable_defaultCollections cells 1 strategy (List.mem_reverse.mp member)
  · simp only [List.forall_mem_cons, List.not_mem_nil, false_implies, implies_true, and_true]
    exact ⟨trivial, trivial, ⟨trivial, Selector.Standard.picks trivial⟩, trivial⟩

/-- The cells that are handed out from a first one on. -/
def cellsFrom (first count : Nat) (cell : Cell) : Prop :=
  first ≤ cell.number ∧ cell.number < first + count

theorem separable_full (cell identity : Nat) :
    (full { nextCell := cell, nextIdentity := identity }).1.Separable (cellsFrom cell 9)
      (identity + 3) := by
  have own : ∀ index, index < 9 → cellsFrom cell 9 ⟨cell + index⟩ :=
    fun index inside => ⟨Nat.le_add_right _ _, Nat.add_lt_add_left inside cell⟩
  have made : ∀ index, index < 3 → identity + index < identity + 3 :=
    fun index inside => Nat.add_lt_add_left inside identity
  have front : ∀ strategy ∈ beforeFactoryMethod { nextCell := cell, nextIdentity := identity },
      strategy.Separable (cellsFrom cell 9) (identity + 3) := by
    unfold beforeFactoryMethod
    simp only [List.forall_mem_cons, List.not_mem_nil, false_implies, implies_true, and_true]
    refine ⟨?_, ?_, ?_, ?_, ?_, ?_, ?_, ?_, ?_, trivial⟩
    · exact Strategy.separable_renewing (own 8 (by decide)) rfl
    · exact Strategy.separable_renewing (own 7 (by decide)) rfl
    · exact Strategy.separable_renewing (own 6 (by decide)) rfl
    · exact Strategy.separable_renewing (own 5 (by decide)) rfl
    · exact Strategy.separable_renewing (own 4 (by decide)) rfl
    · exact Strategy.separable_renewing (own 3 (by decide)) rfl
    · exact Strategy.separable_constant (made 2 (by decide)) rfl
    · exact Strategy.separable_constant (made 1 (by decide)) rfl
    · exact Strategy.separable_constant (made 0 (by decide)) rfl
  have back : ∀ strategy ∈ afterFactoryMethod { nextCell := cell, nextIdentity := identity },
      strategy.Separable (cellsFrom cell 9) (identity + 3) := by
    rw [afterFactoryMethod_eq]
    refine List.forall_mem_cons.mpr ⟨?_, List.forall_mem_cons.mpr ⟨?_, fun strategy member => ?_⟩⟩
    · exact ⟨own 1 (by decide), trivial, Selector.Standard.picks trivial⟩
    · exact ⟨own 0 (by decide), trivial, Selector.Standard.picks trivial⟩
    · exact (separable_afterConstructors _ strategy member).mono (fun _ inside => inside)
        (Nat.zero_le _)
  unfold Chain.Separable
  rw [full_strategies]
  refine List.forall_mem_append.mpr ⟨front, List.forall_mem_cons.mpr ⟨?_, back⟩⟩
  exact ⟨own 2 (by decide), trivial, Selector.Standard.picks trivial⟩

/-- Only the constants of the full chain have to do with where identities begin. -/
theorem renamed_full {change : Nat → Nat} (cell : Nat) {identity other : Nat}
    (shifted : ∀ ahead, change (identity + ahead) = other + ahead) :
    (full { nextCell := cell, nextIdentity := other }).1 =
      (full { nextCell := cell, nextIdentity := identity }).1.renamed change := by
  have constants : ∀ index (type : TypeExpr) (content : Content), Below 0 content →
      (Strategy.constant type (.object (identity + index) content)).renamed change =
        .constant type (.object (other + index) content) := by
    intro index type content below
    rw [Strategy.renamed_constant change type _ below, shifted]
  have front : (beforeFactoryMethod { nextCell := cell, nextIdentity := identity }).map
      (Strategy.renamed change) = beforeFactoryMethod { nextCell := cell, nextIdentity := other } := by
    simp only [beforeFactoryMethod, List.map_cons, List.map_nil]
    rw [constants 2 _ (.text "") rfl, constants 1 _ .unit rfl]
    have last := constants 0 (.plain Class.object) .unit rfl
    rw [Nat.add_zero, Nat.add_zero] at last
    rw [last]
    rfl
  have back : (afterFactoryMethod { nextCell := cell, nextIdentity := identity }).map
      (Strategy.renamed change) = afterFactoryMethod { nextCell := cell, nextIdentity := other } :=
    rfl
  have strategies : (full { nextCell := cell, nextIdentity := other }).1.strategies =
      ((full { nextCell := cell, nextIdentity := identity }).1.renamed change).strategies := by
    unfold Chain.renamed
    rw [full_strategies, full_strategies, List.map_append, List.map_cons, front, back]
    rfl
  exact congrArg Chain.mk strategies

namespace Recipe

/-- The full chain: nine cells, and an object for each of the common constants. -/
def full : Recipe where
  cells := 9
  objects := 3
  chain cell identity := (Chain.full { nextCell := cell, nextIdentity := identity }).1
  separable := separable_full
  renamed := renamed_full

/-- The chain without strategies takes nothing. -/
def empty : Recipe where
  cells := 0
  objects := 0
  chain _ _ := Chain.empty
  separable _ _ _ member := nomatch member
  renamed _ _ _ _ := rfl

/-- Some strategies without constants of their own, in front of the chain of a recipe. -/
def withAdded (recipe : Recipe) (cells : Nat) (added : Nat → List Strategy)
    (separable : ∀ cell, ∀ strategy ∈ added cell, strategy.Separable (cellsFrom cell cells) 0) :
    Recipe where
  cells := cells + recipe.cells
  objects := recipe.objects
  chain cell identity := assemble (added cell) [] (recipe.chain (cell + cells) identity)
  separable cell identity := by
    have front : ∀ own, cellsFrom cell cells own → cellsFrom cell (cells + recipe.cells) own :=
      fun own inside => ⟨inside.1, Nat.lt_of_lt_of_le inside.2 (by omega)⟩
    have back : ∀ own, cellsFrom (cell + cells) recipe.cells own →
        cellsFrom cell (cells + recipe.cells) own :=
      fun own inside => ⟨Nat.le_trans (Nat.le_add_right _ _) inside.1, by
        have under := inside.2
        omega⟩
    intro strategy member
    unfold assemble at member
    rcases List.mem_append.mp member with first | later
    · rcases List.mem_append.mp first with inFront | among
      · exact (separable cell strategy (List.mem_reverse.mp inFront)).mono front (Nat.zero_le _)
      · cases among
    · exact (recipe.separable _ identity strategy later).mono back (Nat.le_refl _)
  renamed {change} cell {identity other} shifted := by
    have unchanged : (added cell).reverse.map (Strategy.renamed change) = (added cell).reverse :=
      map_eq_self_iff.mpr fun strategy member =>
        (separable cell strategy (List.mem_reverse.mp member)).renamed_eq _
    rw [recipe.renamed (cell + cells) shifted]
    unfold assemble Chain.renamed
    simp only [List.map_append, unchanged, List.reverse_nil, List.flatMap_nil, List.map_nil]

end Recipe

end Chain

namespace Settings

/-- The strategies that settings put in front of the baseline; a generator has the first cell. -/
def added (settings : Settings) (cell : Nat) : List Strategy :=
  (match settings.collectionSize with
    | some size => collectionStrategies size
    | none => [])
  ++ (match settings.optionalMode with
    | some mode => [.optional mode]
    | none => [])
  ++ (match settings.randomSeed with
    | some seed => [.enumValue (.random ⟨cell⟩ (.ofSeed seed))]
    | none => [])

/-- A generator takes a cell. -/
def cells (settings : Settings) : Nat :=
  if settings.randomSeed.isSome then 1 else 0

theorem separable_added (settings : Settings) (cell : Nat) :
    ∀ strategy ∈ settings.added cell,
      strategy.Separable (Chain.cellsFrom cell (settings.cells)) 0 := by
  have collections : ∀ size, ∀ strategy ∈ collectionStrategies size,
      strategy.Separable (Chain.cellsFrom cell (settings.cells)) 0 := by
    intro size
    exact List.forall_mem_cons.mpr ⟨trivial, Strategy.separable_defaultCollections _ _⟩
  unfold added
  refine List.forall_mem_append.mpr ⟨List.forall_mem_append.mpr ⟨?_, ?_⟩, ?_⟩
  · split
    · exact collections _
    · exact fun _ member => nomatch member
  · split
    · exact fun strategy member => List.mem_singleton.mp member ▸ trivial
    · exact fun _ member => nomatch member
  · split
    · next seed seeded =>
        have own : Chain.cellsFrom cell (settings.cells) ⟨cell⟩ := by
          simp [Chain.cellsFrom, cells, seeded]
        intro strategy member
        cases List.mem_singleton.mp member
        exact ⟨own, Selector.Standard.picks trivial⟩
    · exact fun _ member => nomatch member

/-- What settings ask for is known as soon as it is known where cells begin. -/
theorem builder_apply (settings : Settings) (store : Store) :
    settings.builder store =
      ({ baseline := settings.baseline, added := settings.added store.nextCell },
        { store with nextCell := store.nextCell + settings.cells }) := by
  rcases settings with ⟨baseline, _ | size, _ | mode, _ | seed⟩ <;>
    simp only [builder, ChainBuilder.stubWithAll_eq] <;> rfl

/-- The baseline gets its cells after those of the settings. -/
theorem chain_apply (settings : Settings) (store : Store) :
    settings.chain store =
      let baseline := settings.baseline.chain
        { store with nextCell := store.nextCell + settings.cells }
      (Chain.assemble (settings.added store.nextCell) [] baseline.1, baseline.2) := by
  show ChainBuilder.build (settings.builder store).1 (settings.builder store).2 = _
  rw [settings.builder_apply]
  rfl

end Settings

namespace Chain

theorem recipe_full : full = Recipe.full.step := by
  funext store
  rfl

theorem assemble_included (added : List Strategy) (chain : Chain) :
    assemble added [chain] empty = assemble added [] chain := by
  simp [assemble, empty]

theorem separable_minimalStrategies (cells : Cell → Prop) :
    ∀ strategy ∈ minimalStrategies, strategy.Separable cells 0 := by
  refine List.forall_mem_append.mpr ⟨List.forall_mem_append.mpr ⟨?_, ?_⟩, ?_⟩
  · exact fun strategy member => List.mem_singleton.mp member ▸ trivial
  · exact Strategy.separable_defaultCollections _ 0
  · exact fun strategy member => List.mem_singleton.mp member ▸ trivial

/-- The minimal chain is the full one with some strategies in front. -/
theorem recipe_minimal : ∃ recipe : Recipe, minimal = recipe.step := by
  refine ⟨Recipe.full.withAdded 0 (fun _ => minimalStrategies)
    fun cell => separable_minimalStrategies (cellsFrom cell 0), ?_⟩
  funext store
  have made : minimal store = (assemble minimalStrategies [(full store).1] empty, (full store).2) :=
    rfl
  rw [made, assemble_included, recipe_full]
  rfl

theorem recipe_baseline (baseline : Baseline) : ∃ recipe : Recipe, baseline.chain = recipe.step := by
  cases baseline with
  | full => exact ⟨Recipe.full, recipe_full⟩
  | minimal => exact recipe_minimal
  | empty => exact ⟨Recipe.empty, rfl⟩

/-- Ready-made chains are made by recipes. -/
theorem ReadyMade.recipe {make : Step Chain} (readyMade : ReadyMade make) :
    ∃ recipe : Recipe, make = recipe.step := by
  cases readyMade with
  | full => exact ⟨Recipe.full, recipe_full⟩
  | minimal => exact recipe_minimal
  | configured settings =>
      rcases recipe_baseline settings.baseline with ⟨recipe, baseline⟩
      refine ⟨recipe.withAdded settings.cells settings.added settings.separable_added, ?_⟩
      funext store
      rw [settings.chain_apply, baseline]
      simp only [Recipe.step, Recipe.withAdded, Nat.add_assoc]

end Chain

/-! ## Chains among others -/

variable {ι : Type} {graph : ClassGraph}

theorem Store.Tidy.settledIn {store : Store} (tidy : store.Tidy) :
    store.SettledIn graph fun cell => store.nextCell ≤ cell.number where
  constructors unused known := by
    rw [tidy.constructors unused] at known
    cases known
  methods unused known := by
    rw [tidy.methods unused] at known
    cases known

/-- Before the first chain is made, two copies of a world are one and the same to all. -/
theorem World.Separated.new (graph : ClassGraph) {before : Store} (tidy : before.Tidy) (name : ι) :
    ∃ frame : Frame graph before.nextIdentity,
      World.Separated frame name (World.new before) (World.new before) := by
  refine ⟨.same graph before.nextIdentity fun cell => before.nextCell ≤ cell.number, ?_⟩
  constructor
  · exact ⟨fun _ => rfl, Nat.le_refl _, .refl _, tidy.settledIn, trivial⟩
  · rfl
  · exact fun unused => unused
  · exact fun _ strategy member => nomatch member
  · exact fun strategy member => nomatch member
  · rfl

/--
Ready-made chains are made under names, and stubs are asked for at them, in any order.
What the chain of a name answers is, up to the identity of what was made in the meantime,
what it answers if none of the others is asked for anything.  In the end it is the same
chain, too, and what the store keeps for it is the same: the members it settled on, its
sequence numbers and its generators.
-/
theorem separate_chains_undisturbed [DecidableEq ι] {before : Store} (tidy : before.Tidy)
    (pure : graph.Pure before.nextIdentity) {acts : List (Act ι)}
    (ready : ∀ name make, Act.make name make ∈ acts → Chain.ReadyMade make)
    (within : ∀ name demand, Act.ask name demand ∈ acts →
      demand.wanted.type.Within graph.contains) (name : ι) :
    let own := acts.filter (Act.concerns name)
    let alone := World.after own (World.new before)
    let together := World.after acts (World.new before)
    ∃ (change : Nat → Nat) (cells : Cell → Prop), Function.Injective change ∧
      (∀ identity < before.nextIdentity, change identity = identity) ∧
      World.answers name acts (World.new before) =
        rename change (World.answers name own (World.new before)) ∧
      together.chains name = (alone.chains name).renamed change ∧
      (alone.chains name).OwnedBy cells ∧ Store.Agree cells alone.store together.store := by
  have allowed : ∀ act ∈ acts, act.Allowed graph := by
    intro act member
    cases act with
    | make other make => exact (ready other make member).recipe
    | ask other demand => exact within other demand member
  rcases World.Separated.new graph tidy name with ⟨frame, separated⟩
  rcases separated.run pure allowed with ⟨last, -, ends, answered⟩
  exact ⟨last.change, last.cells, last.injective, last.fixed, answered, ends.renamed,
    ends.separable.ownedBy.mono fun _ used => used.1, ends.mirrors.agree⟩

/-! ### Badges from two chains -/

/-- A badge shows when it was issued. -/
def Class.badge : Class where
  name := "Badge"
  kind := .concrete
  constructorDeclarations := [{
    parameters := [{ name := "issued", type := .plain systemTime }]
    invoker := some (Invoker.making "Badge" "Badge::new") }]

namespace ClassGraph

def badges : ClassGraph where
  contains c := c = Class.badge ∨ c = Class.systemTime
  closed := by
    rintro c (rfl | rfl) type mentioned
    · cases List.mem_singleton.mp mentioned
      exact .plain (.member (Or.inr rfl))
    · cases mentioned

theorem badges_pure (old : Nat) : badges.Pure old where
  constructors := by
    rintro c k (rfl | rfl) usable
    · cases List.mem_singleton.mp usable
      exact Invoker.pure_making old "Badge" "Badge::new"
    · cases usable
  methods := by
    rintro c m (rfl | rfl) usable <;> cases usable
  constants := by
    rintro c value (rfl | rfl) among <;> cases among

end ClassGraph

/-- A badge is as good as any other, even if another chain with a generator issued one before. -/
theorem badges_undisturbed :
    let badge : Demand := .stub ⟨.plain Class.badge, .unknown⟩ 3
    let acts : List (Act Bool) := [.make true Chain.full,
      .make false (Settings.chain { baseline := .minimal, randomSeed := some 7 }),
      .ask false badge, .ask true badge, .ask false badge, .ask true badge]
    ClassGraph.badges.Pure 0 ∧ Store.Tidy {} ∧
      ∃ change : Nat → Nat, Function.Injective change ∧
        World.answers true acts (World.new {}) = rename change
          (World.answers true (acts.filter (Act.concerns true)) (World.new {})) := by
  intro badge acts
  have pure : ClassGraph.badges.Pure 0 := ClassGraph.badges_pure 0
  have tidy : Store.Tidy {} := ⟨fun _ => rfl, fun _ => rfl⟩
  have ready : ∀ name make, Act.make name make ∈ acts → Chain.ReadyMade make := by
    intro name make member
    simp only [acts, List.mem_cons, Act.make.injEq, reduceCtorEq, List.not_mem_nil, or_false] at member
    rcases member with ⟨-, rfl⟩ | ⟨-, rfl⟩
    · exact .full
    · exact .configured _
  have within : ∀ name demand, Act.ask name demand ∈ acts →
      demand.wanted.type.Within ClassGraph.badges.contains := by
    intro name demand member
    have same : demand = badge := by
      simp only [acts, List.mem_cons, Act.ask.injEq, reduceCtorEq, List.not_mem_nil, or_false,
        false_or] at member
      rcases member with ⟨-, same⟩ | ⟨-, same⟩ | ⟨-, same⟩ | ⟨-, same⟩ <;> exact same
    rw [same]
    exact .plain (.member (Or.inl rfl))
  rcases separate_chains_undisturbed tidy pure ready within true
    with ⟨change, _, injective, _, answered, _⟩
  exact ⟨pure, tidy, change, injective, answered⟩

end TestData
