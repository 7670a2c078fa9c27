import TestData.Proofs.History.Recollection
import TestData.Proofs.Nullable
import TestData.Proofs.Separation.ReadyMade

namespace TestData

/-!
# Presets without a past

The full chain picks members by matchers that look at nothing but the members, so what it
keeps is what it would pick again, at all times.  The minimal chain is the full one behind
some strategies that keep nothing.  So a preset that has been in use answers like one that
was just made, whatever it was asked for before and whether it could serve that or not.
-/

open Renamable

variable {graph : ClassGraph} {old known : Nat}

/-! ## The memory of the full chain -/

namespace Chain

theorem full_constructs_iff {before : Store} {cell : Cell} {selector : Selector Constructor} :
    (full before).1.Constructs cell selector ↔
      (cell = ⟨before.nextCell + 1⟩ ∧ selector = .unique Matcher.isDefaultConstructor.negate) ∨
        (cell = ⟨before.nextCell⟩ ∧ selector = .unique Matcher.isDefaultConstructor) := by
  unfold Constructs
  rw [full_strategies]
  simp [beforeFactoryMethod, afterFactoryMethod, Strategy.defaultCollections]

theorem full_manufactures_iff {before : Store} {cell : Cell} {selector : Selector Method} :
    (full before).1.Manufactures cell selector ↔
      cell = ⟨before.nextCell + 2⟩ ∧ selector = .unique Matcher.any := by
  unfold Manufactures
  rw [full_strategies]
  simp [beforeFactoryMethod, afterFactoryMethod, Strategy.defaultCollections]

/-- The selectors of the full chain do not look at sites, and have cells of their own. -/
theorem full_impartial (before : Store) : (full before).1.Impartial where
  constructors :=
    { impartial := by
        intro cell selector constructs
        rcases full_constructs_iff.mp constructs with ⟨-, rfl⟩ | ⟨-, rfl⟩
        · exact Selector.impartial_unique fun _ _ _ => rfl
        · exact Selector.impartial_unique fun _ _ _ => rfl
      one := by
        intro cell selector other first second
        rcases full_constructs_iff.mp first with ⟨rfl, rfl⟩ | ⟨rfl, rfl⟩ <;>
          rcases full_constructs_iff.mp second with ⟨cells, rfl⟩ | ⟨cells, rfl⟩
        · rfl
        · injection cells with numbers
          omega
        · injection cells with numbers
          omega
        · rfl }
  methods :=
    { impartial := by
        intro cell selector manufactures
        rw [(full_manufactures_iff.mp manufactures).2]
        exact Selector.impartial_unique fun _ _ _ => rfl
      one := by
        intro cell selector other first second
        rw [(full_manufactures_iff.mp first).2, (full_manufactures_iff.mp second).2] }

/-- In its own cells, a chain that was just made has nothing to be wrong about. -/
theorem full_recalls {before : Store} (tidy : before.Tidy) :
    (full before).1.Recalls graph (full before).2 where
  constructors := by
    constructor
    intro cell selector c choice constructs _ found
    have unused : before.nextCell ≤ cell.number := by
      rcases full_constructs_iff.mp constructs with ⟨rfl, -⟩ | ⟨rfl, -⟩
      · exact Nat.le_succ _
      · exact Nat.le_refl _
    cases (tidy.constructors unused).symm.trans found
  methods := by
    constructor
    intro cell selector c choice manufactures _ found
    have unused : before.nextCell ≤ cell.number := by
      rw [(full_manufactures_iff.mp manufactures).1]
      exact Nat.le_add_right _ 2
    cases (tidy.methods unused).symm.trans found

end Chain

/-! ## Two full chains -/

namespace Frame

variable {frame : Frame graph old} {chain counterpart : Chain}

/-- Strategies that keep nothing have no use for the memory of the chains. -/
theorem couples_memoryless {strategy : Strategy}
    (separable : strategy.Separable (fun _ => False) known) (pure : graph.Pure old) :
    (frame.recalling chain counterpart).Couples known strategy (strategy.renamed frame.change) :=
  Strategy.Separable.couples separable pure

theorem couples_self {strategy : Strategy} (separable : strategy.Separable (fun _ => False) 0)
    (pure : graph.Pure old) :
    (frame.recalling chain counterpart).Couples known strategy strategy := by
  have couples : (frame.recalling chain counterpart).Couples known strategy _ :=
    couples_memoryless (separable.mono (fun _ no => no) (Nat.zero_le known)) pure
  rwa [separable.renamed_eq] at couples

theorem couples_constant {expected : TypeExpr} {identity other : Nat} {content : Content}
    (pure : graph.Pure old) (made : identity < known) (taken : frame.change identity = other)
    (below : Below 0 content) :
    (frame.recalling chain counterpart).Couples known
      (.constant expected (.object identity content)) (.constant expected (.object other content)) := by
  have couples : (frame.recalling chain counterpart).Couples known
      (.constant expected (.object identity content)) _ :=
    couples_memoryless (Strategy.separable_constant made below) pure
  rwa [Strategy.renamed_constant _ _ _ below, taken] at couples

variable {before elsewhere : Store}

/-- What comes before the factory method is constants and suppliers of equal objects. -/
theorem couples_beforeFactoryMethod (pure : graph.Pure old) (made : before.nextIdentity + 3 ≤ known)
    (taken : ∀ ahead < 3,
      frame.change (before.nextIdentity + ahead) = elsewhere.nextIdentity + ahead) :
    List.Forall₂ ((frame.recalling chain counterpart).Couples known)
      (Chain.beforeFactoryMethod before) (Chain.beforeFactoryMethod elsewhere) := by
  have constant : ∀ ahead < 3, ∀ expected content, Below 0 content →
      (frame.recalling chain counterpart).Couples known
        (.constant expected (.object (before.nextIdentity + ahead) content))
        (.constant expected (.object (elsewhere.nextIdentity + ahead) content)) :=
    fun ahead inside expected content below =>
      couples_constant pure (by omega) (taken ahead inside) below
  unfold Chain.beforeFactoryMethod
  refine .cons ?_ (.cons ?_ (.cons ?_ (.cons ?_ (.cons ?_ (.cons ?_ (.cons ?_ (.cons ?_
    (.cons ?_ (.cons ?_ .nil)))))))))
  · exact couples_renewing rfl
  · exact couples_renewing rfl
  · exact couples_renewing rfl
  · exact couples_renewing rfl
  · exact couples_renewing rfl
  · exact couples_renewing rfl
  · exact constant 2 (by decide) _ _ rfl
  · exact constant 1 (by decide) _ _ rfl
  · exact constant 0 (by decide) _ _ rfl
  · exact couples_self trivial pure

/-- Two full chains go together once the constants of the one are taken to those of the other. -/
theorem couples_full (consistent : graph.Consistent) (pure : graph.Pure old)
    (made : before.nextIdentity + 3 ≤ known)
    (taken : ∀ ahead < 3,
      frame.change (before.nextIdentity + ahead) = elsewhere.nextIdentity + ahead) :
    List.Forall₂ ((frame.recalling (Chain.full before).1 (Chain.full elsewhere).1).Couples known)
      (Chain.full before).1.strategies (Chain.full elsewhere).1.strategies := by
  have here := Chain.full_impartial before
  have there := Chain.full_impartial elsewhere
  have back : List.Forall₂
      ((frame.recalling (Chain.full before).1 (Chain.full elsewhere).1).Couples known)
      (Chain.afterFactoryMethod before) (Chain.afterFactoryMethod elsewhere) := by
    rw [Chain.afterFactoryMethod_eq, Chain.afterFactoryMethod_eq]
    refine .cons ?_ (.cons ?_ (List.forall₂_same.mpr fun strategy member => ?_))
    · exact couples_constructor consistent pure here there
        (Chain.full_constructs_iff.mpr (.inl ⟨rfl, rfl⟩)) (Chain.full_constructs_iff.mpr (.inl ⟨rfl, rfl⟩))
    · exact couples_constructor consistent pure here there
        (Chain.full_constructs_iff.mpr (.inr ⟨rfl, rfl⟩)) (Chain.full_constructs_iff.mpr (.inr ⟨rfl, rfl⟩))
    · exact couples_self (Chain.separable_afterConstructors _ strategy member) pure
  rw [Chain.full_strategies, Chain.full_strategies]
  refine List.rel_append (couples_beforeFactoryMethod pure made taken) (.cons ?_ back)
  exact couples_factoryMethod consistent pure here there
    (Chain.full_manufactures_iff.mpr ⟨rfl, rfl⟩) (Chain.full_manufactures_iff.mpr ⟨rfl, rfl⟩)

end Frame

/-! ## Presets in use -/

theorem Store.Tidy.of_beside {before after : Store} (tidy : before.Tidy)
    (beside : Store.Beside (fun cell => before.nextCell ≤ cell.number) before after) :
    after.Tidy where
  constructors {cell name} unused := by
    have fresh : before.nextCell ≤ cell.number := beside.nextCell ▸ unused
    exact (beside.agree.constructors (cell, name) fresh).trans (tidy.constructors fresh)
  methods {cell name} unused := by
    have fresh : before.nextCell ≤ cell.number := beside.nextCell ▸ unused
    exact (beside.agree.methods (cell, name) fresh).trans (tidy.methods fresh)

/--
What is made is the full chain behind these strategies, which keep nothing, and nothing
else is made.
-/
structure Chain.Fronts (make : Step Chain) (front : List Strategy) : Prop where
  memoryless : ∀ strategy ∈ front, strategy.Separable (fun _ => False) 0
  made (store : Store) :
    make store = (⟨front ++ (full store).1.strategies⟩, (full store).2)

namespace Chain

theorem fronts_full : Fronts full [] where
  memoryless _ member := nomatch member
  made _ := rfl

theorem fronts_minimal : Fronts minimal minimalStrategies.reverse where
  memoryless strategy member :=
    separable_minimalStrategies _ strategy (List.mem_reverse.mp member)
  made store := by
    have strategies := minimal_strategies store
    rw [List.append_cons] at strategies
    exact Prod.ext (congrArg Chain.mk strategies) rfl

/-- What a store comes to when a chain is asked for some stubs, one after the other. -/
def afterAll (chain : Chain) : List Demand → Store → Store
  | [], store => store
  | demand :: rest, store => chain.afterAll rest (Run.left (demand.serve chain store))

/-- The state of a preset made in one store, in another store that comes after it. -/
structure InUse (graph : ClassGraph) (before store : Store) : Prop where
  recalls : (full before).1.Recalls graph store
  identities : before.nextIdentity + 3 ≤ store.nextIdentity
  cells : before.nextCell + 9 ≤ store.nextCell
  tidy : store.Tidy

theorem InUse.new {before : Store} (tidy : before.Tidy) : InUse graph before (full before).2 where
  recalls := full_recalls tidy
  identities := Nat.le_refl _
  cells := Nat.le_refl _
  tidy := ⟨fun unused => tidy.constructors (Nat.le_trans (Nat.le_add_right _ 9) unused),
    fun unused => tidy.methods (Nat.le_trans (Nat.le_add_right _ 9) unused)⟩

end Chain

namespace Chain.Fronts

variable {make : Step Chain} {front : List Strategy} (fronts : Fronts make front)
  {before elsewhere store : Store}
include fronts

/-- Two chains made in the same way go together. -/
theorem couples {frame : Frame graph old} (consistent : graph.Consistent) (pure : graph.Pure old)
    (made : before.nextIdentity + 3 ≤ known)
    (taken : ∀ ahead < 3,
      frame.change (before.nextIdentity + ahead) = elsewhere.nextIdentity + ahead) :
    (frame.recalling (full before).1 (full elsewhere).1).CouplesChains known
      (make before).1 (make elsewhere).1 := by
  unfold Frame.CouplesChains
  rw [fronts.made, fronts.made]
  refine List.rel_append (List.forall₂_same.mpr fun strategy member => ?_)
    (Frame.couples_full consistent pure made taken)
  exact Frame.couples_self (fronts.memoryless strategy member) pure

/-- The chain has nine cells. -/
theorem ownedBy : (make before).1.OwnedBy (cellsFrom before.nextCell 9) := by
  rw [fronts.made]
  intro strategy member
  rcases List.mem_append.mp member with first | later
  · exact (fronts.memoryless strategy first).ownedBy.mono nofun
  · exact (separable_full before.nextCell before.nextIdentity).ownedBy strategy later

/-- One more demand leaves the preset as it was, as far as answers are concerned. -/
theorem inUse_serve (consistent : graph.Consistent) (pure : graph.Pure before.nextIdentity)
    (inUse : InUse graph before store) {demand : Demand}
    (within : demand.wanted.type.Within graph.contains) :
    InUse graph before (Run.left (demand.serve (make before).1 store)) := by
  let same := Frame.same graph before.nextIdentity fun _ => False
  have reached : before.nextIdentity ≤ store.nextIdentity :=
    Nat.le_trans (Nat.le_add_right _ 3) inUse.identities
  have mirrors : (same.recalling (full before).1 (full before).1).Mirrors store store :=
    Frame.mirrors_recalling (fun _ => rfl) reached inUse.recalls inUse.recalls
  have couples : (same.recalling (full before).1 (full before).1).CouplesChains store.nextIdentity
      (make before).1 (make before).1 :=
    fronts.couples consistent pure inUse.identities fun _ _ => rfl
  have served := Demand.mirrored_serve couples reached within store store mirrors (Nat.le_refl _)
  rcases served.parts with ⟨grows, left, -, -⟩
  have moves : Store.Moves (cellsFrom before.nextCell 9) store _ :=
    demand.moves_serve fronts.ownedBy store
  have apart : ∀ cell : Cell, store.nextCell ≤ cell.number →
      ¬ cellsFrom before.nextCell 9 cell := by
    intro cell unused own
    exact absurd own.2 (Nat.not_lt_of_ge (Nat.le_trans inUse.cells unused))
  have beside := Store.Beside.of_moves apart moves
  exact ⟨left.known.1, Nat.le_trans inUse.identities grows, beside.nextCell ▸ inUse.cells,
    inUse.tidy.of_beside beside⟩

/-- By induction on the demands. -/
theorem inUse_afterAll (consistent : graph.Consistent) (pure : graph.Pure before.nextIdentity)
    {history : List Demand}
    (within : ∀ demand ∈ history, demand.wanted.type.Within graph.contains)
    (inUse : InUse graph before store) :
    InUse graph before ((make before).1.afterAll history store) := by
  induction history generalizing store with
  | nil => exact inUse
  | cons demand rest ih =>
      have served := fronts.inUse_serve consistent pure inUse (within demand List.mem_cons_self)
      exact ih (fun other member => within other (List.mem_cons_of_mem demand member)) served

end Chain.Fronts

/-! ## Used and new presets -/

/--
Takes the constants of a preset, made with the identities from `start` on, to those of one
that is made `now`, and all that is made from now on behind these.
-/
def renewal (start now identity : Nat) : Nat :=
  if identity < start then identity
  else if identity < start + 3 then now + (identity - start)
  else if identity < now then identity
  else identity + 3

section

variable {start now : Nat}

theorem renewal_injective (passed : start + 3 ≤ now) : Function.Injective (renewal start now) := by
  intro first second same
  unfold renewal at same
  split_ifs at same <;> omega

theorem renewal_old {identity : Nat} (before : identity < start) :
    renewal start now identity = identity :=
  if_pos before

theorem renewal_constant {ahead : Nat} (inside : ahead < 3) :
    renewal start now (start + ahead) = now + ahead := by
  unfold renewal
  split_ifs <;> omega

theorem renewal_new (passed : start + 3 ≤ now) (ahead : Nat) :
    renewal start now (now + ahead) = now + 3 + ahead := by
  unfold renewal
  split_ifs <;> omega

end

/-- A preset in use answers like one that is made now. -/
theorem Chain.Fronts.answer_renewed {make : Step Chain} {front : List Strategy}
    (fronts : Fronts make front) (consistent : graph.Consistent) {before store : Store}
    (pure : graph.Pure before.nextIdentity) (inUse : InUse graph before store) {demand : Demand}
    (within : demand.wanted.type.Within graph.contains) :
    Run.answer (demand.serve (make store).1 (make store).2) =
      rename (renewal before.nextIdentity store.nextIdentity)
        (Run.answer (demand.serve (make before).1 store)) := by
  let frame : Frame graph before.nextIdentity :=
    { cells := fun _ => False
      change := renewal before.nextIdentity store.nextIdentity
      injective := renewal_injective inUse.identities
      fixed := fun _ => renewal_old }
  have reached : before.nextIdentity ≤ store.nextIdentity :=
    Nat.le_trans (Nat.le_add_right _ 3) inUse.identities
  have couples : (frame.recalling (full before).1 (full store).1).CouplesChains
      store.nextIdentity (make before).1 (make store).1 :=
    fronts.couples consistent pure inUse.identities fun _ => renewal_constant
  have mirrors : (frame.recalling (full before).1 (full store).1).Mirrors store
      (make store).2 := by
    rw [fronts.made]
    exact Frame.mirrors_recalling (renewal_new inUse.identities) reached inUse.recalls
      (full_recalls inUse.tidy)
  have served := Demand.mirrored_serve couples reached within store (make store).2 mirrors
    (Nat.le_refl _)
  rcases served.parts with ⟨-, -, -, same⟩
  exact same

/--
A preset is made, and some stubs are asked for at it, one after the other, whether they
can be had or not.  What it answers to one more demand is, up to the identity of new
objects, what a preset answers that was just made in the same way.
-/
theorem preset_forgets {make : Step Chain} (preset : make = Chain.full ∨ make = Chain.minimal)
    (consistent : graph.Consistent) {before : Store} (tidy : before.Tidy)
    (pure : graph.Pure before.nextIdentity) {history : List Demand}
    (within : ∀ demand ∈ history, demand.wanted.type.Within graph.contains) {demand : Demand}
    (wanted : demand.wanted.type.Within graph.contains) :
    let used := (make before).1
    let later := used.afterAll history (make before).2
    let fresh := (make later).1
    ∃ change : Nat → Nat, Function.Injective change ∧
      (∀ identity < before.nextIdentity, change identity = identity) ∧
      Run.answer (demand.serve fresh (make later).2) =
        rename change (Run.answer (demand.serve used later)) := by
  intro used later fresh
  have fronted : ∃ front, Chain.Fronts make front := by
    rcases preset with rfl | rfl
    · exact ⟨_, Chain.fronts_full⟩
    · exact ⟨_, Chain.fronts_minimal⟩
  rcases fronted with ⟨front, fronts⟩
  have started : Chain.InUse graph before (make before).2 := by
    rw [fronts.made]
    exact .new tidy
  have inUse : Chain.InUse graph before later :=
    fronts.inUse_afterAll consistent pure within started
  exact ⟨renewal before.nextIdentity later.nextIdentity, renewal_injective inUse.identities,
    fun _ => renewal_old, fronts.answer_renewed consistent pure inUse wanted⟩

/-! ### Badges from a used chain -/

theorem ClassGraph.badges_consistent : badges.Consistent := by
  rintro c d (rfl | rfl) (rfl | rfl) names - -
  · rfl
  · exact absurd names (by decide)
  · exact absurd names (by decide)
  · rfl

/--
The minimal chain has issued a badge and settled on how that is done, and then it was
given no depth to issue another.  The next badge is still that of a new chain.
-/
theorem next_badge_as_from_new_chain :
    let badge (depth : Nat) : Demand := .stub ⟨.plain Class.badge, .unknown⟩ depth
    let used := (Chain.minimal {}).1
    let later := used.afterAll [badge 3, badge 1] (Chain.minimal {}).2
    let fresh := (Chain.minimal later).1
    ClassGraph.badges.Consistent ∧ ClassGraph.badges.Pure 0 ∧ Store.Tidy {} ∧
      (later.constructors.find? (⟨1⟩, "Badge")).isSome = true ∧
      ∃ change : Nat → Nat, Function.Injective change ∧
        Run.answer ((badge 3).serve fresh (Chain.minimal later).2) =
          rename change (Run.answer ((badge 3).serve used later)) := by
  intro badge used later fresh
  have pure : ClassGraph.badges.Pure 0 := ClassGraph.badges_pure 0
  have tidy : Store.Tidy {} := ⟨fun _ => rfl, fun _ => rfl⟩
  have within : ∀ depth, (badge depth).wanted.type.Within ClassGraph.badges.contains :=
    fun _ => .plain (.member (Or.inl rfl))
  have allWithin : ∀ demand ∈ [badge 3, badge 1],
      demand.wanted.type.Within ClassGraph.badges.contains :=
    List.forall_mem_cons.mpr ⟨within 3, List.forall_mem_cons.mpr ⟨within 1, nofun⟩⟩
  rcases preset_forgets (.inr rfl) ClassGraph.badges_consistent tidy pure allWithin (within 3)
    with ⟨change, injective, -, same⟩
  exact ⟨ClassGraph.badges_consistent, pure, tidy, by decide +kernel, change, injective, same⟩

end TestData
