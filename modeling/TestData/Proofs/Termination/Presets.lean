import TestData.Proofs.Termination.Settling
import TestData.Settings.Basic

namespace TestData

/-!
# Ready-made chains

The strategies of the ready-made chains are tame, and those that settle on members are
given cells of their own.  A step that makes such a chain hands out cells that were not
in use, and settles on nothing.
-/

/-- The step gives a result of this kind, and no cell that is not fresh from here on. -/
def Step.Prepares {α : Type} (fresh : Nat) (step : Step α) (holds : α → Prop) : Prop :=
  ∀ store, fresh ≤ store.nextCell →
    holds (step store).1 ∧ fresh ≤ (step store).2.nextCell ∧
      (step store).2.constructors = store.constructors ∧ (step store).2.methods = store.methods

namespace Step

variable {α β : Type} {fresh : Nat}

theorem prepares_pure {result : α} {holds : α → Prop} (given : holds result) :
    Prepares fresh (pure result) holds :=
  fun _ unused => ⟨given, unused, rfl, rfl⟩

theorem prepares_bind {step : Step α} {next : α → Step β} {holds : α → Prop} {after : β → Prop}
    (first : Prepares fresh step holds)
    (second : ∀ result, holds result → Prepares fresh (next result) after) :
    Prepares fresh (step >>= next) after := by
  intro store unused
  rcases first store unused with ⟨given, between, constructors, methods⟩
  rcases second _ given _ between with ⟨final, left, sameConstructors, sameMethods⟩
  exact ⟨final, left, sameConstructors.trans constructors, sameMethods.trans methods⟩

theorem prepares_newCell : Prepares fresh Store.newCell fun cell => fresh ≤ cell.number :=
  fun _ unused => ⟨unused, Nat.le_succ_of_le unused, rfl, rfl⟩

theorem prepares_create (content : Content) :
    Prepares fresh (Store.create content) fun _ => True :=
  fun _ unused => ⟨trivial, unused, rfl, rfl⟩

end Step

open Step

/-- All strategies of the list are tame. -/
def Strategy.AllTame (fresh : Nat) (strategies : List Strategy) : Prop :=
  ∀ strategy ∈ strategies, strategy.Tame fresh

namespace Strategy

variable {fresh : Nat}

theorem allTame_nil : AllTame fresh [] :=
  fun _ member => nomatch member

theorem allTame_cons {strategy : Strategy} {rest : List Strategy} (first : strategy.Tame fresh)
    (later : AllTame fresh rest) : AllTame fresh (strategy :: rest) :=
  List.forall_mem_cons.mpr ⟨first, later⟩

theorem allTame_append {front back : List Strategy} (first : AllTame fresh front)
    (later : AllTame fresh back) : AllTame fresh (front ++ back) :=
  List.forall_mem_append.mpr ⟨first, later⟩

theorem prepares_constructingBy (matcher : Matcher Constructor) :
    Prepares fresh (constructingBy matcher) (Tame fresh) :=
  prepares_bind prepares_newCell fun _ own => prepares_pure ⟨own, Selector.Standard.picks trivial⟩

theorem prepares_manufacturingBy (matcher : Matcher Method) :
    Prepares fresh (manufacturingBy matcher) (Tame fresh) :=
  prepares_bind prepares_newCell fun _ own => prepares_pure ⟨own, Selector.Standard.picks trivial⟩

theorem prepares_renewing (type : TypeExpr) (content : Content) :
    Prepares fresh (renewing type content) (Tame fresh) :=
  prepares_bind prepares_newCell fun _ _ => prepares_pure fun _ _ _ => trivial

theorem prepares_constantOf (type : TypeExpr) (content : Content) :
    Prepares fresh (constantOf type content) (Tame fresh) :=
  prepares_bind (prepares_create content) fun _ _ => prepares_pure trivial

theorem prepares_commonConstants : Prepares fresh commonConstants (AllTame fresh) := by
  refine prepares_bind (prepares_constantOf _ _) fun _ first => ?_
  refine prepares_bind (prepares_constantOf _ _) fun _ second => ?_
  refine prepares_bind (prepares_constantOf _ _) fun _ third => ?_
  exact prepares_pure (allTame_cons first (allTame_cons second (allTame_cons third allTame_nil)))

theorem prepares_commonSupplied : Prepares fresh commonSupplied (AllTame fresh) := by
  refine prepares_bind (prepares_renewing _ _) fun _ flag => ?_
  refine prepares_bind (prepares_renewing _ _) fun _ small => ?_
  refine prepares_bind (prepares_renewing _ _) fun _ large => ?_
  refine prepares_bind (prepares_renewing _ _) fun _ size => ?_
  refine prepares_bind (prepares_renewing _ _) fun _ point => ?_
  refine prepares_bind (prepares_renewing _ _) fun _ span => ?_
  refine prepares_pure (allTame_cons flag (allTame_cons small (allTame_cons large ?_)))
  exact allTame_cons size (allTame_cons point (allTame_cons span allTame_nil))

theorem allTame_defaultCollections (size : Nat) : AllTame fresh (defaultCollections size) := by
  unfold defaultCollections AllTame
  simp [Tame]

end Strategy

/-- Only tame strategies were added, and no chain was included. -/
structure ChainBuilder.OnlyTame (fresh : Nat) (builder : ChainBuilder) : Prop where
  added : Strategy.AllTame fresh builder.added
  included : builder.included = []

theorem ChainBuilder.OnlyTame.stubWith {fresh : Nat} {builder : ChainBuilder}
    (only : builder.OnlyTame fresh) {strategy : Strategy} (tame : strategy.Tame fresh) :
    (builder.stubWith strategy).OnlyTame fresh :=
  ⟨Strategy.allTame_append only.added (Strategy.allTame_cons tame Strategy.allTame_nil),
    only.included⟩

theorem ChainBuilder.OnlyTame.stubWithAll {fresh : Nat} {builder : ChainBuilder}
    (only : builder.OnlyTame fresh) {strategies : List Strategy}
    (tame : Strategy.AllTame fresh strategies) : (builder.stubWithAll strategies).OnlyTame fresh := by
  rw [stubWithAll_eq]
  exact ⟨Strategy.allTame_append only.added tame, only.included⟩

namespace Chain

variable {fresh : Nat}

/-- All strategies of the chain are tame. -/
def AllTame (fresh : Nat) (chain : Chain) : Prop :=
  Strategy.AllTame fresh chain.strategies

theorem allTame_assemble {added : List Strategy} {included : List Chain} {baseline : Chain}
    (tameAdded : Strategy.AllTame fresh added) (tameIncluded : ∀ chain ∈ included, chain.AllTame fresh)
    (tameBaseline : baseline.AllTame fresh) :
    (assemble added included baseline).AllTame fresh := by
  refine Strategy.allTame_append (Strategy.allTame_append ?_ ?_) tameBaseline
  · exact fun strategy member => tameAdded strategy (List.mem_reverse.mp member)
  · intro strategy member
    rcases List.mem_flatMap.mp member with ⟨chain, among, inside⟩
    exact tameIncluded chain (List.mem_reverse.mp among) strategy inside

theorem prepares_full : Prepares fresh full (AllTame fresh) := by
  have strategies : Prepares fresh fullStrategies (Strategy.AllTame fresh) := by
    refine prepares_bind (Strategy.prepares_constructingBy _) fun _ byDefault => ?_
    refine prepares_bind (Strategy.prepares_constructingBy _) fun _ byOther => ?_
    refine prepares_bind (Strategy.prepares_manufacturingBy _) fun _ byMethod => ?_
    refine prepares_bind Strategy.prepares_commonConstants fun _ constants => ?_
    refine prepares_bind Strategy.prepares_commonSupplied fun _ supplied => ?_
    refine prepares_pure (Strategy.allTame_append (Strategy.allTame_append ?_ constants) supplied)
    refine Strategy.allTame_append (Strategy.allTame_append ?_ ?_) ?_
    · simp [Strategy.AllTame, Strategy.Tame]
    · exact Strategy.allTame_defaultCollections 1
    · refine Strategy.allTame_cons byDefault (Strategy.allTame_cons byOther ?_)
      exact Strategy.allTame_cons byMethod (Strategy.allTame_cons trivial Strategy.allTame_nil)
  exact prepares_bind strategies fun _ tame =>
    prepares_pure (allTame_assemble tame (fun _ member => nomatch member) Strategy.allTame_nil)

theorem prepares_minimal : Prepares fresh minimal (AllTame fresh) := by
  refine prepares_bind prepares_full fun chain tame => prepares_pure ?_
  refine allTame_assemble ?_ (fun _ member => List.mem_singleton.mp member ▸ tame)
    Strategy.allTame_nil
  refine Strategy.allTame_append (Strategy.allTame_append ?_ ?_) ?_
  · exact Strategy.allTame_cons trivial Strategy.allTame_nil
  · exact Strategy.allTame_defaultCollections 0
  · exact Strategy.allTame_cons trivial Strategy.allTame_nil

theorem prepares_baseline (baseline : Baseline) :
    Prepares fresh baseline.chain (AllTame fresh) := by
  cases baseline with
  | full => exact prepares_full
  | minimal => exact prepares_minimal
  | empty => exact prepares_pure Strategy.allTame_nil

theorem prepares_build {builder : ChainBuilder} (added : Strategy.AllTame fresh builder.added)
    (included : ∀ chain ∈ builder.included, chain.AllTame fresh) :
    Prepares fresh builder.build (AllTame fresh) :=
  prepares_bind (prepares_baseline builder.baseline) fun _ tame =>
    prepares_pure (allTame_assemble added included tame)

theorem prepares_builder (settings : Settings) :
    Prepares fresh settings.builder (ChainBuilder.OnlyTame fresh) := by
  unfold Settings.builder
  extract_lets plain sized ready
  have start : plain.OnlyTame fresh := ⟨Strategy.allTame_nil, rfl⟩
  have sizedTame : sized.OnlyTame fresh := by
    unfold sized
    split
    · next size _ =>
        have array : (Strategy.array (.fixed size.toNat)).Tame fresh := trivial
        have collections : Strategy.AllTame fresh (Strategy.defaultCollections size.toNat) :=
          Strategy.allTame_defaultCollections size.toNat
        exact start.stubWithAll (Strategy.allTame_cons array collections)
    · exact start
  have readyTame : ready.OnlyTame fresh := by
    unfold ready
    split
    · exact sizedTame.stubWith trivial
    · exact sizedTame
  split
  · next seed _ =>
      have seeded : Prepares fresh (Selector.seeded seed : Step (Selector Value)) fun _ => True :=
        prepares_bind prepares_newCell fun _ _ => prepares_pure trivial
      exact prepares_bind seeded fun selector _ => prepares_pure (readyTame.stubWith trivial)
  · exact prepares_pure readyTame

theorem prepares_configured (settings : Settings) :
    Prepares fresh settings.chain (AllTame fresh) := by
  refine prepares_bind (prepares_builder settings) fun builder tame => prepares_build tame.added ?_
  rw [tame.included]
  exact fun _ member => nomatch member

/-- The steps that make a ready-made chain. -/
inductive ReadyMade : Step Chain → Prop where
  | full : ReadyMade full
  | minimal : ReadyMade minimal
  | configured (settings : Settings) : ReadyMade settings.chain

theorem ReadyMade.prepares {make : Step Chain} (readyMade : ReadyMade make) :
    Prepares fresh make (AllTame fresh) := by
  cases readyMade with
  | full => exact prepares_full
  | minimal => exact prepares_minimal
  | configured settings => exact prepares_configured settings

end Chain
end TestData
