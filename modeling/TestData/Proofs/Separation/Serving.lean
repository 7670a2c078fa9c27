import Mathlib.Data.List.Forall2
import TestData.Proofs.Separation.Choices

namespace TestData

/-!
# Serving requests in mirrored stores

What a separable strategy makes is the same in two mirrored stores, up to renaming, as
long as its hosts serve the requests in between so.  Of a whole chain this follows by
induction on the depth.  The types that are asked for on the way are parts of the
requested type or declared types of members with variables replaced, and so they stay
within the graph, whose members are known to be pure.
-/

open Renamable

variable {graph : ClassGraph} {old known : Nat} {frame : Frame graph old} {type : TypeExpr}

/-! ## The types that are asked for -/

namespace TypeExpr.Within

theorem arguments {c : Class} {arity : Nat} {raw : Class} {arguments : List TypeExpr}
    (within : type.Within graph.contains)
    (shape : type.shape? c arity = some (.applied raw arguments)) :
    ∀ argument ∈ arguments, argument.Within graph.contains := by
  unfold TypeExpr.shape? at shape
  split at shape
  · split at shape <;> cases shape
  · next unwraps =>
      split at shape
      · cases shape
        exact fun argument member => (within.unwrap unwraps).part member
      · cases shape
  · cases shape

theorem component {component : TypeExpr} (within : type.Within graph.contains)
    (array : type.component? = some component) : component.Within graph.contains := by
  unfold TypeExpr.component? at array
  split at array
  · next unwraps =>
      rcases Option.map_eq_some_iff.mp array with ⟨element, found, rfl⟩
      exact (within.unwrap unwraps).part (List.mem_map_of_mem (Option.mem_toList.mpr found))
  · next unwraps =>
      split at array
      · cases array
        exact (within.unwrap unwraps).part List.mem_cons_self
      · cases array
  · cases array

end TypeExpr.Within

/-- Default values hold no objects. -/
theorem below_of_defaultContent? {content : Content} {bound : Nat}
    (isDefault : type.defaultContent? = some content) : Below bound content := by
  unfold TypeExpr.defaultContent? at isDefault
  split at isDefault
  · split at isDefault
    · split at isDefault
      · cases isDefault
        rfl
      · cases isDefault
        rfl
      · rcases Option.map_eq_some_iff.mp isDefault with ⟨kind, -, rfl⟩
        rfl
    · cases isDefault
  · cases isDefault

/-! ## Requests at two hosts -/

/-- The two hosts serve requests within the graph alike, in mirrored stores. -/
structure Frame.Serves (frame : Frame graph old) (known : Nat) (host mirror : Host) : Prop where
  reached : old ≤ known
  length : mirror.length = host.length
  depth : mirror.depth = host.depth
  resolve {wanted : Request} (within : wanted.type.Within graph.contains) :
    Run.Mirrored frame known (host.resolve wanted) (mirror.resolve wanted)

namespace Frame.Serves

open Run (Mirrored)

variable {host mirror : Host} (serves : frame.Serves known host mirror)
include serves

theorem request (within : type.Within graph.contains) (site : Site) :
    Mirrored frame known (host.request ⟨type, site⟩) (mirror.request ⟨type, site⟩) := by
  have answers : Mirrored frame known (host.resolve ⟨type, site⟩) (mirror.resolve ⟨type, site⟩) :=
    serves.resolve within
  refine .bind answers fun {_ answer} _ below => ?_
  cases answer with
  | none => exact .fail _
  | some value => exact .pure (Option.some.inj below)

theorem requestBoth {first second : TypeExpr} (left : first.Within graph.contains)
    (right : second.Within graph.contains) (there here : Site) :
    Mirrored frame known (host.requestBoth ⟨first, there⟩ ⟨second, here⟩)
      (mirror.requestBoth ⟨first, there⟩ ⟨second, here⟩) := by
  refine .bind (serves.request left there) fun le below => ?_
  refine .bind ((serves.request right here).mono le) fun grows beside => ?_
  exact .pure (Prod.ext (below.mono grows) beside)

/-- Arguments are requested one after the other, and the first ones are there while the
others are made. -/
theorem requestArguments {bindings : Bindings} {siteOf : Parameter → Except SiteError Site}
    {parameters : List Parameter}
    (within : ∀ parameter ∈ parameters, (bindings.resolve parameter.type).Within graph.contains)
    {more : Nat} (le : known ≤ more) :
    Mirrored frame more (host.requestArguments bindings siteOf parameters)
      (mirror.requestArguments bindings siteOf parameters) := by
  induction parameters generalizing more with
  | nil => exact .pure rfl
  | cons parameter rest ih =>
      unfold Host.requestArguments
      cases siteOf parameter with
      | error cause => exact .fail _
      | ok made =>
          have first := (serves.request (within parameter List.mem_cons_self) made).mono le
          have asks : ∀ other : Host, (do
              let site ← Run.ofSite (Except.ok made : Except SiteError Site)
              let value ← other.request ⟨bindings.resolve parameter.type, site⟩
              let values ← other.requestArguments bindings siteOf rest
              return value :: values) = (do
              let value ← other.request ⟨bindings.resolve parameter.type, made⟩
              let values ← other.requestArguments bindings siteOf rest
              return value :: values) := fun other => rfl
          rw [asks, asks]
          refine .bind first fun further below => ?_
          have others := ih (fun other member => within other (List.mem_cons_of_mem parameter member))
            (Nat.le_trans le further)
          refine .bind others fun grows values => .pure (below_list_iff.mpr ?_)
          exact List.forall_mem_cons.mpr ⟨below.mono grows, below_list_iff.mp values⟩

omit serves in
theorem giveUp {α : Type} [Renamable α] (site : Site) (type : TypeExpr) :
    Mirrored frame known (Strategy.giveUp site type : Run α) (Strategy.giveUp site type) :=
  .fail _

omit serves in
theorem argumentRequest_bind {α : Type} [Renamable α] {site : Site} {raw : Class}
    {arguments : List TypeExpr} {index : Nat} {next other : Request → Run α}
    (goesOn : ∀ wanted : Request, wanted.type ∈ arguments →
      Mirrored frame known (next wanted) (other wanted)) :
    Mirrored frame known (Strategy.argumentRequest site raw arguments index >>= next)
      (Strategy.argumentRequest site raw arguments index >>= other) := by
  unfold Strategy.argumentRequest Site.argumentAt
  split
  · next inRange => exact goesOn _ (List.getElem_mem inRange)
  · exact .fail _

/-! ## Making stubs -/

theorem produceOptional (within : type.Within graph.contains) (mode : OptionalMode) (site : Site) :
    Mirrored frame known (Strategy.produceOptional host mode site type)
      (Strategy.produceOptional mirror mode site type) := by
  unfold Strategy.produceOptional
  split
  · next raw arguments unwraps =>
      split
      · refine argumentRequest_bind fun wanted member => ?_
        have inside := (within.unwrap unwraps).part member
        cases mode with
        | empty => exact .create rfl
        | present =>
            refine .bind (serves.request inside wanted.site) fun {_ value} le below => ?_
            have option : Below _ (some value) := congrArg some below
            exact .build (pure_option _) (Nat.le_trans serves.reached le) option
        | presentIfPossible =>
            refine .bind (serves.resolve inside) fun le below => ?_
            exact .build (pure_option _) (Nat.le_trans serves.reached le) below
      · exact giveUp site type
  · split
    · exact .create rfl
    · exact giveUp site type
  · exact giveUp site type

theorem produceCollection (within : type.Within graph.contains) (c : Class)
    {build : List Value → Content} (pure : Renamable.Pure old build) (size : Nat) (site : Site) :
    Mirrored frame known (Strategy.produceCollection host c build size site type)
      (Strategy.produceCollection mirror c build size site type) := by
  unfold Strategy.produceCollection
  split
  · split
    · have empty : Below known ([] : List Value) := rfl
      exact .build pure serves.reached empty
    · exact giveUp site type
  · next raw arguments shape =>
      refine argumentRequest_bind fun wanted member => ?_
      have element := serves.request (within.arguments shape _ member) wanted.site
      refine .bind (.times (fun le => element.mono le) size) fun le below => ?_
      exact .build pure (Nat.le_trans serves.reached le) below
  · exact giveUp site type

theorem produceMap (within : type.Within graph.contains) (c : Class)
    {build : List (Value × Value) → Content} (pure : Renamable.Pure old build) (size : Nat)
    (site : Site) :
    Mirrored frame known (Strategy.produceMap host c build size site type)
      (Strategy.produceMap mirror c build size site type) := by
  unfold Strategy.produceMap
  split
  · split
    · have empty : Below known ([] : List (Value × Value)) := rfl
      exact .build pure serves.reached empty
    · exact giveUp site type
  · next raw arguments shape =>
      refine argumentRequest_bind fun key keyMember => ?_
      refine argumentRequest_bind fun value valueMember => ?_
      have pair := serves.requestBoth (within.arguments shape _ keyMember)
        (within.arguments shape _ valueMember) key.site value.site
      refine .bind (.times (fun le => pair.mono le) size) fun le below => ?_
      exact .build pure (Nat.le_trans serves.reached le) below
  · exact giveUp site type

theorem produceArray (within : type.Within graph.contains) (size : Nat) (site : Site) :
    Mirrored frame known (Strategy.produceArray host size site type)
      (Strategy.produceArray mirror size site type) := by
  unfold Strategy.produceArray
  split
  · next component array =>
      have element := serves.request (within.component array) (site.arrayElement component)
      refine .bind (.times (fun le => element.mono le) size) fun le below => ?_
      exact .build (pure_list _) (Nat.le_trans serves.reached le) below
  · exact giveUp site type

/-- If the same constructor is chosen in both stores, it makes the same. -/
theorem produceByConstructor (pure : graph.Pure old) (within : type.Within graph.contains)
    {cell other : Cell} {selector : Selector Constructor} {site : Site}
    (chooses : Step.Paired frame (Strategy.chosenConstructor cell selector site type)
      (Strategy.chosenConstructor other selector site type) fun choice same =>
        (∀ k, choice = some k → ∃ c, graph.contains c ∧ k ∈ c.usableConstructors) ∧ same = choice) :
    Mirrored frame known (Strategy.produceByConstructor host cell selector site type)
      (Strategy.produceByConstructor mirror other selector site type) := by
  refine .paired_bind chooses fun choice same both => ?_
  rcases both with ⟨usable, rfl⟩
  cases same with
  | none => exact giveUp site type
  | some k =>
      rcases usable k rfl with ⟨c, member, usable⟩
      have calls := pure.constructors member usable
      dsimp only
      rw [serves.depth]
      refine .bounded_bind fun bindings bound => ?_
      have resolved := Bindings.within_ofType within bound
      refine .bind (serves.requestArguments (fun parameter taken => ?_) (Nat.le_refl _))
        fun le below => ?_
      · exact resolved.resolve (ClassGraph.within_constructorParameter member
          (Class.of_mem_usableConstructors usable) (ParameterDeclaration.of_mem_ownedBy taken))
      · rw [calls frame.change frame.injective frame.fixed]
        exact .called (calls.below (Nat.le_trans serves.reached le) below) site type _

theorem produceByMethod (pure : graph.Pure old) (within : type.Within graph.contains)
    {cell other : Cell} {selector : Selector Method} {site : Site}
    (chooses : Step.Paired frame (Strategy.chosenMethod cell selector site type)
      (Strategy.chosenMethod other selector site type) fun choice same =>
        (∀ m, choice = some m → ∃ c, graph.contains c ∧ m ∈ c.factoryMethods) ∧ same = choice) :
    Mirrored frame known (Strategy.produceByMethod host cell selector site type)
      (Strategy.produceByMethod mirror other selector site type) := by
  refine .paired_bind chooses fun choice same both => ?_
  rcases both with ⟨usable, rfl⟩
  cases same with
  | none => exact giveUp site type
  | some m =>
      rcases usable m rfl with ⟨c, member, usable⟩
      have calls := pure.methods member usable
      have declared := (Class.of_mem_factoryMethods usable).1
      dsimp only
      rw [serves.depth]
      refine .bounded_bind fun bindings bound => ?_
      have fitted : bindings.Within graph := Bindings.within_ofMethod member declared within bound
      refine .bind (serves.requestArguments (fun parameter taken => ?_) (Nat.le_refl _))
        fun le below => ?_
      · exact fitted.resolve (ClassGraph.within_methodParameter member declared
          (ParameterDeclaration.of_mem_ownedBy taken))
      · rw [calls frame.change frame.injective frame.fixed]
        exact .called (calls.below (Nat.le_trans serves.reached le) below) site type _

/-- What a separable strategy makes in mirrored stores is the same up to renaming. -/
theorem produce {strategy : Strategy} (pure : graph.Pure old)
    (separable : strategy.Separable frame.cells known) (within : type.Within graph.contains)
    (site : Site) :
    Mirrored frame known (strategy.produce host site type)
      ((strategy.renamed frame.change).produce mirror site type) := by
  induction strategy with
  | defaultValue =>
      unfold Strategy.renamed Strategy.produce
      split
      · next content isDefault =>
          exact .create_old serves.reached (below_of_defaultContent? isDefault)
      · exact giveUp site type
  | constant expected value =>
      unfold Strategy.renamed Strategy.produce
      split
      · exact .pure separable
      · exact giveUp site type
  | supplied cell expected supplier =>
      unfold Strategy.renamed Strategy.produce
      split
      · refine .step_bind (Step.mirrored_nextNumber separable.1) fun number _ => ?_
        rcases separable.2 site number with ⟨content, gives, below⟩
        rw [gives]
        refine .bind (.create_old serves.reached (below.mono (Nat.zero_le old))) fun _ made => ?_
        exact .pure made
      · exact giveUp site type
  | nullValue =>
      unfold Strategy.renamed Strategy.produce
      split
      · exact .pure_old serves.reached rfl
      · exact giveUp site type
  | optional mode => exact serves.produceOptional within mode site
  | collection c build size =>
      exact serves.produceCollection within c (Renamable.Pure.mono separable (Nat.zero_le old)) _ site
  | map c build size =>
      exact serves.produceMap within c (Renamable.Pure.mono separable (Nat.zero_le old)) _ site
  | array size => exact serves.produceArray within _ site
  | constructor cell selector =>
      have chooses :=
        Step.mirrored_chosenConstructor separable.1 separable.2.1 separable.2.2 site within
      exact serves.produceByConstructor pure within chooses.paired
  | factoryMethod cell selector =>
      have chooses := Step.mirrored_chosenMethod separable.1 separable.2.1 separable.2.2 site within
      exact serves.produceByMethod pure within chooses.paired
  | enumValue selector =>
      have chooses := Step.mirrored_chosenConstant pure separable.1 separable.2 site within
      refine .step_bind chooses fun choice constant => ?_
      cases choice with
      | none => exact giveUp site type
      | some value => exact .pure_old serves.reached (constant value rfl)
  | chain =>
      unfold Strategy.renamed Strategy.produce
      split
      · rw [serves.length]
        exact .create rfl
      · exact giveUp site type
  | conditional inner condition ih => exact ih separable
  | implementation | memoizing | enhancing => exact separable.elim

end Frame.Serves

/-! ## Pairs of strategies -/

/-- In mirrored stores the strategies accept the same requests and make the same for them. -/
structure Frame.Couples (frame : Frame graph old) (known : Nat) (strategy counterpart : Strategy) :
    Prop where
  accepts {type : TypeExpr} (site : Site) (within : type.Within graph.contains) :
    Step.Paired frame (strategy.accepts site type) (counterpart.accepts site type)
      fun accepted same => same = accepted
  produce {host mirror : Host} {type : TypeExpr} (serves : frame.Serves known host mirror)
    (site : Site) (within : type.Within graph.contains) :
    Run.Mirrored frame known (strategy.produce host site type) (counterpart.produce mirror site type)

theorem Strategy.Separable.couples {strategy : Strategy}
    (separable : strategy.Separable frame.cells known) (pure : graph.Pure old) :
    frame.Couples known strategy (strategy.renamed frame.change) where
  accepts site within := by
    rw [accepts_renamed]
    exact (Step.mirrored_accepts pure separable site within).paired.mono fun _ _ both => both.2
  produce serves site within := serves.produce pure separable within site

/-! ## Pairs of chains -/

/-- The strategies of the one chain go together with those of the other, one by one. -/
def Frame.CouplesChains (frame : Frame graph old) (known : Nat) (chain counterpart : Chain) : Prop :=
  List.Forall₂ (frame.Couples known) chain.strategies counterpart.strategies

namespace Frame.CouplesChains

variable {chain counterpart : Chain}

theorem firstAccepting {strategies others : List Strategy}
    (couples : List.Forall₂ (frame.Couples known) strategies others) {wanted : Request}
    (within : wanted.type.Within graph.contains) :
    Step.Paired frame (Chain.firstAccepting strategies wanted) (Chain.firstAccepting others wanted)
      (Option.Rel (frame.Couples known)) := by
  induction couples with
  | nil => exact .pure .none
  | cons couple _ ih =>
      refine .bind (couple.accepts wanted.site within) fun accepted same equal => ?_
      subst equal
      cases same with
      | true => exact .pure (.some couple)
      | false => exact ih

theorem resolveFor (couples : frame.CouplesChains known chain counterpart) {host mirror : Host}
    (serves : frame.Serves known host mirror) {wanted : Request}
    (within : wanted.type.Within graph.contains) :
    Run.Mirrored frame known (chain.resolveFor host wanted) (counterpart.resolveFor mirror wanted) := by
  refine .step_bind (Step.mirrored_record _) fun _ _ => ?_
  refine .paired_bind (firstAccepting couples within) fun found other couple => ?_
  cases couple with
  | none => exact .pure_old serves.reached rfl
  | some couple =>
      have makes := couple.produce serves wanted.site within
      exact .bind makes fun le below => .pure (congrArg some below)

/-- By induction on the depth: the chains serve requests in mirrored stores alike. -/
theorem serves (couples : frame.CouplesChains known chain counterpart) (reached : old ≤ known)
    (depth : Nat) :
    frame.Serves known (chain.hostWithin depth) (counterpart.hostWithin depth) := by
  have length : counterpart.strategies.length = chain.strategies.length := couples.length_eq.symm
  induction depth with
  | zero =>
      refine ⟨reached, length, rfl, fun within store mirror mirrors made => ?_⟩
      exact .error mirrors (Nat.le_refl _)
  | succ depth ih => exact ⟨reached, length, rfl, fun within => couples.resolveFor ih within⟩

end Frame.CouplesChains

namespace Chain

/-- All strategies of the chain are separable. -/
def Separable (cells : Cell → Prop) (known : Nat) (chain : Chain) : Prop :=
  ∀ strategy ∈ chain.strategies, strategy.Separable cells known

/-- The chain with other identities in what its strategies hand out. -/
def renamed (change : Nat → Nat) (chain : Chain) : Chain :=
  ⟨chain.strategies.map (Strategy.renamed change)⟩

namespace Separable

variable {chain : Chain} {cells wider : Cell → Prop} {more : Nat}

theorem mono (separable : chain.Separable cells known) (within : ∀ cell, cells cell → wider cell)
    (le : known ≤ more) : chain.Separable wider more :=
  fun strategy member => (separable strategy member).mono within le

theorem ownedBy (separable : chain.Separable cells known) : chain.OwnedBy cells :=
  fun strategy member => (separable strategy member).ownedBy

theorem renamed_congr {change other : Nat → Nat} (separable : chain.Separable cells known)
    (agree : ∀ identity < known, change identity = other identity) :
    chain.renamed change = chain.renamed other :=
  congrArg Chain.mk (List.map_congr_left fun strategy member =>
    (separable strategy member).renamed_congr agree)

/-- A separable chain goes together with itself, apart from what it hands out. -/
theorem couples (separable : chain.Separable frame.cells known) (pure : graph.Pure old) :
    frame.CouplesChains known chain (chain.renamed frame.change) :=
  List.forall₂_map_right_iff.mpr
    (List.forall₂_same.mpr fun strategy member => (separable strategy member).couples pure)

end Separable
end Chain
end TestData
