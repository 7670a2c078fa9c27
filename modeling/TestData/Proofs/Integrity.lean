import TestData.Proofs.Operations
import TestData.Strategy.Supplier

namespace TestData

/-!
# Nothing fails inside

That a type argument is there is checked when a request is accepted, and for collections
and maps once more when the stub is made; that a parameter belongs to its executable is
checked when its site is made.  Whoever gets past these checks finds what it is looking
for.  So the error of an invalid site never comes out of a resolution, whatever is
requested and whatever is remembered, unless user code fails in this way itself.
-/

/-- The errors of sites that cannot be made and of types that cannot be worked on. -/
def StubError.isInternal : StubError → Bool
  | .invalidSite _ | .unsupported _ => true
  | .unresolvable .. | .produce .. | .config _ | .io | .serialization => false

/-- Whatever comes up, no error is an internal one. -/
def Scope.sound : Scope where
  cells _ := True
  sites _ := True
  fails cause := cause.isInternal = false
  resumes := True
  child _ _ := trivial
  refused _ _ := rfl
  failed _ _ _ := rfl

namespace Strategy

/-- The positions of the type arguments that the strategy asks for. -/
def argumentPositions : Strategy → List Nat
  | .optional _ | .collection .. => [0]
  | .map .. => [0, 1]
  | .memoizing _ inner _ | .conditional inner _ | .enhancing inner _ => inner.argumentPositions
  | _ => []

/-- A request for an argument that is there is made, at the site of the argument. -/
theorem argumentRequest_of_lt {raw : Class} {arguments : List TypeExpr} {index : Nat}
    (inRange : index < arguments.length) (site : Site) :
    argumentRequest site raw arguments index =
      pure ⟨arguments[index], .child (.typeArgument raw arguments index) site⟩ := by
  rw [argumentRequest, Site.argumentAt, dif_pos inRange]
  rfl

/-- With a type applied to arguments, only the right number of them is accepted. -/
theorem length_of_acceptsShape {type : TypeExpr} {c raw : Class} {arity size : Nat}
    {arguments : List TypeExpr} (unwrapped : type.unwrap = some (.parameterized raw arguments))
    (accepted : acceptsShape type c arity size = true) : arguments.length = arity := by
  unfold acceptsShape at accepted
  rcases shape : type.shape? c arity with _ | (_ | ⟨other, others⟩)
  · rw [shape] at accepted
    cases accepted
  · simp only [TypeExpr.shape?, unwrapped] at shape
    split at shape <;> cases shape
  · have same := unwrapped.symm.trans (Course.unwrap_of_shape_applied shape)
    cases same
    exact Course.length_of_shape_applied shape

/-- The arguments that a strategy asks for are there if it accepts the type. -/
theorem argument_lt_of_accepts {strategy : Strategy} {site : Site} {type : TypeExpr}
    {store after : Store} (accepts : strategy.accepts site type store = (true, after))
    {raw : Class} {arguments : List TypeExpr}
    (unwrapped : type.unwrap = some (.parameterized raw arguments)) {index : Nat}
    (asked : index ∈ strategy.argumentPositions) : index < arguments.length := by
  induction strategy generalizing after with
  | optional mode =>
      have accepted : acceptsOptional mode type = true := congrArg Prod.fst accepts
      simp only [acceptsOptional, unwrapped, Bool.and_eq_true, beq_iff_eq] at accepted
      cases List.mem_singleton.mp asked
      omega
  | collection c build size =>
      have accepted : acceptsShape type c 1 (size.at site) = true := congrArg Prod.fst accepts
      have counted := length_of_acceptsShape unwrapped accepted
      cases List.mem_singleton.mp asked
      omega
  | map c build size =>
      have accepted : acceptsShape type c 2 (size.at site) = true := congrArg Prod.fst accepts
      have counted := length_of_acceptsShape unwrapped accepted
      simp only [argumentPositions, List.mem_cons, List.not_mem_nil, or_false] at asked
      omega
  | memoizing cell inner discriminator ih => exact ih accepts asked
  | conditional inner condition ih =>
      rcases first : inner.accepts site type store with ⟨_ | _, between⟩
      · simp only [Strategy.accepts, bind, StateT.bind, first] at accepts
        cases accepts
      · exact ih first asked
  | enhancing inner enhancer ih => exact ih accepts asked
  | defaultValue | constant | supplied | nullValue | array | constructor | factoryMethod
  | enumValue | implementation | chain => cases asked

end Strategy

/-- A random pick is a candidate at a position that was drawn within the list. -/
theorem Selector.pickRandom_eq {α : Type} (cell : Cell) (generator : Generator)
    {candidates : List (Option α)} (some : candidates ≠ []) (store : Store) :
    ∃ inRange : (Store.draw cell generator candidates.length store).1 < candidates.length,
      pickRandom cell generator candidates store =
        (candidates[(Store.draw cell generator candidates.length store).1],
          (Store.draw cell generator candidates.length store).2) := by
  have inRange : (Store.draw cell generator candidates.length store).1 < candidates.length :=
    generator.draw_lt _ (List.length_pos_iff.mpr some)
  have present : candidates.isEmpty = false := List.isEmpty_eq_false_iff.mpr some
  refine ⟨inRange, ?_⟩
  unfold pickRandom
  rw [present]
  show ((candidates[(Store.draw cell generator candidates.length store).1]?).join, _) = _
  rw [List.getElem?_eq_getElem inRange]
  rfl

/--
Nothing fails inside a chain: whatever is requested within whatever depth and in whatever
store, the outcome is no internal error, and every position that is looked up is there.
-/
structure Chain.SoundInside (chain : Chain) : Prop where
  /-- The chain gives a stub, or nothing, or an error that is not internal. -/
  resolve {depth : Nat} {wanted : Request} {store after : Store} {cause : StubError} :
    chain.resolveWithin depth wanted store = .error (.error cause) after → cause.isInternal = false
  /-- The same holds if nothing counts as an error. -/
  request {depth : Nat} {wanted : Request} {store after : Store} {cause : StubError} :
    (chain.hostWithin depth).request wanted store = .error (.error cause) after →
      cause.isInternal = false
  /-- However many arguments a type has, they suffice for the strategy that accepts it. -/
  arguments {strategy : Strategy} (member : strategy ∈ chain.strategies) {site : Site}
    {type : TypeExpr} {store after : Store} {raw : Class} {arguments : List TypeExpr} :
    strategy.accepts site type store = (true, after) →
      type.unwrap = some (.parameterized raw arguments) →
      ∀ index ∈ strategy.argumentPositions, ∃ inRange : index < arguments.length,
        ∀ site : Site, Strategy.argumentRequest site raw arguments index =
          pure ⟨arguments[index], .child (.typeArgument raw arguments index) site⟩
  /-- A random selector looks up a candidate that is there, and without candidates none. -/
  candidates {α : Type} (cell : Cell) (generator : Generator) (candidates : List (Option α))
    (store : Store) :
    (candidates = [] ∧ Selector.pickRandom cell generator candidates store = (none, store)) ∨
    ∃ inRange : (Store.draw cell generator candidates.length store).1 < candidates.length,
      (Selector.pickRandom cell generator candidates store).1 =
        candidates[(Store.draw cell generator candidates.length store).1]

/-- If user code raises no internal errors, a chain of any strategies is sound inside. -/
theorem sound_inside {chain : Chain}
    (own : ∀ strategy ∈ chain.strategies,
      strategy.FailsOnlyIn fun cause => cause.isInternal = false) : chain.SoundInside := by
  have within : chain.KeepsTo .sound := fun strategy member =>
    Strategy.FailsOnlyIn.keepsTo (fun _ => trivial) trivial (own strategy member)
  have resolves {depth : Nat} {wanted : Request} {store after : Store} {cause : StubError}
      (outcome : chain.resolveWithin depth wanted store = .error (.error cause) after) :
      cause.isInternal = false :=
    Chain.fails_resolveWithin chain.ownedBy_all within trivial outcome
  refine ⟨resolves, fun {depth wanted _ _ _} outcome => ?_, ?_, ?_⟩
  · have asks : Operates .sound fun host => host.request wanted := .request trivial
    exact asks.fails (chain.hostWithin depth) (fun _ _ _ _ _ => resolves) outcome
  · intro strategy member site type store after raw arguments accepts unwrapped index asked
    have inRange := Strategy.argument_lt_of_accepts accepts unwrapped asked
    exact ⟨inRange, Strategy.argumentRequest_of_lt inRange⟩
  · intro α cell generator candidates store
    by_cases none : candidates = []
    · subst none
      exact Or.inl ⟨rfl, rfl⟩
    · rcases Selector.pickRandom_eq cell generator none store with ⟨inRange, picked⟩
      exact Or.inr ⟨inRange, congrArg Prod.fst picked⟩

/-- An option of two types is refused, not looked into, although it asks for its first argument. -/
theorem overfull_option_refused :
    let chain : Chain := ⟨[.optional .present,
      .supplied ⟨0⟩ (.plain Class.unit) (Supplier.failingOn [0])]⟩
    let overfull : TypeExpr := .parameterized Class.option [.plain Class.unit, .plain Class.unit]
    chain.SoundInside ∧ ∃ after, chain.resolveWithin 2 ⟨overfull, .unknown⟩ {} = .ok none after := by
  refine ⟨sound_inside fun strategy member => ?_, _, rfl⟩
  rcases List.mem_cons.mp member with rfl | later
  · exact trivial
  · cases List.mem_singleton.mp later
    intro site number
    unfold Supplier.failingOn
    split
    · rfl
    · exact fun _ => trivial

end TestData
