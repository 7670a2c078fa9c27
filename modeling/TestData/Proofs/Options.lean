import TestData.Chain.Basic

namespace TestData

/-!
# Options that are filled if possible

An option that is to be filled if possible asks the chain for its element and stays empty if no
strategy of the chain accepts the element.  A strategy that does accept it is committed to: whatever
it ends in is what the option ends in, and this goes for a refusal further down as well.  The option
stays empty on a refusal only if it is the element itself that is refused, at the first step.
-/

/-- The strategy of a chain that a request is handed to, if any accepts it. -/
def Chain.acceptor? (chain : Chain) (wanted : Request) (store : Store) : Option Strategy :=
  (firstAccepting chain.strategies wanted
    (Store.record (.requested wanted.type wanted.site) store).2).1

namespace Strategy

variable {type element : TypeExpr} {raw : Class}

/-- The element is requested at a site directly below that of the option. -/
theorem produce_ifPossible (front : type.unwrap = some (.parameterized raw [element]))
    (named : (raw == Class.option) = true) (host : Host) (site : Site) :
    (optional .presentIfPossible).produce host site type = (do
      let filling ← host.resolve ⟨element, .child (.typeArgument raw [element] 0) site⟩
      Store.create (.option filling) : Run Value) := by
  rw [produce, produceOptional, front]
  simp only [named, if_true]
  rfl

variable {chain : Chain} {wanted : Request} {store accepted : Store} {strategy : Strategy}

theorem filling_of_declined
    (declined : Chain.firstAccepting chain.strategies wanted
      (Store.record (.requested wanted.type wanted.site) store).2 = (none, accepted))
    (depth : Nat) :
    (do let filling ← (chain.hostWithin (depth + 1)).resolve wanted
        Store.create (.option filling) : Run Value) store =
      Run.ofStep (Store.create (.option none)) accepted :=
  Run.bind_of_ok (Chain.resolveFor_of_declined declined (chain.hostWithin depth))

/-- The option ends as the strategy that accepts the element does. -/
theorem filling_of_found
    (found : Chain.firstAccepting chain.strategies wanted
      (Store.record (.requested wanted.type wanted.site) store).2 = (some strategy, accepted))
    (depth : Nat) :
    (do let filling ← (chain.hostWithin (depth + 1)).resolve wanted
        Store.create (.option filling) : Run Value) store =
      (do let value ← (chain.hostWithin (depth + 1)).request wanted
          Store.create (.option (some value)) : Run Value) store := by
  have served : (chain.hostWithin (depth + 1)).resolve wanted store =
      (some <$> strategy.produce (chain.hostWithin depth) wanted.site wanted.type) accepted :=
    Chain.resolveFor_of_found found (chain.hostWithin depth)
  have asked := Chain.request_of_found found depth
  cases made : strategy.produce (chain.hostWithin depth) wanted.site wanted.type accepted with
  | ok value after =>
      simp only [Functor.map, EStateM.map, made] at served
      rw [Run.bind_of_ok served, Run.bind_of_ok (asked.trans made)]
  | error failure after =>
      simp only [Functor.map, EStateM.map, made] at served
      rw [Run.bind_of_error served, Run.bind_of_error (asked.trans made)]

/--
An option that is to be filled if possible holds the element if the request for the element is
answered.  If that request fails, the option stays empty if no strategy accepts the element, and
fails in the same way if one does.  So on a refusal, wherever it arises, the option stays empty if
and only if no strategy has accepted the element.
-/
theorem option_empty_iff_declined (front : type.unwrap = some (.parameterized raw [element]))
    (named : (raw == Class.option) = true) (chain : Chain) (depth : Nat) (site : Site)
    (store : Store) :
    let host := chain.hostWithin (depth + 1)
    let wanted : Request := ⟨element, .child (.typeArgument raw [element] 0) site⟩
    let outcome := (optional .presentIfPossible).produce host site type store
    (∀ value between, host.request wanted store = .ok value between →
      outcome = Run.ofStep (Store.create (.option (some value))) between) ∧
    (∀ failure after, host.request wanted store = .error failure after →
      outcome = if (chain.acceptor? wanted store).isSome then .error failure after
        else Run.ofStep (Store.create (.option none)) after) ∧
    (chain.acceptor? wanted store = none → ∃ after, host.request wanted store =
      .error (.error (.unresolvable wanted.type wanted.site)) after) ∧
    ((∀ t s after, host.request wanted store = .error (.error (.unresolvable t s)) after →
        outcome = Run.ofStep (Store.create (.option none)) after) ↔
      ¬ ∃ t s after, host.request wanted store = .error (.error (.unresolvable t s)) after ∧
        (chain.acceptor? wanted store).isSome = true) := by
  intro host wanted outcome
  have filled : outcome = (do
      let filling ← host.resolve wanted
      Store.create (.option filling) : Run Value) store :=
    congrFun (produce_ifPossible front named host site) store
  -- One search decides both what the request for the element and what the option comes to.
  rcases found : Chain.firstAccepting chain.strategies wanted
      (Store.record (.requested wanted.type wanted.site) store).2 with ⟨acceptor, accepted⟩
  have picked : chain.acceptor? wanted store = acceptor := congrArg Prod.fst found
  have ends : ∀ failure after, host.request wanted store = .error failure after →
      outcome = if (chain.acceptor? wanted store).isSome then .error failure after
        else Run.ofStep (Store.create (.option none)) after := by
    intro failure after fails
    rw [picked]
    cases acceptor with
    | none =>
        cases (Chain.request_of_declined found depth).symm.trans fails
        exact filled.trans (filling_of_declined found depth)
    | some strategy =>
        rw [filled, filling_of_found found depth]
        exact Run.bind_of_error fails
  refine ⟨?present, ends, ?declined, ?refused⟩
  case present =>
    intro value between given
    cases acceptor with
    | none => cases (Chain.request_of_declined found depth).symm.trans given
    | some strategy =>
        rw [filled, filling_of_found found depth]
        exact Run.bind_of_ok given
  case declined =>
    intro none
    cases picked.symm.trans none
    exact ⟨accepted, Chain.request_of_declined found depth⟩
  case refused =>
    constructor
    · rintro empty ⟨t, s, after, refuses, isAccepted⟩
      have stays := empty t s after refuses
      rw [ends _ after refuses, if_pos isAccepted] at stays
      cases stays
    · intro never t s after refuses
      rw [ends _ after refuses, if_neg]
      exact fun isAccepted => never ⟨t, s, after, refuses, isAccepted⟩

/-- A note is made from paper by its constructor; nothing makes paper. -/
def noteOnPaper : Class where
  name := "Note"
  kind := .concrete
  constructorDeclarations := [
    { parameters := [{ name := "paper", type := .plain (.named "Paper") }]
      invoker := some fun arguments => .fresh (.made "Note" "new" arguments) }]

/-- The option of paper stays empty, while that of a note fails for want of paper. -/
theorem paper_missing_and_note_refused :
    let chain : Chain := ⟨[.optional .presentIfPossible, .constructor ⟨0⟩ .first]⟩
    let paper : TypeExpr := .plain (.named "Paper")
    let note : TypeExpr := .plain noteOnPaper
    let optionOf (element : TypeExpr) : TypeExpr := .parameterized Class.option [element]
    let stub (type : TypeExpr) :=
      (optional .presentIfPossible).produce (chain.hostWithin 3) .unknown type {}
    (Class.option == Class.option) = true ∧
    (∃ after, stub (optionOf paper) = .ok (.object 0 (.option none)) after) ∧
    ∃ site after, stub (optionOf note) = .error (.error (.unresolvable paper site)) after := by
  intro chain paper note optionOf stub
  have named : (Class.option == Class.option) = true := by decide
  have paperInside : (optionOf paper).unwrap = some (.parameterized Class.option [paper]) := rfl
  have noteInside : (optionOf note).unwrap = some (.parameterized Class.option [note]) := rfl
  rcases option_empty_iff_declined paperInside named chain 2 .unknown {} with ⟨-, ofPaper, -, -⟩
  rcases option_empty_iff_declined noteInside named chain 2 .unknown {} with ⟨-, ofNote, -, -⟩
  have emptied : ∃ after, stub (optionOf paper) = .ok (.object 0 (.option none)) after :=
    ⟨_, (ofPaper _ _ rfl).trans (if_neg Bool.false_ne_true)⟩
  have noPaper : ∃ site after, (chain.hostWithin 3).request
      ⟨note, .child (.typeArgument Class.option [note] 0) .unknown⟩ {} =
        .error (.error (.unresolvable paper site)) after := ⟨_, _, rfl⟩
  rcases noPaper with ⟨site, after, refused⟩
  exact ⟨named, emptied, site, after, (ofNote _ after refused).trans (if_pos rfl)⟩

end Strategy
end TestData
