import TestData.Proofs.Transparency
import TestData.Proofs.Termination.Ending

namespace TestData

/-!
# Requests for wildcards

All strategies of the full chain are undecorated, and the factory method it may call is
the only one of the class.  So a wildcard is given what the type behind it is given,
exactly as long as the parameters of this factory method come to the same types for both.
-/

namespace Chain

theorem full_undecorated (before : Store) :
    ∀ strategy ∈ (full before).1.strategies, strategy.Undecorated := by
  rw [full_strategies]
  simp [beforeFactoryMethod, afterFactoryMethod, Strategy.defaultCollections, Strategy.Undecorated]

theorem full_local (before : Store) : (full before).1.Local := by
  unfold Local
  rw [full_strategies]
  simp [beforeFactoryMethod, afterFactoryMethod, Strategy.defaultCollections, Strategy.Local,
    Action.local_giveNew]

end Chain

/-- What is settled on where nothing was settled before is the only factory method there is. -/
theorem Strategy.only_of_chosenMethod {cell : Cell} {site : Site} {type : TypeExpr} {m : Method}
    {store chose : Store}
    (unsettled : ∀ c, manufacturedClass? type = some c → store.methods.find? (cell, c.name) = none)
    (chosen : chosenMethod cell (.unique Matcher.any) site type store = (some m, chose)) :
    ∃ c, manufacturedClass? type = some c ∧ c.factoryMethods = [m] ∧
      chose.methods.find? (cell, c.name) = some (some m) := by
  unfold chosenMethod at chosen
  cases manufactured : manufacturedClass? type with
  | none =>
      rw [manufactured] at chosen
      cases chosen
  | some c =>
      rw [manufactured] at chosen
      dsimp only at chosen
      have remembered := Store.remembered_of_settle (fun _ _ => Table.find?_insert_self _ _ _) chosen
      rcases Store.remembered_or_chosen chosen with known | picked
      · rw [unsettled c manufactured] at known
        cases known
      · have answer := Selector.onlyMatch_answer Matcher.any site none
          ((c.factoryMethods.map some).filterMap id) (Store.record (.selected cell c.name) store).2
        have all : (c.factoryMethods.map some).filterMap id = c.factoryMethods := by simp
        have only := answer.symm.trans picked
        rw [all] at only
        refine ⟨c, rfl, ?_, remembered⟩
        split at only
        · next found matching =>
            cases only
            have every : c.factoryMethods.filter (fun c => (Matcher.any site c).holds)
                = c.factoryMethods := List.filter_eq_self.mpr fun _ _ => rfl
            exact every.symm.trans matching
        · cases only

/-- The strategy looks at the type alone, and not at what is remembered. -/
def Strategy.Passive : Strategy → Prop
  | .constant .. | .supplied .. | .chain => True
  | _ => False

theorem Strategy.Passive.accepts {strategy : Strategy} (passive : strategy.Passive) (site : Site)
    (type : TypeExpr) : ∃ answer, strategy.accepts site type = pure answer := by
  cases strategy with
  | constant | supplied | chain => exact ⟨_, rfl⟩
  | _ => exact passive.elim

namespace Chain

variable {type : TypeExpr} {site : Site}

/-- Strategies that leave the store alone are passed over by a search that ends behind them. -/
theorem firstAccepting_behind {front rest : List Strategy} {strategy : Strategy}
    {store accepted : Store} (passive : ∀ other ∈ front, other.Passive)
    (behind : ¬ strategy.Passive)
    (found : firstAccepting (front ++ rest) ⟨type, site⟩ store = (some strategy, accepted)) :
    firstAccepting rest ⟨type, site⟩ store = (some strategy, accepted) := by
  induction front with
  | nil => exact found
  | cons other front ih =>
      have here := passive other List.mem_cons_self
      obtain ⟨answer, accepts⟩ := here.accepts site type
      simp only [List.cons_append, firstAccepting, accepts, pure_bind] at found
      cases answer with
      | true =>
          cases found
          exact absurd here behind
      | false =>
          exact ih (fun later member => passive later (List.mem_cons_of_mem _ member)) found

/-- The factory method a new full chain calls is the only one of the class. -/
theorem full_factoryMethod_only {before store accepted chose : Store} {cell : Cell}
    {selector : Selector Method} {m : Method}
    (unsettled : ∀ name, store.methods.find? (⟨before.nextCell + 2⟩, name) = none)
    (found : firstAccepting (full before).1.strategies ⟨type, site⟩ store
      = (some (.factoryMethod cell selector), accepted))
    (chosen : Strategy.chosenMethod cell selector site type accepted = (some m, chose)) :
    ∃ c, Strategy.manufacturedClass? type = some c ∧ c.factoryMethods = [m] := by
  rw [full_strategies] at found
  have passive : ∀ strategy ∈ beforeFactoryMethod before, strategy.Passive := by
    simp [beforeFactoryMethod, Strategy.Passive]
  have active : ¬ (Strategy.factoryMethod cell selector).Passive := id
  have asked := firstAccepting_behind passive active found
  rcases first : Strategy.chosenMethod ⟨before.nextCell + 2⟩ (.unique Matcher.any) site type store
    with ⟨_ | only, settled⟩
  · have declines : (Strategy.factoryMethod ⟨before.nextCell + 2⟩ (.unique Matcher.any)).accepts
        site type store = (false, settled) := by
      simp only [Strategy.accepts, bind, StateT.bind, first]
      rfl
    rw [firstAccepting_of_declines declines] at asked
    have member := (mem_of_firstAccepting asked).1
    simp [afterFactoryMethod, Strategy.defaultCollections] at member
  · have accepts : (Strategy.factoryMethod ⟨before.nextCell + 2⟩ (.unique Matcher.any)).accepts
        site type store = (true, settled) := by
      simp only [Strategy.accepts, bind, StateT.bind, first]
      rfl
    rw [firstAccepting_of_accepts accepts] at asked
    cases asked
    obtain ⟨c, manufactured, factory, known⟩ :=
      Strategy.only_of_chosenMethod (fun c _ => unsettled c.name) first
    refine ⟨c, manufactured, ?_⟩
    rw [Strategy.chosenMethod, manufactured] at chosen
    dsimp only at chosen
    rw [Store.settle_of_known known] at chosen
    cases chosen
    exact factory

/-- There is but one factory method to fit, so one depth is enough for it. -/
theorem enough_for_factoryMethod {other : TypeExpr} (depth : Nat)
    (fits : ∀ c m, Strategy.manufacturedClass? type = some c → c.factoryMethods = [m] →
      ∀ types, (∃ depth, m.argumentTypes depth type = .ok types) →
        ∃ depth, m.argumentTypes depth other = .ok types) :
    ∃ enough, ∀ c m, Strategy.manufacturedClass? type = some c → c.factoryMethods = [m] →
      ∀ types, m.argumentTypes depth type = .ok types → m.argumentTypes enough other = .ok types := by
  by_cases called : ∃ c m types, Strategy.manufacturedClass? type = some c ∧
      c.factoryMethods = [m] ∧ m.argumentTypes depth type = .ok types
  · obtain ⟨c, m, types, manufactured, only, given⟩ := called
    obtain ⟨enough, found⟩ := fits c m manufactured only types ⟨depth, given⟩
    refine ⟨enough, fun d n manufacturedToo onlyToo again givenToo => ?_⟩
    cases manufactured.symm.trans manufacturedToo
    cases only.symm.trans onlyToo
    cases given.symm.trans givenToo
    exact found
  · exact ⟨0, fun c m manufactured only types given =>
      absurd ⟨c, m, types, manufactured, only, given⟩ called⟩

/-- What a new full chain gives a type it gives every type that is used alike. -/
theorem full_given {other : TypeExpr} (same : other.StandsFor type) {before : Store}
    (tidy : before.Tidy)
    (fits : ∀ c m, Strategy.manufacturedClass? type = some c → c.factoryMethods = [m] →
      ∀ types, (∃ depth, m.argumentTypes depth type = .ok types) →
        ∃ depth, m.argumentTypes depth other = .ok types)
    {value : Value} {left : Store}
    (given : (full before).1.Gives (full before).2 ⟨type, site⟩ value left) :
    (full before).1.Gives (full before).2 ⟨other, site⟩ value left := by
  obtain ⟨depth, after, outcome, retraced⟩ := given
  cases depth with
  | zero => cases outcome
  | succ depth =>
      obtain ⟨layers, binds⟩ := same.binds
      obtain ⟨enough, fitted⟩ := enough_for_factoryMethod depth fits
      have unsettled (name : String) :
          (Store.record (.requested type site) (full before).2).2.methods.find?
            (⟨before.nextCell + 2⟩, name) = none :=
        tidy.methods (Nat.le_add_right before.nextCell 2)
      let deeper := max (depth + layers) enough
      have bindsDeeper (bindings) (bound : Bindings.ofType depth type = .ok bindings) :
          Bindings.ofType deeper other = .ok bindings :=
        Bindings.steady_ofType other (depth + layers) deeper bindings (by omega)
          (binds depth bindings bound)
      obtain ⟨last, again, left⟩ := request_given (full_local before) (full_undecorated before)
        same (by omega : depth ≤ deeper) bindsDeeper
        (fun cell selector accepted m chose found chosen types wanted => by
          obtain ⟨c, manufactured, only⟩ := full_factoryMethod_only unsettled found chosen
          exact m.steady_argumentTypes other enough deeper types (by omega)
            (fitted c m manufactured only types wanted))
        outcome
      exact ⟨deeper + 1, last, again, left.symm.trans retraced⟩

end Chain

/--
A new full chain gives a wildcard and the type behind it the same value, or neither of
them any, and leaves the same store behind but for the trace: provided that the parameters
of the factory method, if the class has just one, come to the same types for both.
-/
theorem wildcards_given_as_their_bounds {wildcard front : TypeExpr}
    (unwraps : wildcard.unwrap = some front) {before : Store} (tidy : before.Tidy)
    (fits : ∀ c m, Strategy.manufacturedClass? front = some c → c.factoryMethods = [m] →
      m.FitsAlike wildcard front) (site : Site) :
    (∀ value left,
      (Chain.full before).1.Gives (Chain.full before).2 ⟨wildcard, site⟩ value left ↔
        (Chain.full before).1.Gives (Chain.full before).2 ⟨front, site⟩ value left) ∧
    ∀ value other left last,
      (Chain.full before).1.Gives (Chain.full before).2 ⟨wildcard, site⟩ value left →
      (Chain.full before).1.Gives (Chain.full before).2 ⟨front, site⟩ other last →
        other = value ∧ left.Retraced last := by
  have manufactures : Strategy.manufacturedClass? wildcard = Strategy.manufacturedClass? front := by
    rw [Strategy.manufacturedClass?, TypeExpr.rawType_of_unwrap unwraps]
    rfl
  have forth (value left)
      (given : (Chain.full before).1.Gives (Chain.full before).2 ⟨wildcard, site⟩ value left) :
      (Chain.full before).1.Gives (Chain.full before).2 ⟨front, site⟩ value left := by
    refine Chain.full_given (TypeExpr.standsFor_unwrapped unwraps) tidy ?_ given
    exact fun c m manufactured only types =>
      (fits c m (manufactures ▸ manufactured) only types).mp
  refine ⟨fun value left => ⟨forth value left, fun given => ?_⟩, ?_⟩
  · refine Chain.full_given (TypeExpr.standsFor_of_unwrap unwraps) tidy ?_ given
    exact fun c m manufactured only types => (fits c m manufactured only types).mpr
  · intro value other left last given again
    exact (forth value left given).unique (Chain.full_local before) again

namespace Class

/-- A class that is made by a factory method from a text. -/
def money : Class where
  name := "Money"
  kind := .concrete
  methodDeclarations := [{
    name := "of"
    returnType := .plain (named "Money")
    isStatic := true
    parameters := [{ name := "amount", type := .plain string }]
    invoker := some fun _ arguments => .fresh (.made "Money" "of" arguments) }]

/-- A generic class that is made by a generic factory method, from what it contains. -/
def box : Class where
  name := "Box"
  kind := .concrete
  typeParameters := ["T"]
  methodDeclarations := [{
    name := "of"
    returnType := .parameterized (named "Box") [.var ⟨"Box::of", "T"⟩ []]
    isStatic := true
    typeParameters := ["T"]
    parameters := [{ name := "seed", type := .var ⟨"Box::of", "T"⟩ [] }]
    invoker := some fun _ arguments => .fresh (.made "Box" "of" arguments) }]

end Class

/--
Behind two wildcards money is made from a text as it is without them.  A box of texts is
made from a text; behind a wildcard the text is not found, and there is no box.
-/
theorem money_given_and_box_refused_behind_wildcards :
    let chain := (Chain.full {}).1
    let store := (Chain.full {}).2
    let money : TypeExpr := .plain Class.money
    let box : TypeExpr := .parameterized Class.box [.plain Class.string]
    (∃ value left, chain.Gives store ⟨money, .unknown⟩ value left ∧
      chain.Gives store ⟨.extending (.superOf money), .unknown⟩ value left) ∧
    (∃ value left, chain.Gives store ⟨box, .unknown⟩ value left) ∧
    ¬ ∃ value left, chain.Gives store ⟨.extending box, .unknown⟩ value left := by
  intro chain store money box
  have tidy : Store.Tidy {} := ⟨fun _ => rfl, fun _ => rfl⟩
  have fits : ∀ c m, Strategy.manufacturedClass? money = some c → c.factoryMethods = [m] →
      m.FitsAlike (.extending (.superOf money)) money := by
    intro c m manufactured only
    cases manufactured
    cases only
    exact Method.ReturnsOther.fitsAlike trivial rfl rfl
  have transparent := wildcards_given_as_their_bounds rfl tidy fits .unknown
  have made : ∃ value left, chain.Gives store ⟨money, .unknown⟩ value left :=
    ⟨_, _, 4, _, rfl, .refl _⟩
  refine ⟨?_, ⟨_, _, 4, _, rfl, .refl _⟩, ?_⟩
  · obtain ⟨value, left, given⟩ := made
    exact ⟨value, left, given, (transparent.1 value left).mpr given⟩
  · rintro ⟨value, left, depth, after, given, -⟩
    have refused : ∃ failure last, (chain.hostWithin depth).request ⟨.extending box, .unknown⟩ store
        = .error failure last := by
      match depth with
      | 0 => exact ⟨_, _, rfl⟩
      | 1 => exact ⟨_, _, rfl⟩
      | 2 => exact ⟨_, _, rfl⟩
      | 3 => exact ⟨_, _, rfl⟩
      | depth + 4 => exact ⟨_, _, rfl⟩
    obtain ⟨failure, last, failed⟩ := refused
    cases given.symm.trans failed

end TestData
