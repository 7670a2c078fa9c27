import TestData.Proofs.Course
import TestData.Chain.Basic

namespace TestData

/-!
# Making stubs on a course

For each piece of accepting and making, the conditions under which it keeps to a
course: which requests it issues, what it settles on, and when it gives up.  The last
theorems put the pieces together for strategies of any make and for chains of them.
-/

namespace Course

variable {α : Type} {course : Course}

/-! ## Accepting -/

/--
What is remembered is looked up; otherwise the choice is made and then remembered.
Only remembering a choice that was just made has to be allowed.
-/
theorem admits_settle {remembered : Store → Option (Option α)} {keep : Option α → Store → Store}
    {choose : Step (Option α)} (plain : Step.Plain choose) {store : Store}
    (keeps : course.reaches (choose store).2 (keep (choose store).1 (choose store).2)) :
    course.Admits (Store.settle remembered keep choose) store := by
  have chosen : course.reaches store (choose store).2 := course.change (.quiet (plain.quiet store))
  unfold Admits
  cases known : remembered store with
  | some choice =>
      rw [Store.settle_of_known known]
      exact course.refl store
  | none =>
      rw [Store.settle_of_unknown known]
      exact course.trans chosen keeps

theorem plain_pick (cell : Cell) (name : String) (selector : Selector α) (site : Site)
    (candidates : List α) :
    Step.Plain (do
      Store.record (.selected cell name)
      selector.selectFrom site candidates) :=
  .bind (.record rfl) fun _ => Step.plain_select selector site _

/-- Choosing a constructor keeps to a course that allows what the selector then picks. -/
theorem admits_chosenConstructor {cell : Cell} {selector : Selector Constructor} {site : Site}
    {type : TypeExpr} {store : Store}
    (settles : ∀ c, Strategy.constructedClass? type = some c → ∀ between,
      course.reaches (selector.selectFrom site c.usableConstructors between).2
        { (selector.selectFrom site c.usableConstructors between).2 with
          constructors := (selector.selectFrom site c.usableConstructors between).2.constructors.insert
            (cell, c.name) (selector.selectFrom site c.usableConstructors between).1 }) :
    course.Admits (Strategy.chosenConstructor cell selector site type) store := by
  unfold Strategy.chosenConstructor
  split
  · exact admits_pure none store
  · next c constructed =>
      exact admits_settle (plain_pick cell c.name selector site _) (settles c constructed _)

/-- Choosing a factory method keeps to a course that allows what the selector then picks. -/
theorem admits_chosenMethod {cell : Cell} {selector : Selector Method} {site : Site}
    {type : TypeExpr} {store : Store}
    (settles : ∀ c, Strategy.manufacturedClass? type = some c → ∀ between,
      course.reaches (selector.selectFrom site c.factoryMethods between).2
        { (selector.selectFrom site c.factoryMethods between).2 with
          methods := (selector.selectFrom site c.factoryMethods between).2.methods.insert
            (cell, c.name) (selector.selectFrom site c.factoryMethods between).1 }) :
    course.Admits (Strategy.chosenMethod cell selector site type) store := by
  unfold Strategy.chosenMethod
  split
  · exact admits_pure none store
  · next c manufactured =>
      exact admits_settle (plain_pick cell c.name selector site _) (settles c manufactured _)

/-- On a lenient course strategies may accept what they like. -/
theorem admits_accepts (lenient : course.Lenient) (strategy : Strategy) (site : Site)
    (type : TypeExpr) (store : Store) : course.Admits (strategy.accepts site type) store := by
  induction strategy generalizing store with
  | defaultValue | constant | supplied | nullValue | optional | collection | map | array
  | implementation | chain => exact admits_pure _ store
  | constructor cell selector =>
      refine admits_bind (admits_chosenConstructor fun c _ between => ?_) (admits_pure _ _)
      exact lenient.constructors _ _ _
  | factoryMethod cell selector =>
      refine admits_bind (admits_chosenMethod fun c _ between => ?_) (admits_pure _ _)
      exact lenient.methods _ _ _
  | enumValue selector =>
      exact admits_plain (.bind (Step.plain_chosenConstant selector site type)
        fun _ => .pure _) store
  | memoizing cell inner discriminator ih => exact ih store
  | conditional inner condition ih =>
      apply admits_bind (ih store)
      split
      · exact admits_plain (.heed _) _
      · exact admits_pure _ _
  | enhancing inner enhancer ih => exact ih store

theorem admits_firstAccepting {strategies : List Strategy} {wanted : Request} {store : Store}
    (accepts : ∀ strategy ∈ strategies, ∀ store,
      course.Admits (strategy.accepts wanted.site wanted.type) store) :
    course.Admits (Chain.firstAccepting strategies wanted) store := by
  induction strategies generalizing store with
  | nil => exact admits_pure none store
  | cons strategy rest ih =>
      apply admits_bind (accepts strategy List.mem_cons_self store)
      split
      · exact admits_pure _ _
      · exact ih fun other member => accepts other (List.mem_cons_of_mem _ member)

/-! ## Making stubs from the parts of a type -/

theorem keeps_giveUp {site : Site} {type : TypeExpr} {store : Store}
    (fails : course.fails store (.error (.unresolvable type site)) store) :
    course.Keeps (Strategy.giveUp site type : Run α) store :=
  keeps_throw fails

/-- Asking for an argument changes nothing, and it asks for one of the arguments. -/
theorem keeps_argumentRequest {site : Site} {raw : Class} {arguments : List TypeExpr}
    {index : Nat} {next : Request → Run α} {store : Store}
    (goesOn : ∀ argument ∈ arguments, ∀ site, course.Keeps (next ⟨argument, site⟩) store) :
    course.Keeps (Strategy.argumentRequest site raw arguments index >>= next) store := by
  by_cases inRange : index < arguments.length
  · have outcome : Strategy.argumentRequest site raw arguments index store
        = .ok ⟨arguments[index], .child (.typeArgument raw arguments index) site⟩ store := by
      rw [Strategy.argumentRequest, Site.argumentAt, dif_pos inRange]
      rfl
    have here := goesOn arguments[index] (List.getElem_mem inRange)
      (.child (.typeArgument raw arguments index) site)
    unfold Keeps at here ⊢
    rw [Run.bind_of_ok outcome]
    exact here
  · have outcome : Strategy.argumentRequest site raw arguments index store
        = .error (.error (.invalidSite (.argumentIndex index raw arguments))) store := by
      rw [Strategy.argumentRequest, Site.argumentAt, dif_neg inRange]
      rfl
    unfold Keeps
    rw [Run.bind_of_error outcome]
    exact course.fails_ordinary store rfl

theorem keeps_called (site : Site) (type : TypeExpr) (member : String) (reply : Reply)
    (store : Store) : course.Keeps (Strategy.called site type member reply) store := by
  have admitted : course.Admits (Store.carryOut reply) store :=
    admits_plain (Step.plain_carryOut reply) store
  rcases taken : Store.carryOut reply store with ⟨message | value, after⟩
  · exact keeps_step_bind taken admitted (keeps_throw (course.fails_ordinary _ rfl))
  · exact keeps_step_bind taken admitted (keeps_pure _ _)

theorem keeps_create (content : Content) (store : Store) :
    course.Keeps (Run.ofStep (Store.create content)) store :=
  keeps_ofStep (admits_plain (.create content) store)

/-- A strategy that does its work if it accepts, and gives up if not. -/
theorem keeps_onlyIf {accepted : Bool} {work : Run α} {site : Site} {type : TypeExpr}
    {store : Store} (works : course.Keeps work store)
    (declines : ¬ accepted = true → course.fails store (.error (.unresolvable type site)) store) :
    course.Keeps (if accepted = true then work else Strategy.giveUp site type) store := by
  split
  · exact works
  · next other => exact keeps_giveUp (declines other)

theorem keeps_defaultValue {host : Host} {site : Site} {type : TypeExpr} {store : Store}
    (declines : type.defaultContent? = none →
      course.fails store (.error (.unresolvable type site)) store) :
    course.Keeps (Strategy.defaultValue.produce host site type) store := by
  unfold Strategy.produce
  split
  · exact keeps_create _ store
  · next other => exact keeps_giveUp (declines other)

theorem keeps_enumValue {host : Host} {selector : Selector Value} {site : Site} {type : TypeExpr}
    {store : Store}
    (declines : ∀ after, Strategy.chosenConstant selector site type store = (none, after) →
      course.fails after (.error (.unresolvable type site)) after) :
    course.Keeps ((Strategy.enumValue selector).produce host site type) store := by
  have chooses : course.Admits (Strategy.chosenConstant selector site type) store :=
    admits_plain (Step.plain_chosenConstant selector site type) store
  unfold Strategy.produce
  rcases chosen : Strategy.chosenConstant selector site type store with ⟨_ | value, after⟩
  · exact keeps_step_bind chosen chooses (keeps_giveUp (declines after chosen))
  · exact keeps_step_bind chosen chooses (keeps_pure value after)

theorem keeps_produceOptional {host : Host} {mode : OptionalMode} {site : Site}
    {type : TypeExpr} {store : Store}
    (serves : ∀ raw arguments, type.unwrap = some (.parameterized raw arguments) →
      ∀ argument ∈ arguments, ∀ site, course.Serves host ⟨argument, site⟩)
    (declines : Strategy.acceptsOptional mode type = false →
      course.fails store (.error (.unresolvable type site)) store) :
    course.Keeps (Strategy.produceOptional host mode site type) store := by
  unfold Strategy.produceOptional
  unfold Strategy.acceptsOptional at declines
  split
  · next raw arguments applied =>
      rw [applied] at declines
      split
      · refine keeps_argumentRequest fun argument member argumentSite => ?_
        have served := serves raw arguments applied argument member argumentSite
        cases mode with
        | empty => exact keeps_create _ store
        | present => exact keeps_bind (served.request store) fun _ after _ => keeps_create _ after
        | presentIfPossible =>
            exact keeps_bind (served.resolve store) fun _ after _ => keeps_create _ after
      · next other =>
          have unequal : (raw == Class.option) = false := Bool.eq_false_iff.mpr other
          exact keeps_giveUp (declines (by simp [unequal]))
  · next c plain =>
      rw [plain] at declines
      split
      · exact keeps_create _ store
      · next unfit => exact keeps_giveUp (declines (Bool.eq_false_iff.mpr unfit))
  · next notApplied notPlain =>
      refine keeps_giveUp (declines ?_)
      split
      · next c plain => exact absurd plain (notPlain c)
      · next raw arguments applied => exact absurd applied (notApplied raw arguments)
      · rfl

theorem unwrap_of_shape_applied {type : TypeExpr} {c raw : Class} {arity : Nat}
    {arguments : List TypeExpr} (applied : type.shape? c arity = some (.applied raw arguments)) :
    type.unwrap = some (.parameterized raw arguments) := by
  unfold TypeExpr.shape? at applied
  split at applied
  · split at applied <;> cases applied
  · next front =>
      split at applied
      · cases applied
        exact front
      · cases applied
  · cases applied

/-- A class is used as applied only with the number of arguments it is looked for with. -/
theorem length_of_shape_applied {type : TypeExpr} {c raw : Class} {arity : Nat}
    {arguments : List TypeExpr} (applied : type.shape? c arity = some (.applied raw arguments)) :
    arguments.length = arity := by
  have front := unwrap_of_shape_applied applied
  simp only [TypeExpr.shape?, front] at applied
  split at applied
  · next counted =>
      cases applied
      exact beq_iff_eq.mp (Bool.and_eq_true_iff.mp counted).2
  · cases applied

theorem ofBounded_eq_ok {bounded : Bounded α} {result : α} {store after : Store}
    (outcome : Run.ofBounded bounded store = .ok result after) : bounded = .ok result := by
  cases bounded with
  | error exhausted => cases outcome
  | ok made => cases outcome; rfl

theorem keeps_produceCollection {host : Host} {c : Class} {build : List Value → Content}
    {size : Nat} {site : Site} {type : TypeExpr} {store : Store}
    (serves : ∀ raw arguments, type.unwrap = some (.parameterized raw arguments) →
      ∀ argument ∈ arguments, ∀ site, course.Serves host ⟨argument, site⟩)
    (declines : Strategy.acceptsShape type c 1 size = false →
      course.fails store (.error (.unresolvable type site)) store) :
    course.Keeps (Strategy.produceCollection host c build size site type) store := by
  unfold Strategy.produceCollection
  unfold Strategy.acceptsShape at declines
  split
  · next plain =>
      rw [plain] at declines
      split
      · exact keeps_create _ store
      · next nonempty => exact keeps_giveUp (declines (Bool.eq_false_iff.mpr nonempty))
  · next raw arguments applied =>
      have parts := unwrap_of_shape_applied applied
      refine keeps_argumentRequest fun argument member argumentSite => ?_
      have served := serves raw arguments parts argument member argumentSite
      exact keeps_bind (keeps_times served.request size store) fun _ after _ =>
        keeps_create _ after
  · next other =>
      rw [other] at declines
      exact keeps_giveUp (declines rfl)

theorem keeps_produceMap {host : Host} {c : Class} {build : List (Value × Value) → Content}
    {size : Nat} {site : Site} {type : TypeExpr} {store : Store}
    (serves : ∀ raw arguments, type.unwrap = some (.parameterized raw arguments) →
      ∀ argument ∈ arguments, ∀ site, course.Serves host ⟨argument, site⟩)
    (declines : Strategy.acceptsShape type c 2 size = false →
      course.fails store (.error (.unresolvable type site)) store) :
    course.Keeps (Strategy.produceMap host c build size site type) store := by
  unfold Strategy.produceMap
  unfold Strategy.acceptsShape at declines
  split
  · next plain =>
      rw [plain] at declines
      split
      · exact keeps_create _ store
      · next nonempty => exact keeps_giveUp (declines (Bool.eq_false_iff.mpr nonempty))
  · next raw arguments applied =>
      have parts := unwrap_of_shape_applied applied
      refine keeps_argumentRequest fun key keyMember keySite => ?_
      refine keeps_argumentRequest fun value valueMember valueSite => ?_
      have servedKey := serves raw arguments parts key keyMember keySite
      have servedValue := serves raw arguments parts value valueMember valueSite
      exact keeps_bind (keeps_times (keeps_requestBoth servedKey servedValue) size store)
        fun _ after _ => keeps_create _ after
  · next other =>
      rw [other] at declines
      exact keeps_giveUp (declines rfl)

theorem keeps_produceArray {host : Host} {size : Nat} {site : Site} {type : TypeExpr}
    {store : Store}
    (serves : ∀ component, type.component? = some component →
      ∀ site, course.Serves host ⟨component, site⟩)
    (declines : type.component? = none →
      course.fails store (.error (.unresolvable type site)) store) :
    course.Keeps (Strategy.produceArray host size site type) store := by
  unfold Strategy.produceArray
  split
  · next component array =>
      have served := serves component array (site.arrayElement component)
      exact keeps_bind (keeps_times served.request size store) fun _ after _ =>
        keeps_create _ after
  · next other => exact keeps_giveUp (declines other)

/-! ## Making stubs by members -/

/--
The constructor is chosen first, then the arguments are requested.  What was chosen in
this store is all that the requests have to be allowed for.
-/
theorem keeps_produceByConstructor {host : Host} {cell : Cell} {selector : Selector Constructor}
    {site : Site} {type : TypeExpr} {store : Store}
    (chooses : course.Admits (Strategy.chosenConstructor cell selector site type) store)
    (serves : ∀ k after,
      Strategy.chosenConstructor cell selector site type store = (some k, after) →
      ∀ bindings, Bindings.ofType host.depth type = .ok bindings →
      ∀ parameter ∈ k.parameters, ∀ site,
        course.Serves host ⟨bindings.resolve parameter.type, site⟩)
    (exhausts : ∀ k after,
      Strategy.chosenConstructor cell selector site type store = (some k, after) →
      Bindings.ofType host.depth type = .error ⟨⟩ → course.fails after .exhausted after)
    (declines : ∀ after,
      Strategy.chosenConstructor cell selector site type store = (none, after) →
      course.fails after (.error (.unresolvable type site)) after) :
    course.Keeps (Strategy.produceByConstructor host cell selector site type) store := by
  rcases chosen : Strategy.chosenConstructor cell selector site type store with ⟨_ | k, after⟩
  · exact keeps_step_bind chosen chooses (keeps_giveUp (declines after chosen))
  · apply keeps_step_bind chosen chooses
    refine keeps_bind (keeps_ofBounded (exhausts k after chosen)) fun bindings between bound => ?_
    have collected : Bindings.ofType host.depth type = .ok bindings :=
      ofBounded_eq_ok bound
    refine keeps_bind (keeps_requestArguments (serves k after chosen bindings collected) between)
      fun arguments last _ => ?_
    exact keeps_called site type k.display _ last

theorem keeps_produceByMethod {host : Host} {cell : Cell} {selector : Selector Method}
    {site : Site} {type : TypeExpr} {store : Store}
    (chooses : course.Admits (Strategy.chosenMethod cell selector site type) store)
    (serves : ∀ m after,
      Strategy.chosenMethod cell selector site type store = (some m, after) →
      ∀ own bindings, Bindings.ofType host.depth type = .ok own →
      own.bind host.depth m.returnType type = .ok bindings →
      ∀ parameter ∈ m.parameters, ∀ site,
        course.Serves host ⟨bindings.resolve parameter.type, site⟩)
    (exhausts : ∀ m after,
      Strategy.chosenMethod cell selector site type store = (some m, after) →
      (Bindings.ofType host.depth type >>= fun own => own.bind host.depth m.returnType type)
        = .error ⟨⟩ → course.fails after .exhausted after)
    (declines : ∀ after,
      Strategy.chosenMethod cell selector site type store = (none, after) →
      course.fails after (.error (.unresolvable type site)) after) :
    course.Keeps (Strategy.produceByMethod host cell selector site type) store := by
  rcases chosen : Strategy.chosenMethod cell selector site type store with ⟨_ | m, after⟩
  · exact keeps_step_bind chosen chooses (keeps_giveUp (declines after chosen))
  · apply keeps_step_bind chosen chooses
    refine keeps_bind (keeps_ofBounded (exhausts m after chosen)) fun bindings between bound => ?_
    rcases Bounded.of_bind_eq_ok (ofBounded_eq_ok bound) with ⟨own, collected, fitted⟩
    refine keeps_bind
      (keeps_requestArguments (serves m after chosen own bindings collected fitted) between)
      fun arguments last _ => ?_
    exact keeps_called site type m.display _ last

end Course
end TestData
