import TestData.Strategy.Accept
import TestData.Strategy.Inject

namespace TestData

/-!
# What strategies make

Making a stub is independent of having accepted the request: a strategy that is
asked to make something it does not accept gives up with an error that names the
type and the site.  The stubs it needs on the way are requested at the host.
-/

namespace Strategy

/-- Give up on a request. -/
def giveUp {α : Type} (site : Site) (type : TypeExpr) : Run α :=
  Run.fail (.unresolvable type site)

/-- The request for an argument of a class applied to arguments. -/
def argumentRequest (site : Site) (raw : Class) (arguments : List TypeExpr) (index : Nat) :
    Run Request := do
  let (type, argumentSite) ← Run.ofSite (site.argumentAt raw arguments index)
  return ⟨type, argumentSite⟩

/-- The outcome of calling a member, with a failure blamed on the member. -/
def called (site : Site) (type : TypeExpr) (member : String) (reply : Reply) : Run Value := do
  match ← Store.carryOut reply with
  | .ok value => return value
  | .error message => Run.fail (.produce type site (member ++ " failed: " ++ message))

/-- An option, filled as the mode says. -/
def produceOptional (host : Host) (mode : OptionalMode) (site : Site) (type : TypeExpr) :
    Run Value :=
  match type.unwrap with
  | some (.parameterized raw arguments) =>
      if raw == Class.option then do
        let element ← argumentRequest site raw arguments 0
        match mode with
        | .empty => Store.create (.option none)
        | .present => Store.create (.option (some (← host.request element)))
        | .presentIfPossible => Store.create (.option (← host.resolve element))
      else giveUp site type
  | some (.plain c) =>
      if c == Class.option && mode.allowsEmpty then Store.create (.option none)
      else giveUp site type
  | _ => giveUp site type

/-- A collection of as many elements as asked for. -/
def produceCollection (host : Host) (c : Class) (build : List Value → Content) (size : Nat)
    (site : Site) (type : TypeExpr) : Run Value :=
  match type.shape? c 1 with
  | some .raw => if size == 0 then Store.create (build []) else giveUp site type
  | some (.applied raw arguments) => do
      let element ← argumentRequest site raw arguments 0
      let items ← Run.times size (host.request element)
      Store.create (build items)
  | none => giveUp site type

/-- A map of as many entries as asked for. -/
def produceMap (host : Host) (c : Class) (build : List (Value × Value) → Content) (size : Nat)
    (site : Site) (type : TypeExpr) : Run Value :=
  match type.shape? c 2 with
  | some .raw => if size == 0 then Store.create (build []) else giveUp site type
  | some (.applied raw arguments) => do
      let key ← argumentRequest site raw arguments 0
      let value ← argumentRequest site raw arguments 1
      let pairs ← Run.times size (host.requestBoth key value)
      Store.create (build pairs)
  | none => giveUp site type

/-- An array of as many elements as asked for. -/
def produceArray (host : Host) (size : Nat) (site : Site) (type : TypeExpr) : Run Value :=
  match type.component? with
  | some component => do
      let element : Request := ⟨component, site.arrayElement component⟩
      let items ← Run.times size (host.request element)
      Store.create (.list items)
  | none => giveUp site type

/-- An instance made by the chosen constructor. -/
def produceByConstructor (host : Host) (cell : Cell) (selector : Selector Constructor)
    (site : Site) (type : TypeExpr) : Run Value := do
  match ← chosenConstructor cell selector site type with
  | some k =>
      let bindings ← Run.ofBounded (Bindings.ofType host.depth type)
      let arguments ← host.requestArguments bindings (site.constructorParameter k) k.parameters
      called site type k.display (k.call arguments)
  | none => giveUp site type

/--
An instance made by the chosen factory method.  The type variables of the method
are bound so that its return type fits the requested type.
-/
def produceByMethod (host : Host) (cell : Cell) (selector : Selector Method)
    (site : Site) (type : TypeExpr) : Run Value := do
  match ← chosenMethod cell selector site type with
  | some m =>
      let bindings ← Run.ofBounded (do
        (← Bindings.ofType host.depth type).bind host.depth m.returnType type)
      let arguments ← host.requestArguments bindings (site.methodParameter m) m.parameters
      called site type m.display (m.call none arguments)
  | none => giveUp site type

/-- Hand out the value of a memo. -/
def handOut (cell : Cell) (key : MemoKey) (value : Value) : Run Value := do
  Store.record (.recalled cell key value)
  return value

/--
A remembered value, or else the value made now.  While it is made, a nested request
may have come to the same key; then the value remembered first is the one that is
kept and handed out.
-/
def recalling (cell : Cell) (key : MemoKey) (make : Run Value) : Run Value := do
  match (← get).memos.find? (cell, key) with
  | some value => handOut cell key value
  | none =>
      Store.record (.computed cell key)
      let made ← make
      match (← get).memos.find? (cell, key) with
      | some value => handOut cell key value
      | none =>
          modify fun store => { store with memos := store.memos.insert (cell, key) made }
          handOut cell key made

theorem recalling_of_known {cell : Cell} {key : MemoKey} {value : Value} {store : Store}
    (known : store.memos.find? (cell, key) = some value) (make : Run Value) :
    recalling cell key make store = .ok value (Store.record (.recalled cell key value) store).2 := by
  rw [recalling, Run.bind_of_ok (Run.get_apply store)]
  simp only [known]
  rfl

theorem recalling_of_unknown {cell : Cell} {key : MemoKey} {store : Store}
    (unknown : store.memos.find? (cell, key) = none) (make : Run Value) :
    recalling cell key make store =
      match make (Store.record (.computed cell key) store).2 with
      | .error failure after => .error failure after
      | .ok made after =>
          match after.memos.find? (cell, key) with
          | some value => .ok value (Store.record (.recalled cell key value) after).2
          | none =>
              .ok made (Store.record (.recalled cell key made)
                { after with memos := after.memos.insert (cell, key) made }).2 := by
  rw [recalling, Run.bind_of_ok (Run.get_apply store)]
  simp only [unknown, bind, EStateM.bind, liftM, monadLift, MonadLift.monadLift, Run.ofStep_apply,
    Run.get_apply]
  rcases make (Store.record (.computed cell key) store).2 with ⟨made, after⟩ | ⟨failure, after⟩
  · cases known : after.memos.find? (cell, key) with
    | some value => simp only [known]; rfl
    | none => simp only [known]; rfl
  · rfl

/-- The stub a strategy makes for a type at a site. -/
def produce (host : Host) : Strategy → Site → TypeExpr → Run Value
  | .defaultValue, site, type =>
      match type.defaultContent? with
      | some content => Store.create content
      | none => giveUp site type
  | .constant expected value, site, type =>
      if type.unwrapsTo expected then return value else giveUp site type
  | .supplied cell expected supplier, site, type =>
      if type.unwrapsTo expected then do
        let number ← Store.nextNumber cell
        (supplier site number).run host
      else giveUp site type
  | .nullValue, site, type => if acceptsNull type then return .null else giveUp site type
  | .optional mode, site, type => produceOptional host mode site type
  | .collection c build size, site, type =>
      produceCollection host c build (size.at site) site type
  | .map c build size, site, type => produceMap host c build (size.at site) site type
  | .array size, site, type => produceArray host (size.at site) site type
  | .constructor cell selector, site, type => produceByConstructor host cell selector site type
  | .factoryMethod cell selector, site, type => produceByMethod host cell selector site type
  | .enumValue selector, site, type => do
      match ← chosenConstant selector site type with
      | some value => return value
      | none => giveUp site type
  | .implementation target substitute, site, type =>
      if type.unwrapsTo target then host.request ⟨substitute, site⟩ else giveUp site type
  | .chain, site, type =>
      if type.unwrapsTo (.plain Class.chain) then Store.create (.chain host.length)
      else giveUp site type
  | .memoizing cell inner discriminator, site, type =>
      recalling cell (discriminator.key site type) (produce host inner site.memoizing type)
  | .conditional inner _, site, type => produce host inner site type
  | .enhancing inner enhancer, site, type => do
      let value ← produce host inner site type
      enhancer.enhance host site type value

end Strategy
end TestData
