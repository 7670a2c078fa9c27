import TestData.Strategy.Inject

namespace TestData

/-!
# Filling fields one after the other

A field injector goes through the fields of an object in the order of the hierarchy.  For each
field that matches it requests a value, at a site of its own below that of the object, and hands
the value to the setter before it goes on.  The first field that cannot be set is where it ends:
what was set before stays set, and nothing is requested or set behind it.
-/

namespace Enhancer

/-- The request for what a field is to hold: its type, with what the variables stand for. -/
def fieldRequest (bindings : Bindings) (site : Site) (f : Field) : Request :=
  ⟨bindings.resolve f.type, .child (.injectedField f) site⟩

section

variable (host : Host) (matcher : Matcher Field) (bindings : Bindings) (site : Site)
  (type : TypeExpr) (target : Value)

/-- A field is set: its value was requested, and the setter took it. -/
inductive Sets (f : Field) (value : Value) (store : Store) : Store → Prop where
  | intro {between : Store} {setter : FieldSetter} {entry : Option Entry}
      (given : host.request (fieldRequest bindings site f) store = .ok value between)
      (declared : f.declaration.setter = some setter)
      (taken : setter target value = .ok entry) :
      Sets f value store (Store.carryOutSetter (.ok entry) between).2

/-- A field is not set: its value was refused, it has no setter, or the setter failed. -/
inductive Breaks (f : Field) (store : Store) : Failure → Store → Prop where
  | unanswered {failure : Failure} {after : Store}
      (refused : host.request (fieldRequest bindings site f) store = .error failure after) :
      Breaks f store failure after
  | noSetter {value : Value} {after : Store}
      (given : host.request (fieldRequest bindings site f) store = .ok value after)
      (missing : f.declaration.setter = none) :
      Breaks f store (.error (.produce type (.child (.injectedField f) site)
        ("cannot set " ++ f.display ++ ": " ++ ("field " ++ f.display ++ " has no setter")))) after
  | setterFails {value : Value} {after : Store} {setter : FieldSetter} {message : String}
      (given : host.request (fieldRequest bindings site f) store = .ok value after)
      (declared : f.declaration.setter = some setter)
      (refused : setter target value = .error message) :
      Breaks f store (.error (.produce type (.child (.injectedField f) site)
        ("cannot set " ++ f.display ++ ": " ++ message))) after

/-- All fields that match are set, one after the other, and the other ones are passed over. -/
inductive FillsInTurn : List Field → List (Field × Value) → Store → Store → Prop where
  | done (store : Store) : FillsInTurn [] [] store store
  | passed {f : Field} {rest : List Field} {filled : List (Field × Value)} {store after : Store}
      (mismatch : (matcher site f).holds = false)
      (later : FillsInTurn rest filled (Store.heed (matcher site f) store).2 after) :
      FillsInTurn (f :: rest) filled store after
  | set {f : Field} {rest : List Field} {value : Value} {filled : List (Field × Value)}
      {store between after : Store} (matched : (matcher site f).holds = true)
      (sets : Sets host bindings site target f value (Store.heed (matcher site f) store).2 between)
      (later : FillsInTurn rest filled between after) :
      FillsInTurn (f :: rest) ((f, value) :: filled) store after

end

variable {host : Host} {matcher : Matcher Field} {bindings : Bindings} {site : Site}
  {type : TypeExpr} {target value : Value} {f : Field} {fields earlier later : List Field}
  {filled : List (Field × Value)} {store between after : Store} {failure : Failure}

/-- Each field that matches is set once, in the order of the fields. -/
theorem FillsInTurn.fields_eq
    (fills : FillsInTurn host matcher bindings site target fields filled store after) :
    filled.map Prod.fst = fields.filter fun f => (matcher site f).holds := by
  induction fills with
  | done store => rfl
  | passed mismatch later ih =>
      simp only [List.filter_cons, mismatch, ih, Bool.false_eq_true, if_false]
  | set matched sets later ih =>
      simp only [List.filter_cons, matched, ih, List.map_cons, if_true]

/-! ## One field -/

/-- A field that matches is set, or it is not. -/
theorem sets_or_breaks (host : Host) (bindings : Bindings) (site : Site) (type : TypeExpr)
    (target : Value) (f : Field) (store : Store) :
    (∃ value after, Sets host bindings site target f value store after) ∨
      ∃ failure after, Breaks host bindings site type target f store failure after := by
  cases given : host.request (fieldRequest bindings site f) store with
  | error failure after => exact .inr ⟨failure, after, .unanswered given⟩
  | ok value between =>
      cases declared : f.declaration.setter with
      | none => exact .inr ⟨_, between, .noSetter given declared⟩
      | some setter =>
          cases taken : setter target value with
          | ok entry => exact .inl ⟨value, _, .intro given declared taken⟩
          | error message => exact .inr ⟨_, between, .setterFails given declared taken⟩

theorem fillFields_of_mismatch (mismatch : (matcher site f).holds = false) (rest : List Field)
    (store : Store) :
    fillFields host matcher bindings site type target (f :: rest) store =
      fillFields host matcher bindings site type target rest
        (Store.heed (matcher site f) store).2 := by
  have judged : Run.ofStep (Store.heed (matcher site f)) store =
      .ok false (Store.heed (matcher site f) store).2 := by
    rw [Run.ofStep_apply, ← mismatch]
    rfl
  exact Run.bind_of_ok judged

/-- What is left to do with a field that matches, and with those behind it. -/
theorem fillFields_of_match (matched : (matcher site f).holds = true) (rest : List Field)
    (store : Store) :
    fillFields host matcher bindings site type target (f :: rest) store =
      (do
        let value ← host.request (fieldRequest bindings site f)
        match ← Run.ofStep (Store.carryOutSetter (f.assign target value)) with
        | .ok () => fillFields host matcher bindings site type target rest
        | .error message =>
            Run.fail (.produce type (.child (.injectedField f) site)
              ("cannot set " ++ f.display ++ ": " ++ message)) : Run Unit)
        (Store.heed (matcher site f) store).2 := by
  have judged : Run.ofStep (Store.heed (matcher site f)) store =
      .ok true (Store.heed (matcher site f) store).2 := by
    rw [Run.ofStep_apply, ← matched]
    rfl
  exact Run.bind_of_ok judged

theorem fillFields_of_sets (matched : (matcher site f).holds = true)
    (sets : Sets host bindings site target f value (Store.heed (matcher site f) store).2 between)
    (rest : List Field) :
    fillFields host matcher bindings site type target (f :: rest) store =
      fillFields host matcher bindings site type target rest between := by
  cases sets with
  | @intro between setter entry given declared taken =>
      have assigned : Run.ofStep (Store.carryOutSetter (f.assign target value)) between =
          .ok (.ok ()) (Store.carryOutSetter (.ok entry) between).2 := by
        simp only [Field.assign, declared, taken]
        cases entry <;> rfl
      rw [fillFields_of_match matched, Run.bind_of_ok given]
      exact Run.bind_of_ok assigned

theorem fillFields_of_breaks (matched : (matcher site f).holds = true)
    (breaks : Breaks host bindings site type target f (Store.heed (matcher site f) store).2
      failure after) (rest : List Field) :
    fillFields host matcher bindings site type target (f :: rest) store = .error failure after := by
  rw [fillFields_of_match matched]
  cases breaks with
  | unanswered refused => exact Run.bind_of_error refused
  | @noSetter value _ given missing =>
      have assigned : Run.ofStep (Store.carryOutSetter (f.assign target value)) after =
          .ok (.error ("field " ++ f.display ++ " has no setter")) after := by
        simp only [Field.assign, missing]
        rfl
      rw [Run.bind_of_ok given]
      exact Run.bind_of_ok assigned
  | @setterFails value _ setter message given declared refused =>
      have assigned : Run.ofStep (Store.carryOutSetter (f.assign target value)) after =
          .ok (.error message) after := by
        simp only [Field.assign, declared, refused]
        rfl
      rw [Run.bind_of_ok given]
      exact Run.bind_of_ok assigned

/-! ## All fields -/

/-- What has been filled is behind: filling goes on with the other fields. -/
theorem fillFields_append
    (fills : FillsInTurn host matcher bindings site target earlier filled store between)
    (type : TypeExpr) (later : List Field) :
    fillFields host matcher bindings site type target (earlier ++ later) store =
      fillFields host matcher bindings site type target later between := by
  induction fills with
  | done store => rfl
  | passed mismatch _ ih => exact (fillFields_of_mismatch mismatch _ _).trans ih
  | set matched sets _ ih => exact (fillFields_of_sets matched sets _).trans ih

/-- The first field that cannot be set, with what was filled before it and how it fails. -/
def StopsIn (host : Host) (matcher : Matcher Field) (bindings : Bindings) (site : Site)
    (type : TypeExpr) (target : Value) (fields : List Field) (store : Store) (failure : Failure)
    (after : Store) : Prop :=
  ∃ earlier f later filled between, fields = earlier ++ f :: later ∧
    FillsInTurn host matcher bindings site target earlier filled store between ∧
    (matcher site f).holds = true ∧
    Breaks host bindings site type target f (Store.heed (matcher site f) between).2 failure after

/-- By induction on the fields, all of them are filled or there is a first one that fails. -/
theorem fills_or_stops (host : Host) (matcher : Matcher Field) (bindings : Bindings) (site : Site)
    (type : TypeExpr) (target : Value) (fields : List Field) (store : Store) :
    (∃ filled after, FillsInTurn host matcher bindings site target fields filled store after) ∨
      ∃ failure after,
        StopsIn host matcher bindings site type target fields store failure after := by
  induction fields generalizing store with
  | nil => exact .inl ⟨[], store, .done store⟩
  | cons f rest ih =>
      cases judged : (matcher site f).holds with
      | false =>
          rcases ih (Store.heed (matcher site f) store).2 with ⟨filled, after, fills⟩ |
            ⟨failure, after, earlier, g, later, filled, between, split, fills, matched, breaks⟩
          · exact .inl ⟨filled, after, .passed judged fills⟩
          · exact .inr ⟨failure, after, f :: earlier, g, later, filled, between,
              congrArg (f :: ·) split, .passed judged fills, matched, breaks⟩
      | true =>
          rcases sets_or_breaks host bindings site type target f
              (Store.heed (matcher site f) store).2 with
            ⟨value, between, sets⟩ | ⟨failure, after, breaks⟩
          · rcases ih between with ⟨filled, after, fills⟩ |
              ⟨failure, after, earlier, g, later, filled, stopped, split, fills, matched, breaks⟩
            · exact .inl ⟨_, after, .set judged sets fills⟩
            · exact .inr ⟨failure, after, f :: earlier, g, later, _, stopped,
                congrArg (f :: ·) split, .set judged sets fills, matched, breaks⟩
          · exact .inr ⟨failure, after, [], f, rest, [], store, rfl, .done store, judged, breaks⟩

theorem fillFields_of_fills
    (fills : FillsInTurn host matcher bindings site target fields filled store after) :
    fillFields host matcher bindings site type target fields store = .ok () after := by
  have whole := fillFields_append fills type []
  rw [List.append_nil] at whole
  exact whole

theorem fillFields_of_stops
    (stops : StopsIn host matcher bindings site type target fields store failure after) :
    fillFields host matcher bindings site type target fields store = .error failure after := by
  rcases stops with ⟨earlier, f, later, filled, between, rfl, fills, matched, breaks⟩
  rw [fillFields_append fills]
  exact fillFields_of_breaks matched breaks later

theorem fillFields_ok_iff :
    fillFields host matcher bindings site type target fields store = .ok () after ↔
      ∃ filled, FillsInTurn host matcher bindings site target fields filled store after := by
  constructor
  · intro outcome
    rcases fills_or_stops host matcher bindings site type target fields store with
      ⟨filled, last, fills⟩ | ⟨failure, last, stops⟩
    · cases (fillFields_of_fills fills).symm.trans outcome
      exact ⟨filled, fills⟩
    · cases (fillFields_of_stops stops).symm.trans outcome
  · rintro ⟨filled, fills⟩
    exact fillFields_of_fills fills

theorem fillFields_error_iff :
    fillFields host matcher bindings site type target fields store = .error failure after ↔
      StopsIn host matcher bindings site type target fields store failure after := by
  constructor
  · intro outcome
    rcases fills_or_stops host matcher bindings site type target fields store with
      ⟨filled, last, fills⟩ | ⟨cause, last, stops⟩
    · cases (fillFields_of_fills fills).symm.trans outcome
    · cases (fillFields_of_stops stops).symm.trans outcome
      exact stops
  · exact fillFields_of_stops

/-! ## Injection -/

variable {c : Class}

/-- Injection into an object of a class fills the fields, and hands back the object. -/
theorem enhance_injectFields (raw : type.rawType = some c)
    (binds : Bindings.ofType host.depth type = .ok bindings) (present : value.isNull = false)
    (matcher : Matcher Field) (site : Site) (store : Store) :
    enhance host site type value (.injectFields matcher) store =
      match fillFields host matcher bindings site type value c.instanceFields store with
      | .ok () after => .ok value after
      | .error failure after => .error failure after := by
  unfold enhance
  rw [raw, binds, present]
  show (fillFields host matcher bindings site type value c.instanceFields >>= _) store = _
  cases outcome : fillFields host matcher bindings site type value c.instanceFields store with
  | ok result after => exact Run.bind_of_ok outcome
  | error failure after => exact Run.bind_of_error outcome

theorem enhance_ok_iff {result : Value} (raw : type.rawType = some c)
    (binds : Bindings.ofType host.depth type = .ok bindings) (present : value.isNull = false) :
    enhance host site type value (.injectFields matcher) store = .ok result after ↔
      result = value ∧ ∃ filled,
        FillsInTurn host matcher bindings site value c.instanceFields filled store after := by
  rw [enhance_injectFields raw binds present]
  constructor
  · intro outcome
    cases ends : fillFields host matcher bindings site type value c.instanceFields store with
    | ok nothing last =>
        rw [ends] at outcome
        cases outcome
        exact ⟨rfl, fillFields_ok_iff.mp ends⟩
    | error failure last =>
        rw [ends] at outcome
        cases outcome
  · rintro ⟨rfl, filled, fills⟩
    rw [fillFields_of_fills fills]

theorem enhance_error_iff (raw : type.rawType = some c)
    (binds : Bindings.ofType host.depth type = .ok bindings) (present : value.isNull = false) :
    enhance host site type value (.injectFields matcher) store = .error failure after ↔
      StopsIn host matcher bindings site type value c.instanceFields store failure after := by
  rw [enhance_injectFields raw binds present]
  constructor
  · intro outcome
    cases ends : fillFields host matcher bindings site type value c.instanceFields store with
    | ok nothing last =>
        rw [ends] at outcome
        cases outcome
    | error cause last =>
        rw [ends] at outcome
        cases outcome
        exact fillFields_error_iff.mp ends
  · intro stops
    rw [fillFields_of_stops stops]

/--
What a field injector makes of null, and of what has a type without a class, is the same value.
Of any other object the matching fields are filled, the fields of the classes of its hierarchy in
their order, and the same object is handed back; or the first of these fields that cannot be set is
where it ends.
-/
theorem fields_injected_in_turn (host : Host) (site : Site) (type : TypeExpr) (value : Value)
    (matcher : Matcher Field) (store : Store) :
    (value.isNull = true ∨ type.rawType = none →
      enhance host site type value (.injectFields matcher) store = .ok value store) ∧
    ∀ c, value.isNull = false → type.rawType = some c →
      (∀ exhausted, Bindings.ofType host.depth type = .error exhausted →
        enhance host site type value (.injectFields matcher) store = .error .exhausted store) ∧
      ∀ bindings, Bindings.ofType host.depth type = .ok bindings →
        (∀ result after,
          enhance host site type value (.injectFields matcher) store = .ok result after ↔
            result = value ∧ ∃ filled,
              filled.map Prod.fst = c.instanceFields.filter (fun f => (matcher site f).holds) ∧
              FillsInTurn host matcher bindings site value c.instanceFields filled store after) ∧
        ∀ failure after,
          enhance host site type value (.injectFields matcher) store = .error failure after ↔
            ∃ earlier f later filled between, c.instanceFields = earlier ++ f :: later ∧
              filled.map Prod.fst = earlier.filter (fun f => (matcher site f).holds) ∧
              FillsInTurn host matcher bindings site value earlier filled store between ∧
              (matcher site f).holds = true ∧
              Breaks host bindings site type value f (Store.heed (matcher site f) between).2
                failure after := by
  refine ⟨?untouched, fun c present raw => ⟨?tooDeep, fun bindings binds => ⟨?filled, ?stopped⟩⟩⟩
  case untouched =>
    rintro (null | noClass)
    · unfold enhance
      rw [null]
      rfl
    · unfold enhance
      rw [noClass]
      cases value.isNull <;> rfl
  case tooDeep =>
    intro exhausted deep
    unfold enhance
    rw [raw, deep, present]
    rfl
  case filled =>
    intro result after
    rw [enhance_ok_iff raw binds present]
    constructor
    · rintro ⟨same, filled, fills⟩
      exact ⟨same, filled, fills.fields_eq, fills⟩
    · rintro ⟨same, filled, -, fills⟩
      exact ⟨same, filled, fills⟩
  case stopped =>
    intro failure after
    rw [enhance_error_iff raw binds present]
    constructor
    · rintro ⟨earlier, f, later, filled, between, split, fills, matched, breaks⟩
      exact ⟨earlier, f, later, filled, between, split, fills.fields_eq, fills, matched, breaks⟩
    · rintro ⟨earlier, f, later, filled, between, split, -, fills, matched, breaks⟩
      exact ⟨earlier, f, later, filled, between, split, fills, matched, breaks⟩

/-- A generic class with a field of the type of its parameter. -/
def basket : Class where
  name := "Basket"
  kind := .abstract
  typeParameters := ["T"]
  fieldDeclarations := [
    { name := "content"
      type := .var ⟨"Basket", "T"⟩ []
      setter := some (Invoker.recordingSetter "content") }]

/-- A basket for fruit, with a ribbon, and with a tag that cannot be set. -/
def gift : Class where
  name := "Gift"
  kind := .concrete
  superclass := some (.parameterized basket [.plain (.named "Fruit")])
  fieldDeclarations := [
    { name := "count", type := .plain (.named "Number"), isStatic := true },
    { name := "ribbon"
      type := .plain (.named "Ribbon")
      setter := some (Invoker.recordingSetter "ribbon") },
    { name := "tag", type := .plain (.named "Tag") }]

/-- A host that answers each request with the name of the type that is wanted. -/
def writer : Host where
  resolve wanted := do return some (← Store.create (.text wanted.type.display))
  length := 1
  depth := 4

/-- A gift gets its ribbon before the fruit it is for, or ends with the ribbon on if tags count. -/
theorem gift_filled :
    let wrapped : Value := .object 0 (.made "Gift" "new" [])
    let settable : Matcher Field := .ofPredicate Field.isSettable
    (∃ after,
      enhance writer .unknown (.plain gift) wrapped (.injectFields settable) { nextIdentity := 1 } =
        .ok wrapped after ∧
      after.notesOf 0 = [⟨.set, "ribbon", [.object 1 (.text "Ribbon")]⟩,
        ⟨.set, "content", [.object 2 (.text "Fruit")]⟩]) ∧
    ∃ failure after,
      enhance writer .unknown (.plain gift) wrapped (.injectFields .any) { nextIdentity := 1 } =
        .error failure after ∧
      after.notesOf 0 = [⟨.set, "ribbon", [.object 1 (.text "Ribbon")]⟩] := by
  intro wrapped settable
  constructor
  · have injected := (fields_injected_in_turn writer .unknown (.plain gift) wrapped settable
      { nextIdentity := 1 }).2 gift rfl rfl
    have completes := fun after => ((injected.2 _ rfl).1 wrapped after).mpr
    exact ⟨_, completes _ ⟨rfl, _, rfl, .set rfl (.intro rfl rfl rfl)
      (.passed rfl (.set rfl (.intro rfl rfl rfl) (.done _)))⟩, rfl⟩
  · have injected := (fields_injected_in_turn writer .unknown (.plain gift) wrapped .any
      { nextIdentity := 1 }).2 gift rfl rfl
    have stops := fun failure after => ((injected.2 _ rfl).2 failure after).mpr
    exact ⟨_, _, stops _ _ ⟨[_], _, _, _, _, rfl, rfl, .set rfl (.intro rfl rfl rfl) (.done _),
      rfl, .noSetter rfl rfl⟩, rfl⟩

end Enhancer
end TestData
