import TestData.Proofs.Precedence
import TestData.Proofs.Termination.Presets
import TestData.Proofs.Termination.Unending

namespace TestData

/-!
# Resolutions that end

Whatever a new ready-made chain is asked for within an orderly graph, one request after
the other, a depth above the weights of the requested types suffices.  None of the
conditions can be left out: a captured variable, a class below a type variable and a
factory method that returns a wildcard each make for a resolution that never ends.
-/

open Run

namespace Chain

/-- What requests come to at a chain, one after the other, each within the same depth. -/
def outcomes (chain : Chain) (depth : Nat) :
    List Request → Store → List (EStateM.Result Failure Store (Option Value))
  | [], _ => []
  | wanted :: rest, store =>
      let outcome := chain.resolveWithin depth wanted store
      outcome :: chain.outcomes depth rest (Run.left outcome)

end Chain

/-- Nothing was settled on in cells that were not handed out. -/
structure Store.Tidy (store : Store) : Prop where
  constructors {cell : Cell} {name : String} :
    store.nextCell ≤ cell.number → store.constructors.find? (cell, name) = none
  methods {cell : Cell} {name : String} :
    store.nextCell ≤ cell.number → store.methods.find? (cell, name) = none

variable {graph : ClassGraph} {fresh : Nat}

theorem Course.ends_of_settling {α : Type} {computation : Run α} {store : Store}
    (kept : (Course.settling graph fresh).Keeps computation store)
    (settled : store.Settled graph fresh) :
    ¬ Run.RunsOut (computation store) ∧ (Run.left (computation store)).Settled graph fresh := by
  unfold Course.Keeps at kept
  cases outcome : computation store with
  | ok result after =>
      rw [outcome] at kept
      refine ⟨?_, kept settled⟩
      rintro ⟨last, ⟨⟩⟩
  | error failure after =>
      rw [outcome] at kept
      rcases kept settled with ⟨ends, left⟩
      refine ⟨?_, left⟩
      rintro ⟨last, ⟨⟩⟩
      exact ends rfl

theorem Chain.ends_of_mem_outcomes {chain : Chain} (tame : chain.AllTame fresh)
    (orderly : graph.Orderly) {depth : Nat} {requests : List Request}
    (within : ∀ wanted ∈ requests, wanted.type.Within graph.contains)
    (uncaptured : ∀ wanted ∈ requests, graph.Uncaptured wanted.type)
    (deep : ∀ wanted ∈ requests, wanted.type.weight 0 + 1 < depth) {store : Store}
    (settled : store.Settled graph fresh) :
    ∀ outcome ∈ chain.outcomes depth requests store, ¬ Run.RunsOut outcome := by
  induction requests generalizing store with
  | nil => exact fun _ member => nomatch member
  | cons wanted rest ih =>
      have served := Course.settling_serves tame orderly (uncaptured wanted List.mem_cons_self)
        ⟨.start, within wanted List.mem_cons_self, Nat.lt_succ_self _⟩
        (deep wanted List.mem_cons_self) wanted.site
      rcases Course.ends_of_settling (served.resolve store) settled with ⟨ends, left⟩
      have later := ih (fun other member => within other (List.mem_cons_of_mem wanted member))
        (fun other member => uncaptured other (List.mem_cons_of_mem wanted member))
        (fun other member => deep other (List.mem_cons_of_mem wanted member)) left
      intro outcome member
      rcases List.mem_cons.mp member with rfl | behind
      · exact ends
      · exact later outcome behind

/--
A new ready-made chain answers every list of requests from an orderly graph, provided
that no variable is captured: a depth above the weights of the requested types suffices,
and so does every greater depth.
-/
theorem ready_made_chain_ends (orderly : graph.Orderly) {make : Step Chain}
    (readyMade : Chain.ReadyMade make) {before : Store} (tidy : before.Tidy)
    {requests : List Request} (within : ∀ wanted ∈ requests, wanted.type.Within graph.contains)
    (uncaptured : ∀ wanted ∈ requests, graph.Uncaptured wanted.type) :
    ∃ enough, ∀ depth, enough ≤ depth →
      ∀ outcome ∈ (make before).1.outcomes depth requests (make before).2, ¬ Run.RunsOut outcome := by
  rcases readyMade.prepares before (Nat.le_refl before.nextCell)
    with ⟨tame, _, constructors, methods⟩
  have settled : (make before).2.Settled graph before.nextCell := by
    constructor
    · intro cell name k unused known
      rw [constructors, tidy.constructors unused] at known
      cases known
    · intro cell name m unused known
      rw [methods, tidy.methods unused] at known
      cases known
  refine ⟨TypeExpr.weightAll (requests.map Request.type) 0 + 2, fun depth enough => ?_⟩
  refine Chain.ends_of_mem_outcomes tame orderly within uncaptured (fun wanted member => ?_) settled
  have lighter := TypeExpr.weight_le_weightAll (List.mem_map_of_mem (f := Request.type) member) 0
  omega

/-! ### A list of which the next node is known by name -/

namespace Class

/-- A list node: a value and the next node, of which only the name is known. -/
def node : Class where
  name := "Node"
  kind := .concrete
  typeParameters := ["T"]
  constructorDeclarations := [{
    parameters := [
      { name := "value", type := .var ⟨"Node", "T"⟩ [] },
      { name := "next", type := .parameterized (named "Node") [.var ⟨"Node", "T"⟩ []] }] }]

end Class

namespace TypeExpr

def nodeOfUnit : TypeExpr :=
  .parameterized Class.node [.plain Class.unit]

/-- A type can be seen as nothing but itself if the target is not above its class. -/
theorem eq_of_asSupertype {type seen : TypeExpr} {raw target : Class} {depth : Nat}
    (behind : type.rawType = some raw)
    (unrelated : target.name ≠ raw.name → target.isAssignableFrom raw = false)
    (viewed : type.asSupertype depth target = .ok (some seen)) : seen = type := by
  rw [asSupertype, behind] at viewed
  dsimp only at viewed
  by_cases same : (raw == target) = true
  · rw [if_pos same] at viewed
    cases viewed
    rfl
  · have different : target.name ≠ raw.name :=
      fun equal => same (Class.beq_iff_name_eq.mpr equal.symm)
    rw [if_neg same, unrelated different] at viewed
    cases viewed

end TypeExpr

/-- What has another name and is above no supertype is not above a class. -/
theorem Class.not_isAssignableFrom {expected c : Class} (name : expected.name ≠ c.name)
    (top : expected.name ≠ object.name) (noArray : c.component? = none)
    (above : ∀ d ∈ c.rawSupertypes, expected.isAssignableFrom d = false) :
    expected.isAssignableFrom c = false := by
  have different : (expected == c) = false :=
    Bool.eq_false_iff.mpr fun equal => name (beq_iff_name_eq.mp equal)
  have notTop : (expected == object) = false :=
    Bool.eq_false_iff.mpr fun equal => top (beq_iff_name_eq.mp equal)
  have none : c.rawSupertypes.any expected.isAssignableFrom = false :=
    List.any_eq_false.mpr fun d member => Bool.eq_false_iff.mp (above d member)
  rw [isAssignableFrom_eq, different, notTop, noArray, none]
  cases expected.component? <;> cases c.isPrimitive <;> rfl

/-- Where there is nothing above a class, its types can be seen as nothing but themselves. -/
theorem TypeExpr.eq_of_asSupertype_highest {type seen : TypeExpr} {raw target : Class} {depth : Nat}
    (behind : type.rawType = some raw) (highest : raw.rawSupertypes = [])
    (noArray : raw.component? = none) (top : target.name ≠ Class.object.name)
    (viewed : type.asSupertype depth target = .ok (some seen)) : seen = type := by
  refine eq_of_asSupertype behind (fun name => ?_) viewed
  refine Class.not_isAssignableFrom name top noArray fun d above => ?_
  rw [highest] at above
  cases above

/-- The name of an array class starts with a bracket. -/
theorem Class.name_arrayOf_ne {component : Class} {name : String}
    (plain : name.toList.head? ≠ some '[') : component.arrayOf.name ≠ name := by
  rintro rfl
  apply plain
  simp [arrayOf]

namespace ClassGraph

def nodes : ClassGraph where
  contains c := c = Class.node ∨ c = Class.named "Node" ∨ c = Class.unit
  closed := by
    rintro c (rfl | rfl | rfl) type mentioned
    · change type ∈ [_, _] at mentioned
      rcases List.mem_cons.mp mentioned with rfl | next
      · exact .var _ _
      · cases List.mem_singleton.mp next
        refine .parameterized (.member (Or.inr (Or.inl rfl))) fun argument member => ?_
        cases List.mem_singleton.mp member
        exact .var _ _
    · cases mentioned
    · cases mentioned

theorem nodes_orderly : nodes.Orderly where
  consistent := by
    rintro c d (rfl | rfl | rfl) (rfl | rfl | rfl) name (made | called) (madeToo | calledToo) <;>
      first | rfl | contradiction
  supertypes := by
    rintro c (rfl | rfl | rfl) type declared <;> cases declared
  returns := by
    rintro c (rfl | rfl | rfl) m declared <;> cases declared

theorem nodes_top {target : Class} (within : target.Within nodes.contains) :
    target.name ≠ Class.object.name := by
  cases within with
  | member member => rcases member with rfl | rfl | rfl <;> decide
  | arrayOf within => exact Class.name_arrayOf_ne (by decide)

theorem nodes_comesUp {type : TypeExpr} (comesUp : nodes.ComesUp .nodeOfUnit type) :
    type = .nodeOfUnit ∨ type = .plain Class.unit ∨
      type = .parameterized (Class.named "Node") [.plain Class.unit] := by
  induction comesUp with
  | start => exact Or.inl rfl
  | part whole member ih =>
      rcases ih with rfl | rfl | rfl
      · exact Or.inr (Or.inl (List.mem_singleton.mp member))
      · cases member
      · exact Or.inr (Or.inl (List.mem_singleton.mp member))
  | @view type seen target depth seeing within viewed ih =>
      have top := nodes_top within
      have same : seen = type := by
        rcases ih with rfl | rfl | rfl <;>
          exact TypeExpr.eq_of_asSupertype_highest rfl rfl rfl top viewed
      exact same ▸ ih
  | @constructorParameter type c k depth bindings parameter _ constructed usable bound taken ih =>
      rcases ih with rfl | rfl | rfl
      · cases constructed
        cases List.mem_singleton.mp usable
        cases depth with
        | zero => cases bound
        | succ depth =>
            cases bound
            change parameter ∈ [_, _] at taken
            rcases List.mem_cons.mp taken with rfl | next
            · exact Or.inr (Or.inl rfl)
            · cases List.mem_singleton.mp next
              exact Or.inr (Or.inr rfl)
      · cases constructed
      · cases constructed
  | @methodParameter type c m depth own bindings parameter _ manufactured usable bound fitted taken ih =>
      rcases ih with rfl | rfl | rfl <;> cases manufactured

theorem nodes_uncaptured : nodes.Uncaptured .nodeOfUnit := by
  intro type comesUp depth
  rcases nodes_comesUp comesUp with rfl | rfl | rfl <;> cases depth <;> rfl

theorem within_nodes : TypeExpr.nodeOfUnit.Within nodes.contains := by
  refine .parameterized (.member (Or.inl rfl)) fun argument member => ?_
  cases List.mem_singleton.mp member
  exact .plain (.member (Or.inr (Or.inr rfl)))

end ClassGraph

/-- A list is served although its class names itself, and served again after that. -/
theorem node_requests_end :
    ClassGraph.nodes.Orderly ∧ ClassGraph.nodes.Uncaptured .nodeOfUnit ∧
    ∃ enough, ∀ depth, enough ≤ depth → ∀ outcome ∈ (Chain.full {}).1.outcomes depth
      (List.replicate 2 ⟨.nodeOfUnit, .unknown⟩) (Chain.full {}).2, ¬ RunsOut outcome := by
  refine ⟨ClassGraph.nodes_orderly, ClassGraph.nodes_uncaptured, ?_⟩
  refine ready_made_chain_ends ClassGraph.nodes_orderly .full ⟨fun _ => rfl, fun _ => rfl⟩ ?_ ?_
  · intro wanted member
    cases (List.mem_replicate.mp member).2
    exact ClassGraph.within_nodes
  · intro wanted member
    cases (List.mem_replicate.mp member).2
    exact ClassGraph.nodes_uncaptured

/-! ## What the full chain does with a class it does not know -/

namespace Chain

/-- The strategies that the full chain asks before it looks for a factory method. -/
def beforeFactoryMethod (before : Store) : List Strategy :=
  let n := before.nextCell
  let o := before.nextIdentity
  [.supplied ⟨n + 8⟩ (.plain Class.duration) fun _ _ => .giveNew (.duration 0),
   .supplied ⟨n + 7⟩ (.plain Class.systemTime) fun _ _ => .giveNew (.instant 0),
   .supplied ⟨n + 6⟩ (.plain Class.atomicUsize) fun _ _ => .giveNew (.atomicNumber .usize 0),
   .supplied ⟨n + 5⟩ (.plain Class.atomicI64) fun _ _ => .giveNew (.atomicNumber .i64 0),
   .supplied ⟨n + 4⟩ (.plain Class.atomicI32) fun _ _ => .giveNew (.atomicNumber .i32 0),
   .supplied ⟨n + 3⟩ (.plain Class.atomicBool) fun _ _ => .giveNew (.atomicFlag false),
   .constant (.plain Class.string) (.object (o + 2) (.text "")),
   .constant (.plain Class.unit) (.object (o + 1) .unit),
   .constant (.plain Class.object) (.object o .unit),
   .chain]

/-- The strategies that the full chain asks if there is no factory method. -/
def afterFactoryMethod (before : Store) : List Strategy :=
  [.constructor ⟨before.nextCell + 1⟩ (.unique Matcher.isDefaultConstructor.negate),
   .constructor ⟨before.nextCell⟩ (.unique Matcher.isDefaultConstructor)]
    ++ (Strategy.defaultCollections 1).reverse
    ++ [.optional .present, .array (.fixed 0), .enumValue .first, .defaultValue]

/-- The strategies for containers, arrays, enums and primitives, which are asked last. -/
def afterConstructors : List Strategy :=
  (Strategy.defaultCollections 1).reverse
    ++ [.optional .present, .array (.fixed 0), .enumValue .first, .defaultValue]

theorem afterFactoryMethod_eq (before : Store) :
    afterFactoryMethod before =
      .constructor ⟨before.nextCell + 1⟩ (.unique Matcher.isDefaultConstructor.negate) ::
        .constructor ⟨before.nextCell⟩ (.unique Matcher.isDefaultConstructor) ::
          afterConstructors := rfl

theorem full_strategies (before : Store) :
    (full before).1.strategies = beforeFactoryMethod before ++
      .factoryMethod ⟨before.nextCell + 2⟩ (.unique Matcher.any) :: afterFactoryMethod before :=
  rfl

/-- The classes of which the full chain knows a value before it looks at members. -/
def servedByName : List Class :=
  [Class.duration, Class.systemTime, Class.atomicUsize, Class.atomicI64, Class.atomicI32,
   Class.atomicBool, Class.string, Class.unit, Class.object, Class.chain]

/-- The type is used as this class or as an application of it, and the class has no known value. -/
structure Unserved (c : Class) (type : TypeExpr) : Prop where
  unknown : c.name ∉ servedByName.map Class.name
  front : type.unwrap = some (.plain c) ∨
    ∃ arguments, type.unwrap = some (.parameterized c arguments)

variable {c : Class} {type : TypeExpr}

theorem Unserved.unwrapsTo (unserved : Unserved c type) {d : Class} (member : d ∈ servedByName) :
    type.unwrapsTo (.plain d) = false := by
  rw [TypeExpr.unwrapsTo]
  rcases unserved.front with plain | ⟨arguments, applied⟩
  · rw [plain]
    refine Bool.eq_false_iff.mpr fun same => unserved.unknown ?_
    have names := TypeKey.plain.inj (TypeExpr.beq_iff_key_eq.mp same)
    exact List.mem_map.mpr ⟨d, member, names.symm⟩
  · rw [applied]
    refine Bool.eq_false_iff.mpr fun same => ?_
    have keys := TypeExpr.beq_iff_key_eq.mp same
    cases keys

theorem beforeFactoryMethod_decline (unserved : Unserved c type) (before : Store) (site : Site) :
    ∀ strategy ∈ beforeFactoryMethod before, strategy.accepts site type = pure false := by
  have declines : ∀ d ∈ servedByName, type.unwrapsTo (.plain d) = false :=
    fun d member => unserved.unwrapsTo member
  simp only [servedByName, List.forall_mem_cons] at declines
  simp [beforeFactoryMethod, Strategy.accepts, declines]

/-- Then it looks for a factory method, and next for a constructor with parameters. -/
theorem firstAccepting_full (unserved : Unserved c type) (site : Site) :
    firstAccepting (full {}).1.strategies ⟨type, site⟩ =
      firstAccepting (.factoryMethod ⟨2⟩ (.unique Matcher.any) ::
        .constructor ⟨1⟩ (.unique Matcher.isDefaultConstructor.negate) ::
        (full {}).1.strategies.drop 12) ⟨type, site⟩ := by
  rw [full_strategies, firstAccepting_of_passed (beforeFactoryMethod_decline unserved {} site)]
  rfl

variable {first : Parameter} {rest : List Parameter} {depth : Nat} {site : Site} {store : Store}

theorem runsOut_full_of_constructor {k : Constructor} (unserved : Unserved c type)
    (unmanufactured : Strategy.manufacturedClass? type = none)
    (constructed : Strategy.constructedClass? type = some c) (only : c.usableConstructors = [k])
    (takes : k.isDefault = false) (taken : k.parameters = first :: rest)
    (settles : ∀ choice, store.constructors.find? (⟨1⟩, c.name) = some choice → choice = some k)
    (out : ∀ after bindings, after.constructors.find? (⟨1⟩, c.name) = some (some k) →
      Bindings.ofType depth type = .ok bindings → ∀ site,
      RunsOut ((full {}).1.resolveWithin depth ⟨bindings.resolve first.type, site⟩ after)) :
    RunsOut ((full {}).1.resolveFor ((full {}).1.hostWithin depth) ⟨type, site⟩ store) := by
  obtain ⟨accepted, chosen, known⟩ := Strategy.chosenConstructor_only constructed only takes
    (Store.record (.requested type site) store).2 settles site
  have byMethod : (Strategy.factoryMethod ⟨2⟩ (.unique Matcher.any)).accepts site type
      (Store.record (.requested type site) store).2
        = (false, (Store.record (.requested type site) store).2) := by
    rw [Strategy.accepts, Strategy.chosenMethod, unmanufactured]
    rfl
  have byConstructor : (Strategy.constructor ⟨1⟩
      (.unique Matcher.isDefaultConstructor.negate)).accepts site type
        (Store.record (.requested type site) store).2 = (true, accepted) := by
    simp only [Strategy.accepts, bind, StateT.bind, chosen]
    rfl
  have found : firstAccepting (full {}).1.strategies ⟨type, site⟩
      (Store.record (.requested type site) store).2 =
        (some (.constructor ⟨1⟩ (.unique Matcher.isDefaultConstructor.negate)), accepted) := by
    rw [firstAccepting_full unserved, firstAccepting_of_declines byMethod]
    exact firstAccepting_of_accepts byConstructor _
  obtain ⟨after, again, still⟩ := Strategy.chosenConstructor_only constructed only takes accepted
    (fun choice same => Option.some.inj (same.symm.trans known)) site
  refine runsOut_resolveFor found (Strategy.runsOut_produceByConstructor again taken ?_)
  exact fun bindings bound site => out after bindings still bound site

theorem runsOut_full_of_method {m : Method} (unserved : Unserved c type)
    (manufactured : Strategy.manufacturedClass? type = some c) (only : c.factoryMethods = [m])
    (taken : m.parameters = first :: rest)
    (settles : ∀ choice, store.methods.find? (⟨2⟩, c.name) = some choice → choice = some m)
    (out : ∀ after own bindings, after.methods.find? (⟨2⟩, c.name) = some (some m) →
      Bindings.ofType depth type = .ok own → own.bind depth m.returnType type = .ok bindings →
      ∀ site, RunsOut ((full {}).1.resolveWithin depth ⟨bindings.resolve first.type, site⟩ after)) :
    RunsOut ((full {}).1.resolveFor ((full {}).1.hostWithin depth) ⟨type, site⟩ store) := by
  obtain ⟨accepted, chosen, known⟩ := Strategy.chosenMethod_only manufactured only
    (Store.record (.requested type site) store).2 settles site
  have byMethod : (Strategy.factoryMethod ⟨2⟩ (.unique Matcher.any)).accepts site type
      (Store.record (.requested type site) store).2 = (true, accepted) := by
    simp only [Strategy.accepts, bind, StateT.bind, chosen]
    rfl
  have found : firstAccepting (full {}).1.strategies ⟨type, site⟩
      (Store.record (.requested type site) store).2 =
        (some (.factoryMethod ⟨2⟩ (.unique Matcher.any)), accepted) := by
    rw [firstAccepting_full unserved]
    exact firstAccepting_of_accepts byMethod _
  obtain ⟨after, again, still⟩ := Strategy.chosenMethod_only manufactured only accepted
    (fun choice same => Option.some.inj (same.symm.trans known)) site
  refine runsOut_resolveFor found (Strategy.runsOut_produceByMethod again taken ?_)
  exact fun own bindings bound fitted site => out after own bindings still bound fitted site

end Chain

/-! ### A captured variable -/

namespace Class

def pairConstructor : ConstructorDeclaration where
  parameters := [{ name := "second", type := .var ⟨"Pair", "B"⟩ [] }]

/-- A pair that is made from its second component. -/
def pair : Class where
  name := "Pair"
  kind := .concrete
  typeParameters := ["A", "B"]
  constructorDeclarations := [pairConstructor]

end Class

namespace TypeExpr

/-- A pair that names the variable of its first component, twice. -/
def openPair : TypeExpr :=
  .parameterized Class.pair [.var ⟨"Pair", "A"⟩ [], .var ⟨"Pair", "A"⟩ []]

/--
A pair of such pairs.  When the second component is bound, the variable in it is taken
for the first component that was bound just before, and what comes out is the very type
that was requested.
-/
def capturedPair : TypeExpr :=
  .parameterized Class.pair [openPair, openPair]

end TypeExpr

namespace ClassGraph

def pairs : ClassGraph where
  contains c := c = Class.pair
  closed := by
    rintro c rfl type mentioned
    cases List.mem_singleton.mp mentioned
    exact .var _ _

theorem pairs_orderly : pairs.Orderly where
  consistent := by
    rintro c d rfl rfl name made called
    rfl
  supertypes := by
    rintro c rfl type declared
    cases declared
  returns := by
    rintro c rfl m declared
    cases declared

theorem within_pairs : TypeExpr.capturedPair.Within pairs.contains := by
  have pair : Class.pair.Within pairs.contains := .member rfl
  refine .parameterized pair fun component member => ?_
  have inner : component = .openPair := by
    rcases List.mem_cons.mp member with rfl | second
    · rfl
    · exact List.mem_singleton.mp second
  subst inner
  refine .parameterized pair fun argument member => ?_
  rcases List.mem_cons.mp member with rfl | second
  · exact .var _ _
  · cases List.mem_singleton.mp second
    exact .var _ _

end ClassGraph

theorem runsOut_capturedPair (depth : Nat) (site : Site) {store : Store}
    (fresh : store.constructors.find? (⟨1⟩, "Pair") = none) :
    RunsOut ((Chain.full {}).1.resolveWithin depth ⟨.capturedPair, site⟩ store) := by
  let k : Constructor := ⟨"Pair", Class.pairConstructor⟩
  let kind (wanted : Request) (store : Store) : Prop := wanted.type = .capturedPair ∧
    ∀ choice, store.constructors.find? (⟨1⟩, "Pair") = some choice → choice = some k
  have unserved : Chain.Unserved Class.pair .capturedPair := ⟨by decide, Or.inr ⟨_, rfl⟩⟩
  refine Chain.runsOut_resolveWithin kind ?_ depth ⟨rfl, fun choice known => ?_⟩
  · rintro depth ⟨type, site⟩ store ⟨rfl, settles⟩ again
    apply Chain.runsOut_full_of_constructor (k := k) unserved rfl rfl rfl rfl rfl settles
    intro after bindings known bound site
    cases depth with
    | zero => cases bound
    | succ depth =>
        cases bound
        exact again _ after ⟨rfl, fun choice same => Option.some.inj (same.symm.trans known)⟩
  · rw [fresh] at known
    cases known

/-! ### A class below a type variable -/

namespace Class

/-- A class below its own type parameter. -/
def standIn : Class where
  name := "StandIn"
  kind := .concrete
  typeParameters := ["T"]
  superclass := some (.var ⟨"StandIn", "T"⟩ [])

def leaf : Class where
  name := "Leaf"
  kind := .concrete
  interfaces := [.plain standIn]

def treeConstructor : ConstructorDeclaration where
  parameters := [{ name := "leaf", type := .plain leaf }]

/-- The walk up from a tree comes from the leaf to the stand-in and from there to the leaf. -/
def tree : Class where
  name := "Tree"
  kind := .concrete
  interfaces := [.parameterized standIn [.plain leaf]]
  constructorDeclarations := [treeConstructor]

end Class

namespace ClassGraph

def trees : ClassGraph where
  contains c := c = Class.standIn ∨ c = Class.leaf ∨ c = Class.tree
  closed := by
    rintro c (rfl | rfl | rfl) type mentioned
    · cases List.mem_singleton.mp mentioned
      exact .var _ _
    · cases List.mem_singleton.mp mentioned
      exact .plain (.member (Or.inl rfl))
    · change type ∈ [_, _] at mentioned
      rcases List.mem_cons.mp mentioned with rfl | leaf
      · refine .parameterized (.member (Or.inl rfl)) fun argument member => ?_
        cases List.mem_singleton.mp member
        exact .plain (.member (Or.inr (Or.inl rfl)))
      · cases List.mem_singleton.mp leaf
        exact .plain (.member (Or.inr (Or.inl rfl)))

theorem trees_consistent : trees.Consistent := by
  rintro c d (rfl | rfl | rfl) (rfl | rfl | rfl) name (made | called) (madeToo | calledToo) <;>
    first | rfl | contradiction

end ClassGraph

namespace Bindings

/-- With the leaf standing in for itself, no depth suffices for a walk up from it. -/
theorem collect_leaf (depth : Nat) {bindings : Bindings}
    (bound : bindings.binding? ⟨"StandIn", "T"⟩ = some (.plain Class.leaf)) :
    collect depth (.plain Class.leaf) bindings = .error ⟨⟩ ∧
      collectAtOnce depth (.plain Class.leaf) bindings = .error ⟨⟩ := by
  match depth with
  | 0 => exact ⟨rfl, rfl⟩
  | 1 => exact ⟨rfl, rfl⟩
  | depth + 2 =>
      have again := collect_leaf depth bound
      have resolved : bindings.resolve (.var ⟨"StandIn", "T"⟩ []) = .plain Class.leaf := by
        rw [resolve, bound]
        rfl
      constructor
      · show (collect depth (bindings.resolve (.var ⟨"StandIn", "T"⟩ [])) bindings >>= pure)
          >>= pure = _
        rw [resolved, again.1]
        rfl
      · show (collectAtOnce depth (bindings.resolve (.var ⟨"StandIn", "T"⟩ [])) bindings >>= pure)
          >>= pure = _
        rw [resolved, again.2]
        rfl

theorem ofType_tree (depth : Nat) :
    ofType depth (.plain Class.tree) = .error ⟨⟩ ∧
      ofTypeAtOnce depth (.plain Class.tree) = .error ⟨⟩ := by
  match depth with
  | 0 => exact ⟨rfl, rfl⟩
  | 1 => exact ⟨rfl, rfl⟩
  | depth + 2 =>
      have walk := collect_leaf depth
        (binding?_insert_self empty ⟨"StandIn", "T"⟩ (.plain Class.leaf))
      constructor
      · show (collect depth (.plain Class.leaf)
          (empty.insert ⟨"StandIn", "T"⟩ (.plain Class.leaf)) >>= pure) >>= pure = _
        rw [walk.1]
        rfl
      · show (collectAtOnce depth (.plain Class.leaf)
          (empty.insert ⟨"StandIn", "T"⟩ (.plain Class.leaf)) >>= pure) >>= pure = _
        rw [walk.2]
        rfl

end Bindings

namespace ClassGraph

theorem trees_comesUp {type : TypeExpr} (comesUp : trees.ComesUp (.plain Class.tree) type) :
    type = .plain Class.tree := by
  induction comesUp with
  | start => rfl
  | part whole member ih =>
      subst ih
      cases member
  | @view type seen target depth seeing within viewed ih =>
      subst ih
      cases within with
      | member member =>
          rcases member with rfl | rfl | rfl
          · change (Bindings.ofType depth (.plain Class.tree) >>= _) = _ at viewed
            rw [(Bindings.ofType_tree depth).1] at viewed
            cases viewed
          · exact TypeExpr.eq_of_asSupertype rfl (fun _ => rfl) viewed
          · exact TypeExpr.eq_of_asSupertype rfl (fun name => absurd rfl name) viewed
      | @arrayOf component within =>
          have top : component.arrayOf.name ≠ Class.object.name := Class.name_arrayOf_ne (by decide)
          have standIn : component.arrayOf.isAssignableFrom Class.standIn = false :=
            Class.not_isAssignableFrom (Class.name_arrayOf_ne (by decide)) top rfl
              fun _ above => nomatch above
          refine TypeExpr.eq_of_asSupertype rfl (fun name => ?_) viewed
          refine Class.not_isAssignableFrom name top rfl fun d above => ?_
          cases List.mem_singleton.mp above
          exact standIn
  | @constructorParameter type c k depth bindings parameter _ constructed usable bound taken ih =>
      subst ih
      rw [(Bindings.ofType_tree depth).1] at bound
      cases bound
  | @methodParameter type c m depth own bindings parameter _ manufactured usable bound fitted taken ih =>
      subst ih
      cases manufactured

theorem trees_uncaptured : trees.Uncaptured (.plain Class.tree) := by
  intro type comesUp depth
  rw [trees_comesUp comesUp, (Bindings.ofType_tree depth).1, (Bindings.ofType_tree depth).2]

end ClassGraph

theorem runsOut_tree (depth : Nat) (site : Site) {store : Store}
    (fresh : store.constructors.find? (⟨1⟩, "Tree") = none) :
    RunsOut ((Chain.full {}).1.resolveWithin depth ⟨.plain Class.tree, site⟩ store) := by
  let k : Constructor := ⟨"Tree", Class.treeConstructor⟩
  have unserved : Chain.Unserved Class.tree (.plain Class.tree) := ⟨by decide, Or.inl rfl⟩
  cases depth with
  | zero => exact ⟨store, rfl⟩
  | succ depth =>
      refine Chain.runsOut_full_of_constructor (k := k) unserved rfl rfl rfl rfl rfl ?_ ?_
      · intro choice known
        change store.constructors.find? (⟨1⟩, "Tree") = some choice at known
        rw [fresh] at known
        cases known
      · intro after bindings _ bound
        rw [(Bindings.ofType_tree depth).1] at bound
        cases bound

/-! ### A factory method that returns a wildcard -/

namespace Class

def makerMethod : MethodDeclaration where
  name := "make"
  returnType := .wildcard [.plain (named "Maker")]
    [.var ⟨"Maker::make", "U"⟩ [], .var ⟨"Maker::make", "V"⟩ []]
  isStatic := true
  typeParameters := ["U", "V"]
  parameters := [{ name := "seed", type := .superOf (.var ⟨"Maker::make", "U"⟩ []) }]

/-- Fitted to a wildcard, the return type binds a variable to the maker itself. -/
def maker : Class where
  name := "Maker"
  kind := .concrete
  methodDeclarations := [makerMethod]

end Class

namespace ClassGraph

def makers : ClassGraph where
  contains c := c = Class.maker ∨ c = Class.named "Maker" ∨ c = Class.object
  closed := by
    rintro c (rfl | rfl | rfl) type mentioned
    · change type ∈ [_, _] at mentioned
      rcases List.mem_cons.mp mentioned with rfl | seed
      · refine .wildcard (fun bound member => ?_) fun bound member => ?_
        · cases List.mem_singleton.mp member
          exact .plain (.member (Or.inr (Or.inl rfl)))
        · change bound ∈ [_, _] at member
          rcases List.mem_cons.mp member with rfl | second
          · exact .var _ _
          · cases List.mem_singleton.mp second
            exact .var _ _
      · cases List.mem_singleton.mp seed
        refine .wildcard (fun bound member => ?_) fun bound member => ?_
        · cases List.mem_singleton.mp member
          exact .plain (.member (Or.inr (Or.inr rfl)))
        · cases List.mem_singleton.mp member
          exact .var _ _
    · cases mentioned
    · cases mentioned

theorem makers_consistent : makers.Consistent := by
  rintro c d (rfl | rfl | rfl) (rfl | rfl | rfl) name (made | called) (madeToo | calledToo) <;>
    first | rfl | contradiction

/-- The wanted type, its bounds, and what the parameter of the factory method is seen as. -/
inductive MakerType : TypeExpr → Prop where
  | wanted : MakerType (.superOf (.plain Class.maker))
  | lower : MakerType (.plain Class.maker)
  | upper : MakerType (.plain Class.object)
  | seed : MakerType (.superOf (.var ⟨"Maker::make", "U"⟩ []))
  | inner : MakerType (.var ⟨"Maker::make", "U"⟩ [])

theorem MakerType.part {type part : TypeExpr} (maker : MakerType type)
    (member : part ∈ type.parts) : MakerType part := by
  cases maker with
  | wanted =>
      rcases List.mem_cons.mp member with rfl | lower
      · exact .upper
      · cases List.mem_singleton.mp lower
        exact .lower
  | seed =>
      rcases List.mem_cons.mp member with rfl | lower
      · exact .upper
      · cases List.mem_singleton.mp lower
        exact .inner
  | lower | upper | inner => cases member

theorem MakerType.view {type seen : TypeExpr} {target : Class} {depth : Nat}
    (maker : MakerType type) (within : target.Within makers.contains)
    (viewed : type.asSupertype depth target = .ok (some seen)) : MakerType seen := by
  by_cases top : target = Class.object
  · subst top
    cases maker <;> cases viewed <;> exact .upper
  have other : target.name ≠ Class.object.name := by
    cases within with
    | member member =>
        rcases member with rfl | rfl | rfl
        · decide
        · decide
        · exact absurd rfl top
    | arrayOf within => exact Class.name_arrayOf_ne (by decide)
  have same : seen = type := by
    cases maker with
    | wanted | lower | upper => exact TypeExpr.eq_of_asSupertype_highest rfl rfl rfl other viewed
    | seed | inner => cases viewed
  exact same ▸ maker

theorem makers_comesUp {type : TypeExpr}
    (comesUp : makers.ComesUp (.superOf (.plain Class.maker)) type) : MakerType type := by
  induction comesUp with
  | start => exact .wanted
  | part _ member maker => exact maker.part member
  | view _ within viewed maker => exact maker.view within viewed
  | constructorParameter _ constructed usable bound taken maker =>
      cases maker <;> cases constructed
  | @methodParameter type c m depth own bindings parameter _ manufactured usable bound fitted taken
      maker =>
      cases maker with
      | wanted =>
          cases manufactured
          cases List.mem_singleton.mp usable
          rcases depth with _ | _ | depth
          · cases bound
          · cases bound
          · cases bound
            cases fitted
            cases List.mem_singleton.mp taken
            exact .wanted
      | lower =>
          cases manufactured
          cases List.mem_singleton.mp usable
          cases depth with
          | zero => cases bound
          | succ depth =>
              cases bound
              cases fitted
              cases List.mem_singleton.mp taken
              exact .seed
      | upper | seed | inner => cases manufactured

theorem makers_uncaptured : makers.Uncaptured (.superOf (.plain Class.maker)) := by
  intro type comesUp depth
  cases makers_comesUp comesUp <;> rcases depth with _ | _ | depth <;> rfl

theorem within_makers : (TypeExpr.superOf (.plain Class.maker)).Within makers.contains := by
  refine .wildcard (fun bound member => ?_) fun bound member => ?_
  · cases List.mem_singleton.mp member
    exact .plain (.member (Or.inr (Or.inr rfl)))
  · cases List.mem_singleton.mp member
    exact .plain (.member (Or.inl rfl))

end ClassGraph

theorem runsOut_maker (depth : Nat) (site : Site) {store : Store}
    (fresh : store.methods.find? (⟨2⟩, "Maker") = none) :
    RunsOut ((Chain.full {}).1.resolveWithin depth ⟨.superOf (.plain Class.maker), site⟩ store) := by
  let m : Method := ⟨"Maker", Class.makerMethod⟩
  let kind (wanted : Request) (store : Store) : Prop :=
    wanted.type = .superOf (.plain Class.maker) ∧
    ∀ choice, store.methods.find? (⟨2⟩, "Maker") = some choice → choice = some m
  have unserved : Chain.Unserved Class.maker (.superOf (.plain Class.maker)) :=
    ⟨by decide, Or.inl rfl⟩
  refine Chain.runsOut_resolveWithin kind ?_ depth ⟨rfl, fun choice known => ?_⟩
  · rintro depth ⟨type, site⟩ store ⟨rfl, settles⟩ again
    apply Chain.runsOut_full_of_method (m := m) unserved rfl rfl rfl settles
    intro after own bindings known bound fitted site
    match depth with
    | 0 => cases bound
    | 1 => cases bound
    | depth + 2 =>
        cases bound
        cases fitted
        exact again _ after ⟨rfl, fun choice same => Option.some.inj (same.symm.trans known)⟩
  · rw [fresh] at known
    cases known

/--
A consistent graph is not enough, and each of the other conditions is needed: in the
first graph all that happens is that a variable is captured, in the second that a class
stands below a type variable, and in the third that a factory method returns a wildcard.
-/
theorem unending_resolutions :
    (ClassGraph.pairs.Orderly ∧ TypeExpr.capturedPair.Within ClassGraph.pairs.contains ∧
      ∀ depth, RunsOut ((Chain.full {}).1.resolveWithin depth
        ⟨.capturedPair, .unknown⟩ (Chain.full {}).2)) ∧
    (ClassGraph.trees.Consistent ∧ ClassGraph.trees.Uncaptured (.plain Class.tree) ∧
      (∀ c, ClassGraph.trees.contains c → c.methodDeclarations = []) ∧
      (TypeExpr.plain Class.tree).Within ClassGraph.trees.contains ∧
      ∀ depth, RunsOut ((Chain.full {}).1.resolveWithin depth
        ⟨.plain Class.tree, .unknown⟩ (Chain.full {}).2)) ∧
    (ClassGraph.makers.Consistent ∧
      ClassGraph.makers.Uncaptured (.superOf (.plain Class.maker)) ∧
      (∀ c, ClassGraph.makers.contains c → c.supertypes = []) ∧
      (TypeExpr.superOf (.plain Class.maker)).Within ClassGraph.makers.contains ∧
      ∀ depth, RunsOut ((Chain.full {}).1.resolveWithin depth
        ⟨.superOf (.plain Class.maker), .unknown⟩ (Chain.full {}).2)) := by
  refine ⟨⟨ClassGraph.pairs_orderly, ClassGraph.within_pairs, fun depth => ?_⟩,
    ⟨ClassGraph.trees_consistent, ClassGraph.trees_uncaptured, ?_,
      .plain (.member (Or.inr (Or.inr rfl))), fun depth => ?_⟩,
    ⟨ClassGraph.makers_consistent, ClassGraph.makers_uncaptured, ?_,
      ClassGraph.within_makers, fun depth => ?_⟩⟩
  · exact runsOut_capturedPair depth .unknown rfl
  · rintro c (rfl | rfl | rfl) <;> rfl
  · exact runsOut_tree depth .unknown rfl
  · rintro c (rfl | rfl | rfl) <;> rfl
  · exact runsOut_maker depth .unknown rfl

end TestData
