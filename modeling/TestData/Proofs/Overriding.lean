import Mathlib.Data.List.Pairwise
import TestData.Proofs.Inheritance.Views
import TestData.Strategy.Inject

namespace TestData

/-!
# Which of several overriding methods is called

A method injector goes through the methods of a hierarchy, class by class in the order of
the walk, and calls a method that matches unless one of the same declared signature was
called before.  So of each declared signature one method is called, the first one met.

That this is the most derived declaration is another matter.  Overriding goes by parameter
types in which the type arguments of the object have been put for the variables of the
classes; the declared types need not show it.  The matcher is asked first and may refuse the
derived declaration; and the walk may meet an interface before the interface that extends it.
-/

/-! ## Signatures under bindings -/

/-- The signature of a method once the bindings have been put into its parameter types. -/
def Method.signatureUnder (m : Method) (bindings : Bindings) : Signature :=
  ⟨m.name, m.parameterTypes.map fun type => (bindings.resolve type).key⟩

/-- What the bindings make of a type depends on its key alone, up to keys. -/
theorem Bindings.key_resolve_eq (bindings : Bindings) {a b : TypeExpr} (same : a.key = b.key) :
    (bindings.resolve a).key = (bindings.resolve b).key := by
  rw [← TypeExpr.beq_iff_key_eq, TypeExpr.beq_iff_byName_eq] at same ⊢
  exact sketch_resolve TypeExpr.seesArrays_named same fun _ _ => rfl

/-- Methods of one declared signature have one signature under all bindings. -/
theorem Method.signatureUnder_eq {m other : Method} (bindings : Bindings)
    (same : m.signature = other.signature) :
    m.signatureUnder bindings = other.signatureUnder bindings := by
  rcases Signature.mk.inj same with ⟨names, types⟩
  have resolved : (m.parameterTypes.map fun type => (bindings.resolve type).key) =
      other.parameterTypes.map fun type => (bindings.resolve type).key :=
    Bindings.map_eq_map_of_alike types fun _ _ _ same => bindings.key_resolve_eq same
  unfold signatureUnder
  rw [names, resolved]

/--
A class of the hierarchy that stands below the one the method belongs to declares a method
for instances that has the same signature under the bindings.
-/
def Method.OverriddenIn (c : Class) (bindings : Bindings) (m : Method) : Prop :=
  ∃ lower ∈ c.hierarchy, lower.name ≠ m.className ∧
    (∃ higher, lower.Extends higher ∧ higher.name = m.className) ∧
    ∃ other ∈ lower.methods, other.isStatic = false ∧
      other.signatureUnder bindings = m.signatureUnder bindings

namespace Enhancer

/-! ## The first of each signature -/

/-- The methods whose signature neither was met nor is met before them. -/
def firstOfEach (met : List Signature) : List Method → List Method
  | [] => []
  | m :: rest =>
      if m.signature ∈ met then firstOfEach met rest
      else m :: firstOfEach (m.signature :: met) rest

variable {met : List Signature} {methods : List Method} {m : Method}

/-- Only what comes before a method keeps it out. -/
theorem mem_firstOfEach_iff :
    m ∈ firstOfEach met methods ↔
      m.signature ∉ met ∧ ∃ earlier later, methods = earlier ++ m :: later ∧
        ∀ other ∈ earlier, other.signature ≠ m.signature := by
  induction methods generalizing met with
  | nil =>
      refine ⟨nofun, ?_⟩
      rintro ⟨-, earlier, later, split, -⟩
      cases earlier <;> cases split
  | cons first rest ih =>
      unfold firstOfEach
      split
      case isTrue known =>
        rw [ih]
        constructor
        · rintro ⟨unknown, earlier, later, rfl, others⟩
          refine ⟨unknown, first :: earlier, later, rfl, List.forall_mem_cons.mpr ⟨?_, others⟩⟩
          exact fun same => unknown (same ▸ known)
        · rintro ⟨unknown, earlier, later, split, others⟩
          cases earlier with
          | nil =>
              cases split
              exact absurd known unknown
          | cons head earlier =>
              cases split
              exact ⟨unknown, earlier, later, rfl, (List.forall_mem_cons.mp others).2⟩
      case isFalse unknown =>
        rw [List.mem_cons, ih]
        constructor
        · rintro (rfl | ⟨apart, earlier, later, rfl, others⟩)
          · exact ⟨unknown, [], rest, rfl, nofun⟩
          · rcases not_or.mp (mt List.mem_cons.mpr apart) with ⟨different, fresh⟩
            exact ⟨fresh, first :: earlier, later, rfl,
              List.forall_mem_cons.mpr ⟨Ne.symm different, others⟩⟩
        · rintro ⟨fresh, earlier, later, split, others⟩
          cases earlier with
          | nil =>
              cases split
              exact .inl rfl
          | cons head earlier =>
              cases split
              rcases List.forall_mem_cons.mp others with ⟨different, others⟩
              refine .inr ⟨?_, earlier, later, rfl, others⟩
              exact mt List.mem_cons.mp (not_or.mpr ⟨Ne.symm different, fresh⟩)

/-- No two of them have the same signature. -/
theorem pairwise_firstOfEach (met : List Signature) (methods : List Method) :
    (firstOfEach met methods).Pairwise fun m other => m.signature ≠ other.signature := by
  induction methods generalizing met with
  | nil => exact .nil
  | cons first rest ih =>
      unfold firstOfEach
      split
      · exact ih met
      · refine .cons (fun other member same => ?_) (ih _)
        exact (mem_firstOfEach_iff.mp member).1 (same ▸ List.mem_cons_self)

/-- Each signature is that of one of them. -/
theorem exists_mem_firstOfEach (member : m ∈ methods) (fresh : m.signature ∉ met) :
    ∃ first ∈ firstOfEach met methods, first.signature = m.signature := by
  induction methods generalizing met with
  | nil => cases member
  | cons head rest ih =>
      unfold firstOfEach
      split
      case isTrue known =>
        rcases List.mem_cons.mp member with rfl | later
        · exact absurd known fresh
        · exact ih later fresh
      case isFalse =>
        by_cases same : head.signature = m.signature
        · exact ⟨head, List.mem_cons_self, same⟩
        · have later : m ∈ rest := by
            rcases List.mem_cons.mp member with rfl | later
            · exact absurd rfl same
            · exact later
          rcases ih later (mt List.mem_cons.mp (not_or.mpr ⟨Ne.symm same, fresh⟩)) with
            ⟨first, chosen, alike⟩
          exact ⟨first, List.mem_cons_of_mem _ chosen, alike⟩

/-! ## What is called -/

/-- The methods for instances of a class that match at a site, in the order of the walk. -/
def matching (matcher : Matcher Method) (site : Site) (c : Class) : List Method :=
  c.instanceMethods.filter fun m => (matcher site m).holds

theorem matchingMethods_apply (matcher : Matcher Method) (site : Site) (met : List Signature)
    (methods : List Method) (store : Store) :
    ∃ trace, matchingMethods matcher site met methods store =
      (firstOfEach met (methods.filter fun m => (matcher site m).holds), { store with trace }) := by
  induction methods generalizing met store with
  | nil => exact ⟨store.trace, rfl⟩
  | cons first rest ih =>
      rcases ih met (Store.heed (matcher site first) store).2 with ⟨refused, goesOn⟩
      rcases ih (first.signature :: met) (Store.heed (matcher site first) store).2 with
        ⟨taken, goesOnWith⟩
      cases holds : (matcher site first).holds with
      | false =>
          have dropped : ((first :: rest).filter fun m => (matcher site m).holds) =
              rest.filter fun m => (matcher site m).holds :=
            List.filter_cons_of_neg (Bool.eq_false_iff.mp holds)
          refine ⟨refused, ?_⟩
          rw [dropped]
          simp only [matchingMethods, bind, StateT.bind, Store.heed, holds] at goesOn ⊢
          exact goesOn
      | true =>
          have kept : ((first :: rest).filter fun m => (matcher site m).holds) =
              first :: rest.filter fun m => (matcher site m).holds :=
            List.filter_cons_of_pos holds
          rw [kept, firstOfEach]
          by_cases known : first.signature ∈ met
          · refine ⟨refused, ?_⟩
            simp only [matchingMethods, bind, StateT.bind, Store.heed, holds, known, if_true]
              at goesOn ⊢
            exact goesOn
          · refine ⟨taken, ?_⟩
            simp only [matchingMethods, bind, StateT.bind, Store.heed, holds, known, if_true,
              if_false] at goesOnWith ⊢
            rw [goesOnWith]
            rfl

/-- What a method injector does with an object: it calls the first of each declared signature. -/
theorem enhance_injectMethods {type : TypeExpr} {c : Class} {bindings : Bindings} {host : Host}
    {value : Value} (raw : type.rawType = some c)
    (binds : Bindings.ofType host.depth type = .ok bindings) (present : value.isNull = false)
    (matcher : Matcher Method) (site : Site) (store : Store) :
    ∃ trace, enhance host site type value (.injectMethods matcher) store =
      (do
        callMethods host bindings site type value (firstOfEach [] (matching matcher site c))
        return value : Run Value) { store with trace } := by
  rcases matchingMethods_apply matcher site [] c.instanceMethods store with ⟨trace, settled⟩
  refine ⟨trace, ?_⟩
  unfold enhance methodsToCall
  rw [raw, binds, present]
  show (Run.ofStep (matchingMethods matcher site [] c.instanceMethods) >>= fun methods => do
    callMethods host bindings site type value methods
    return value) store = _
  rw [Run.bind_of_ok (Run.ofStep_apply _ _), settled]
  rfl

/-! ## Signatures that coincide under bindings, and overridden methods -/

variable {bindings : Bindings} {c : Class}

/-- One call for each signature under bindings: where they coincide the declared ones have to. -/
theorem pairwise_signatureUnder_iff :
    (firstOfEach [] methods).Pairwise
        (fun m other => m.signatureUnder bindings ≠ other.signatureUnder bindings) ↔
      ∀ m ∈ methods, ∀ other ∈ methods,
        m.signatureUnder bindings = other.signatureUnder bindings →
        m.signature = other.signature := by
  constructor
  · intro apart m member other otherMember same
    rcases exists_mem_firstOfEach member List.not_mem_nil with ⟨first, called, alike⟩
    rcases exists_mem_firstOfEach otherMember List.not_mem_nil with ⟨second, alsoCalled, alsoAlike⟩
    apply Classical.byContradiction
    intro different
    have distinct : first ≠ second := fun it => different (alike.symm.trans (it ▸ alsoAlike))
    have symmetric : Std.Symm fun m other : Method =>
        m.signatureUnder bindings ≠ other.signatureUnder bindings := ⟨fun _ _ => Ne.symm⟩
    apply apart.forall called alsoCalled distinct
    calc
      first.signatureUnder bindings = m.signatureUnder bindings := Method.signatureUnder_eq _ alike
      _ = other.signatureUnder bindings := same
      _ = second.signatureUnder bindings := (Method.signatureUnder_eq _ alsoAlike).symm
  · intro declared
    refine (pairwise_firstOfEach [] methods).imp_of_mem fun member otherMember different same => ?_
    have within : ∀ {m}, m ∈ firstOfEach [] methods → m ∈ methods := by
      intro m called
      rcases (mem_firstOfEach_iff.mp called).2 with ⟨earlier, later, rfl, -⟩
      exact List.mem_append_right _ List.mem_cons_self
    exact different (declared _ (within member) _ (within otherMember) same)

/-- Nothing overridden is called if something of the same declared signature comes before it. -/
theorem forall_mem_firstOfEach_iff {overridden : Method → Prop} :
    (∀ m ∈ firstOfEach [] methods, ¬ overridden m) ↔
      ∀ earlier m later, methods = earlier ++ m :: later → overridden m →
        ∃ other ∈ earlier, other.signature = m.signature := by
  constructor
  · intro none earlier m later split below
    apply Classical.byContradiction
    intro unmet
    apply none m _ below
    refine mem_firstOfEach_iff.mpr ⟨List.not_mem_nil, earlier, later, split, ?_⟩
    exact fun other member same => unmet ⟨other, member, same⟩
  · intro met m called below
    rcases (mem_firstOfEach_iff.mp called).2 with ⟨earlier, later, split, others⟩
    rcases met earlier m later split below with ⟨other, member, same⟩
    exact others other member same

/--
Which methods an injector calls on an object is settled by the class, the matcher and the site.
They are called once each and through the most derived declaration exactly if matching methods
whose signatures coincide under the bindings of the type have been declared with one signature,
and every matching method that is overridden comes after a matching one of its own signature.
-/
theorem overridden_called_once_iff {type : TypeExpr} {c : Class} {depth : Nat}
    {bindings : Bindings} (raw : type.rawType = some c)
    (binds : Bindings.ofType depth type = .ok bindings) (matcher : Matcher Method) (site : Site) :
    ∃ calls : List Method,
      (∀ (host : Host) (value : Value) (store : Store), host.depth = depth →
        value.isNull = false → ∃ trace,
          enhance host site type value (.injectMethods matcher) store =
            (do
              callMethods host bindings site type value calls
              return value : Run Value) { store with trace }) ∧
      ((calls.Pairwise fun m other =>
            m.signatureUnder bindings ≠ other.signatureUnder bindings) ∧
          (∀ m ∈ calls, ¬ m.OverriddenIn c bindings) ↔
        (∀ m ∈ matching matcher site c, ∀ other ∈ matching matcher site c,
            m.signatureUnder bindings = other.signatureUnder bindings →
            m.signature = other.signature) ∧
          ∀ earlier m later, matching matcher site c = earlier ++ m :: later →
            m.OverriddenIn c bindings → ∃ other ∈ earlier, other.signature = m.signature) := by
  refine ⟨firstOfEach [] (matching matcher site c), ?_, ?_⟩
  · rintro host value store rfl present
    exact enhance_injectMethods raw binds present matcher site store
  · exact and_congr pairwise_signatureUnder_iff forall_mem_firstOfEach_iff

/-! ## Where the most derived declaration is called -/

theorem className_of_mem_methods (member : m ∈ c.methods) : m.className = c.name := by
  rcases List.mem_map.mp member with ⟨declaration, _, rfl⟩
  rfl

/-- The walk up the hierarchy comes to no class before it comes to those that extend it. -/
def DerivedFirst (c : Class) : Prop :=
  c.hierarchy.Pairwise fun earlier later =>
    ∀ lower ∈ c.hierarchy, lower.name = later.name →
      ∀ higher, lower.Extends higher → higher.name ≠ earlier.name

/-- Then a method comes behind those that override it. -/
theorem DerivedFirst.pairwise_instanceMethods (first : DerivedFirst c) :
    c.instanceMethods.Pairwise fun m other =>
      ∀ lower ∈ c.hierarchy, lower.name = other.className → lower.name ≠ m.className →
        ∀ higher, lower.Extends higher → higher.name ≠ m.className := by
  have declaredBy : ∀ {above : Class} {m : Method},
      m ∈ above.methods.filter (fun m => !m.isStatic) → m.className = above.name := by
    intro above m member
    exact className_of_mem_methods (List.mem_filter.mp member).1
  refine List.pairwise_flatMap.mpr ⟨fun above _ => ?_, first.imp fun derived => ?_⟩
  · refine List.pairwise_of_forall_mem_list fun m member other otherMember => ?_
    intro lower _ named apart
    rw [declaredBy member] at apart
    rw [declaredBy otherMember] at named
    exact absurd named apart
  · intro m member other otherMember lower listed named _ higher above
    rw [declaredBy otherMember] at named
    rw [declaredBy member]
    exact derived lower listed named higher above

/--
Each method is called once and through its most derived declaration if signatures that coincide
under the bindings are declared alike, if the matcher goes by signatures, and if the walk comes
to derived classes first.
-/
theorem overridden_not_called {matcher : Matcher Method} {site : Site}
    (declared : ∀ m ∈ c.instanceMethods, ∀ other ∈ c.instanceMethods,
      m.signatureUnder bindings = other.signatureUnder bindings → m.signature = other.signature)
    (bySignature : ∀ m other : Method, m.signature = other.signature →
      (matcher site m).holds = (matcher site other).holds)
    (first : DerivedFirst c) :
    ((firstOfEach [] (matching matcher site c)).Pairwise fun m other =>
        m.signatureUnder bindings ≠ other.signatureUnder bindings) ∧
      ∀ m ∈ firstOfEach [] (matching matcher site c), ¬ m.OverriddenIn c bindings := by
  refine ⟨pairwise_signatureUnder_iff.mpr ?_, forall_mem_firstOfEach_iff.mpr ?_⟩
  · intro m member other otherMember
    exact declared m (List.mem_filter.mp member).1 other (List.mem_filter.mp otherMember).1
  · rintro earlier m later split ⟨lower, listed, apart, ⟨higher, above, named⟩, other, ofLower,
      instanceMethod, same⟩
    have member : m ∈ matching matcher site c := split ▸ List.mem_append_right _ List.mem_cons_self
    rcases List.mem_filter.mp member with ⟨among, taken⟩
    have otherAmong : other ∈ c.instanceMethods := by
      refine List.mem_flatMap.mpr ⟨lower, listed, List.mem_filter.mpr ⟨ofLower, ?_⟩⟩
      rw [instanceMethod]
      rfl
    have alike : other.signature = m.signature := declared other otherAmong m among same
    have otherMember : other ∈ matching matcher site c :=
      List.mem_filter.mpr ⟨otherAmong, (bySignature other m alike).trans taken⟩
    have ofClass := className_of_mem_methods ofLower
    have ordered := first.pairwise_instanceMethods.filter fun m => (matcher site m).holds
    change (matching matcher site c).Pairwise _ at ordered
    rw [split] at ordered otherMember
    rcases List.mem_append.mp otherMember with before | behind
    · exact ⟨other, before, alike⟩
    · rcases List.mem_cons.mp behind with rfl | behind
      · exact absurd ofClass.symm apart
      · have further := (List.pairwise_cons.mp (List.pairwise_append.mp ordered).2.1).1 other behind
        exact absurd named (further lower listed ofClass.symm apart higher above)

/-! ## A derived declaration that spells its parameter type out -/

def setValue : MethodDeclaration where
  name := "set"
  returnType := .plain .unit
  parameters := [{ name := "value", type := .ofVariable ⟨"Holder", "T"⟩ }]

def setText : MethodDeclaration where
  name := "set"
  returnType := .plain .unit
  parameters := [{ name := "value", type := .plain .string }]

def holder : Class where
  name := "Holder"
  kind := .concrete
  typeParameters := ["T"]
  methodDeclarations := [setValue]

def textHolder : Class where
  name := "TextHolder"
  kind := .concrete
  superclass := some (.parameterized holder [.plain .string])
  methodDeclarations := [setText]

/-- A holder of texts has its own method called and the one that this overrides. -/
theorem setValue_and_setText_called :
    let bindings := Bindings.empty.insert ⟨"Holder", "T"⟩ (.plain .string)
    Bindings.ofType 3 (.plain textHolder) = .ok bindings ∧
    (Method.mk "Holder" setValue).OverriddenIn textHolder bindings ∧
    ∃ calls : List Method,
      (∀ (host : Host) (value : Value) (store : Store), host.depth = 3 →
        value.isNull = false → ∃ trace,
          enhance host .unknown (.plain textHolder) value (.injectMethods .any) store =
            (do
              callMethods host bindings .unknown (.plain textHolder) value calls
              return value : Run Value) { store with trace }) ∧
      ¬ ((calls.Pairwise fun m other =>
          m.signatureUnder bindings ≠ other.signatureUnder bindings) ∧
        ∀ m ∈ calls, ¬ m.OverriddenIn textHolder bindings) := by
  intro bindings
  have binds : Bindings.ofType 3 (.plain textHolder) = .ok bindings := rfl
  have above : textHolder.Extends holder := .direct List.mem_cons_self
  have overridden : (Method.mk "Holder" setValue).OverriddenIn textHolder bindings :=
    ⟨textHolder, List.mem_cons_self, by decide, ⟨holder, above, rfl⟩, ⟨"TextHolder", setText⟩,
      List.mem_cons_self, rfl, rfl⟩
  rcases overridden_called_once_iff rfl binds .any .unknown with ⟨calls, runs, exactly⟩
  refine ⟨binds, overridden, calls, runs, fun right => ?_⟩
  have settled : matching .any .unknown textHolder =
      [⟨"TextHolder", setText⟩, ⟨"Holder", setValue⟩] := rfl
  have same := (exactly.mp right).1 ⟨"TextHolder", setText⟩ (settled ▸ List.mem_cons_self)
    ⟨"Holder", setValue⟩ (settled ▸ List.mem_cons_of_mem _ List.mem_cons_self) rfl
  revert same
  decide

end Enhancer
end TestData
