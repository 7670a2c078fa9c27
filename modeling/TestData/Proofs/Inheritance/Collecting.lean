import TestData.Proofs.Depth
import TestData.Proofs.Inheritance.Ascent

namespace TestData

/-!
# What a walk up the hierarchy binds

A walk up the hierarchy keeps one collection of bindings for all classes it meets, puts it
into every supertype and then into the arguments of that supertype once more.  In a coherent
hierarchy over a type without variables this does no harm.  Along the walk a variable that
no type binds stands for itself, so that arguments stay as they are; and when the walk is
through with a type, every class from there on upward is covered: its variables stand for
what the arguments of a type with that class bind.
-/

namespace Bindings

open TypeExpr

variable {root a : TypeExpr} {c : Class} {bindings before between after own : Bindings}

/-! ## Open variables stand for themselves -/

/-- The variables that are left open above a type stand for themselves. -/
def KeepsOpen (root : TypeExpr) (bindings : Bindings) : Prop :=
  ∀ v, root.Open v → (bindings.resolve (.ofVariable v)).bare = .ofVariable v

theorem keepsOpen_empty (root : TypeExpr) : empty.KeepsOpen root :=
  fun _ _ => rfl

/-- A type whose variables are all open stays as it is. -/
theorem KeepsOpen.resolve (keeps : bindings.KeepsOpen root) {type : TypeExpr}
    (inside : ∀ v ∈ type.freeVariables, root.Open v) :
    (bindings.resolve type).bare = (empty.resolve type).bare :=
  sketch_resolve seesArrays_id rfl fun v occurs => keeps v (inside v occurs)

theorem KeepsOpen.insert (keeps : bindings.KeepsOpen root) {symbol : TypeVariable}
    {value : TypeExpr} (itself : root.Open symbol → value.bare = .ofVariable symbol) :
    (bindings.insert symbol value).KeepsOpen root := by
  intro v left
  rw [ofVariable, resolve_var]
  by_cases it : v = symbol
  · rw [it, binding?_insert_self]
    exact itself (it ▸ left)
  · rw [binding?_insert_of_ne _ _ it]
    exact keeps v left

/-! ## Bindings that contain others -/

/-- What the other bindings bind a variable to, these bind it to as well. -/
def Carries (bindings own : Bindings) : Prop :=
  ∀ v value, own.binding? v = some value → (bindings.resolve (.ofVariable v)).bare = value.bare

theorem carries_empty (bindings : Bindings) : bindings.Carries empty :=
  nofun

theorem Carries.insert (carries : bindings.Carries own) (symbol : TypeVariable)
    {type value : TypeExpr} (same : type.bare = value.bare) :
    (bindings.insert symbol type).Carries (own.insert symbol value) := by
  intro v bound given
  rw [ofVariable, resolve_var]
  by_cases it : v = symbol
  · rw [it, binding?_insert_self] at given
    cases given
    rw [it, binding?_insert_self]
    exact same
  · rw [binding?_insert_of_ne _ _ it] at given ⊢
    exact carries v bound given

theorem Carries.of_binding?_eq (carries : before.Carries a.ownBindings) (head : a.head? = some c)
    (same : ∀ v ∈ c.typeVariables, after.binding? v = before.binding? v) :
    after.Carries a.ownBindings := by
  intro v value bound
  rcases binding?_ownBindings bound with ⟨raw, arguments, rfl, declared, _⟩
  cases head
  have stands := carries v value bound
  rw [ofVariable, resolve_var] at stands ⊢
  rw [same v declared]
  exact stands

theorem bindArguments_cons (bindings : Bindings) (symbol : TypeVariable)
    (symbols : List TypeVariable) (argument : TypeExpr) (arguments : List TypeExpr) :
    bindings.bindArguments (symbol :: symbols) (argument :: arguments) =
      (bindings.insert symbol (bindings.resolve argument)).bindArguments symbols arguments := rfl

/--
Binding arguments one after the other does what binding them at once does, if variables in the
arguments are open and an open variable is bound to itself only.
-/
theorem KeepsOpen.bindArguments (keeps : bindings.KeepsOpen root) (carries : bindings.Carries own)
    {symbols : List TypeVariable} {arguments : List TypeExpr}
    (inside : ∀ argument ∈ arguments, ∀ v ∈ argument.freeVariables, root.Open v)
    (itself : ∀ symbol argument, (symbol, argument) ∈ symbols.zip arguments → root.Open symbol →
      argument.bare = .ofVariable symbol) :
    (bindings.bindArguments symbols arguments).KeepsOpen root ∧
      (bindings.bindArguments symbols arguments).Carries (own.bindAtOnce symbols arguments) := by
  induction symbols generalizing arguments bindings own with
  | nil => exact ⟨keeps, carries⟩
  | cons symbol symbols ih =>
      cases arguments with
      | nil => exact ⟨keeps, carries⟩
      | cons argument arguments =>
          rw [bindArguments_cons, bindAtOnce_cons]
          have asItIs := keeps.resolve (inside argument List.mem_cons_self)
          apply ih
          · apply keeps.insert
            intro left
            have same : argument.sketch id = (ofVariable symbol).sketch id :=
              itself symbol argument List.mem_cons_self left
            rw [asItIs]
            exact sketch_resolve seesArrays_id same fun _ _ => rfl
          · exact carries.insert symbol asItIs
          · intro other member
            exact inside other (List.mem_cons_of_mem _ member)
          · intro other value member
            exact itself other value (List.mem_cons_of_mem _ member)

theorem Carries.of_alike {other : Bindings} (carries : bindings.Carries own)
    (alike : Alike id own other) : bindings.Carries other := by
  intro v value bound
  have same := alike v
  rw [bound] at same
  rcases Option.map_eq_some_iff.mp same with ⟨first, alsoBound, equal⟩
  rw [carries v first alsoBound]
  exact equal

/-- The arguments of a type above one without variables are bound as if at once. -/
theorem KeepsOpen.bindArguments_own (keeps : bindings.KeepsOpen root) (coherent : root.Coherent)
    (ground : root.freeVariables = []) {arguments others : List TypeExpr}
    (leads : root.LeadsTo (.parameterized c arguments))
    (alike : (parameterized c others).bare = (parameterized c arguments).bare) :
    (bindings.bindArguments c.typeVariables others).KeepsOpen root ∧
      (bindings.bindArguments c.typeVariables others).Carries
        (ownBindings (.parameterized c arguments)) := by
  have sameOwn : Alike id (ownBindings (.parameterized c others))
      (ownBindings (.parameterized c arguments)) := ownBindings_alike seesArrays_id rfl rfl alike
  have inside : ∀ argument ∈ others, ∀ v ∈ argument.freeVariables, root.Open v := by
    intro argument member v occurs
    apply coherent.open_of_occurs ground leads
    rw [← freeVariables_eq_of_sketch_eq alike]
    exact mem_freeVariables_parameterized.mpr ⟨argument, member, occurs⟩
  have bound : ∀ symbol argument, (symbol, argument) ∈ c.typeVariables.zip others →
      ¬ root.Open symbol := by
    intro symbol argument member
    rcases Option.isSome_iff_exists.mp (@isSome_bindAtOnce .empty c.typeVariables others symbol
      (.inr ⟨argument, member⟩)) with ⟨value, bound⟩
    have same := sameOwn symbol
    rw [ownBindings, bound] at same
    rcases Option.map_eq_some_iff.mp same.symm with ⟨other, alsoBound, _⟩
    exact coherent.not_open leads alsoBound
  rcases keeps.bindArguments (carries_empty bindings) inside
    (fun symbol argument member left => absurd left (bound symbol argument member)) with
    ⟨stillKeeps, carries⟩
  exact ⟨stillKeeps, carries.of_alike sameOwn⟩

theorem binding?_bindArguments {symbols : List TypeVariable} {arguments : List TypeExpr}
    {v : TypeVariable} (other : v ∉ symbols) :
    (bindings.bindArguments symbols arguments).binding? v = bindings.binding? v := by
  induction symbols generalizing arguments bindings with
  | nil => rfl
  | cons symbol symbols ih =>
      cases arguments with
      | nil => rfl
      | cons argument arguments =>
          rcases not_or.mp (mt List.mem_cons.mpr other) with ⟨different, others⟩
          rw [bindArguments_cons, ih others, binding?_insert_of_ne _ _ different]

/-- With the bindings at hand the parameters of a class stand for the arguments of the type. -/
theorem Carries.stands (carries : bindings.Carries a.ownBindings) (keeps : bindings.KeepsOpen root)
    (leads : root.LeadsTo a) (head : a.head? = some c) {v : TypeVariable}
    (declared : v ∈ c.typeVariables) :
    (bindings.resolve (.ofVariable v)).bare = (a.ownBindings.resolve (.ofVariable v)).bare := by
  have itself : (a.ownBindings.resolve (.ofVariable v)).bare =
      ((a.ownBindings.binding? v).getD (.ofVariable v)).bare := rfl
  rw [itself]
  cases bound : a.ownBindings.binding? v with
  | none => exact keeps v ⟨a, c, leads, head, declared, bound⟩
  | some value => exact carries v value bound

/-! ## Classes that are covered -/

/-- The variables of the class stand for the arguments of a type with that class. -/
def Covers (root : TypeExpr) (bindings : Bindings) (c : Class) : Prop :=
  ∃ a, root.LeadsTo a ∧ a.head? = some c ∧ bindings.Carries a.ownBindings

/-- What a walk over some types does: it covers the classes there and above and touches no other. -/
structure Walked (root : TypeExpr) (types : List TypeExpr) (before after : Bindings) : Prop where
  keepsOpen : after.KeepsOpen root
  touches (v : TypeVariable) : after.binding? v = before.binding? v ∨
    ∃ type higher c, type ∈ types ∧ type.LeadsTo higher ∧ higher.head? = some c ∧
      v ∈ c.typeVariables
  covers {type higher : TypeExpr} {c : Class} (member : type ∈ types)
    (leads : type.LeadsTo higher) (head : higher.head? = some c) : after.Covers root c

namespace Walked

theorem nil (keeps : bindings.KeepsOpen root) : Walked root [] bindings bindings where
  keepsOpen := keeps
  touches _ := .inl rfl
  covers := nofun

/-- What binds a variable anew is a class of the name the variable tells. -/
theorem named_of_changed {types : List TypeExpr} (walked : Walked root types before after)
    {v : TypeVariable} (declared : v ∈ c.typeVariables)
    (changed : after.binding? v ≠ before.binding? v) :
    ∃ type higher d, type ∈ types ∧ type.LeadsTo higher ∧ higher.head? = some d ∧
      d.name = c.name := by
  rcases walked.touches v with same | ⟨type, higher, d, member, leads, head, alsoDeclared⟩
  · exact absurd same changed
  · exact ⟨type, higher, d, member, leads, head, name_eq_of_mem_typeVariables alsoDeclared declared⟩

/-- A class that was covered stays covered, also if its variables are bound again. -/
theorem covers_of_covers {types : List TypeExpr} (walked : Walked root types before after)
    (coherent : root.Coherent) (reached : ∀ type ∈ types, root.LeadsTo type)
    (covered : before.Covers root c) : after.Covers root c := by
  rcases covered with ⟨a, leads, head, carries⟩
  by_cases untouched : ∀ v ∈ c.typeVariables, after.binding? v = before.binding? v
  · exact ⟨a, leads, head, carries.of_binding?_eq head untouched⟩
  · rcases Classical.not_forall.mp untouched with ⟨v, touched⟩
    rcases Classical.not_imp.mp touched with ⟨declared, changed⟩
    rcases walked.named_of_changed declared changed with
      ⟨type, higher, d, member, further, otherHead, named⟩
    cases coherent.descriptor ((reached type member).trans further) leads otherHead head named
    exact walked.covers member further otherHead

theorem cons {type : TypeExpr} {types : List TypeExpr} (first : Walked root [type] before between)
    (rest : Walked root types between after) (coherent : root.Coherent)
    (reached : ∀ type ∈ types, root.LeadsTo type) : Walked root (type :: types) before after where
  keepsOpen := rest.keepsOpen
  touches v := by
    rcases rest.touches v with same | ⟨other, higher, c, member, found⟩
    · rcases first.touches v with alsoSame | ⟨other, higher, c, member, found⟩
      · exact .inl (same.trans alsoSame)
      · cases List.mem_singleton.mp member
        exact .inr ⟨type, higher, c, List.mem_cons_self, found⟩
    · exact .inr ⟨other, higher, c, List.mem_cons_of_mem _ member, found⟩
  covers member leads head := by
    rcases List.mem_cons.mp member with rfl | later
    · exact rest.covers_of_covers coherent reached (first.covers List.mem_cons_self leads head)
    · exact rest.covers later leads head

/-- A walk over what is above a type is a walk over the type if its class is taken care of. -/
theorem of_above (walked : Walked root a.above between after)
    (binds : ∀ v, between.binding? v = before.binding? v ∨
      ∃ c, a.head? = some c ∧ v ∈ c.typeVariables)
    (covers : ∀ {c}, a.head? = some c → after.Covers root c) : Walked root [a] before after where
  keepsOpen := walked.keepsOpen
  touches v := by
    rcases walked.touches v with same | ⟨type, higher, c, step, leads, found⟩
    · rcases binds v with alsoSame | ⟨c, head, declared⟩
      · exact .inl (same.trans alsoSame)
      · exact .inr ⟨a, a, c, List.mem_cons_self, .self a, head, declared⟩
    · exact .inr ⟨a, higher, c, List.mem_cons_self, .further step leads, found⟩
  covers member leads head := by
    cases List.mem_singleton.mp member
    cases leads with
    | self => exact covers head
    | further step leads => exact walked.covers step leads head

/-- A type that begins with no class has nothing to be covered but what is above it. -/
theorem of_headless (walked : Walked root a.above before after) (headless : a.head? = none) :
    Walked root [a] before after := by
  apply walked.of_above (fun _ => .inl rfl)
  intro c head
  rw [headless] at head
  cases head

end Walked

/-! ## Walks -/

/-- The walk over supertypes, each resolved with the bindings that are there when its turn comes. -/
def collectAll (depth : Nat) (supertypes : List TypeExpr) (bindings : Bindings) :
    Bounded Bindings :=
  supertypes.foldlM
    (fun bindings supertype => collect depth (bindings.resolve supertype) bindings) bindings

theorem collect_plain (depth : Nat) (c : Class) (bindings : Bindings) :
    collect (depth + 1) (.plain c) bindings = collectAll depth c.supertypes bindings := rfl

theorem collect_parameterized (depth : Nat) (raw : Class) (arguments : List TypeExpr)
    (bindings : Bindings) :
    collect (depth + 1) (.parameterized raw arguments) bindings =
      collectAll depth raw.supertypes (bindings.bindArguments raw.typeVariables arguments) := rfl

theorem collect_wildcard (depth : Nat) (upper lower : List TypeExpr) (bindings : Bindings) :
    collect (depth + 1) (.wildcard upper lower) bindings =
      match bound? upper lower with
      | some bound => collect depth bound bindings
      | none => .ok bindings := rfl

/-- A walk from anything that looks like the type ends, and covers what is there and above. -/
def Collects (root a : TypeExpr) : Prop :=
  ∀ {type : TypeExpr} {bindings : Bindings}, type.bare = a.bare → bindings.KeepsOpen root →
    ∃ after, Eventually (fun depth => collect depth type bindings) after ∧
      Walked root [a] bindings after

/-- The walk over some supertypes of a class, with bindings that contain the arguments of a type. -/
theorem walks_supertypes (coherent : root.Coherent) (leads : root.LeadsTo a)
    (head : a.head? = some c) (above : ∀ higher ∈ a.above, Collects root higher)
    {supertypes : List TypeExpr} (declared : ∀ supertype ∈ supertypes, supertype ∈ c.supertypes)
    (keeps : bindings.KeepsOpen root) (carries : bindings.Carries a.ownBindings) :
    ∃ after, Eventually (fun depth => collectAll depth supertypes bindings) after ∧
      Walked root (supertypes.map a.ownBindings.resolve) bindings after ∧
      after.Carries a.ownBindings := by
  have directly : ∀ supertype ∈ c.supertypes, a.ownBindings.resolve supertype ∈ a.above := by
    intro supertype declared
    rw [above_of_head? head]
    exact List.mem_map_of_mem declared
  induction supertypes generalizing bindings with
  | nil => exact ⟨bindings, .const bindings, .nil keeps, carries⟩
  | cons supertype rest ih =>
      rcases List.forall_mem_cons.mp declared with ⟨first, others⟩
      have alike : (bindings.resolve supertype).bare = (a.ownBindings.resolve supertype).bare :=
        sketch_resolve seesArrays_id rfl fun v occurs =>
          carries.stands keeps leads head (coherent.ownVariables leads head first occurs)
      rcases above _ (directly supertype first) alike keeps with ⟨between, ends, walked⟩
      -- No class above has the name of this one, so its variables have not been touched.
      have untouched : ∀ v ∈ c.typeVariables, between.binding? v = bindings.binding? v := by
        intro v own
        apply Classical.byContradiction
        intro changed
        rcases walked.named_of_changed own changed with
          ⟨type, higher, d, member, further, otherHead, named⟩
        cases List.mem_singleton.mp member
        exact coherent.head_ne leads head (directly supertype first) further otherHead named
      rcases ih others walked.keepsOpen (carries.of_binding?_eq head untouched) with
        ⟨after, goesOn, rests, contained⟩
      refine ⟨after, ends.bind goesOn, walked.cons rests coherent ?_, contained⟩
      intro type member
      rcases List.mem_map.mp member with ⟨other, inRest, rfl⟩
      exact leads.above (directly other (others other inRest))

/-- The walk from a class, with bindings that contain the arguments of a type with that class. -/
theorem walks_above (coherent : root.Coherent) (leads : root.LeadsTo a) (head : a.head? = some c)
    (above : ∀ higher ∈ a.above, Collects root higher) (keeps : between.KeepsOpen root)
    (carries : between.Carries a.ownBindings)
    (others : ∀ v, v ∉ c.typeVariables → between.binding? v = before.binding? v) :
    ∃ after, Eventually (fun depth => collectAll depth c.supertypes between) after ∧
      Walked root [a] before after := by
  rcases walks_supertypes coherent leads head above (fun _ declared => declared) keeps carries with
    ⟨after, ends, walked, contained⟩
  rw [← above_of_head? head] at walked
  refine ⟨after, ends, walked.of_above ?_ ?_⟩
  · intro v
    by_cases own : v ∈ c.typeVariables
    · exact .inr ⟨c, head, own⟩
    · exact .inl (others v own)
  · intro d otherHead
    cases head.symm.trans otherHead
    exact ⟨a, leads, head, contained⟩

/-- The walk from a wildcard is the walk from its bound, if there is one that can be used. -/
theorem collects_wildcard {upper lower : List TypeExpr}
    (above : ∀ higher ∈ (wildcard upper lower).above, Collects root higher) :
    Collects root (.wildcard upper lower) := by
  intro type bindings alike keeps
  cases type with
  | wildcard upper' lower' =>
      have bounds := bound?_alike alike
      cases found : bound? upper lower with
      | none =>
          have top : (wildcard upper lower).above = [] := by rw [TypeExpr.above, found]; rfl
          rw [found] at bounds
          refine ⟨bindings, (Eventually.const bindings).deeper fun depth => ?_,
            .of_headless (top ▸ .nil keeps) rfl⟩
          rw [collect_wildcard, Option.map_eq_none_iff.mp bounds]
      | some bound =>
          have top : (wildcard upper lower).above = [bound] := by rw [TypeExpr.above, found]; rfl
          rw [found] at bounds
          rcases Option.map_eq_some_iff.mp bounds with ⟨other, found', same⟩
          rcases above bound (top ▸ List.mem_cons_self) same keeps with ⟨after, ends, walked⟩
          refine ⟨after, ends.deeper fun depth => ?_, .of_headless (top ▸ walked) rfl⟩
          rw [collect_wildcard, found']
  | plain | parameterized | var | genericArray => cases alike

/-- In a coherent hierarchy over a type without variables every walk ends and covers its classes. -/
theorem collects (coherent : root.Coherent) (ground : root.freeVariables = [])
    (leads : root.LeadsTo a) : Collects root a := by
  induction a.ends with
  | intro a _ ih =>
      have above : ∀ higher ∈ a.above, Collects root higher :=
        fun higher step => ih higher step (leads.above step)
      intro type bindings alike keeps
      cases a with
      | plain c =>
          cases type with
          | plain d =>
              cases alike
              rcases walks_above coherent leads rfl above keeps (carries_empty bindings)
                (fun _ _ => rfl) with ⟨after, ends, walked⟩
              exact ⟨after, ends.deeper fun depth => collect_plain depth c bindings, walked⟩
          | parameterized | wildcard | var | genericArray => cases alike
      | parameterized raw arguments =>
          cases type with
          | parameterized other others =>
              cases (TypeExpr.parameterized.inj alike).1
              rcases keeps.bindArguments_own coherent ground leads alike with ⟨stillKeeps, carries⟩
              rcases walks_above coherent leads rfl above stillKeeps carries
                (fun v other => binding?_bindArguments other) with ⟨after, ends, walked⟩
              exact ⟨after, ends.deeper fun depth => collect_parameterized depth raw others bindings,
                walked⟩
          | plain | wildcard | var | genericArray => cases alike
      | wildcard upper lower => exact collects_wildcard above alike keeps
      | var symbol bounds =>
          cases type with
          | var =>
              exact ⟨bindings, (Eventually.const bindings).deeper fun _ => rfl,
                .of_headless (.nil keeps) rfl⟩
          | plain | parameterized | wildcard | genericArray => cases alike
      | genericArray component =>
          cases type with
          | genericArray =>
              exact ⟨bindings, (Eventually.const bindings).deeper fun _ => rfl,
                .of_headless (.nil keeps) rfl⟩
          | plain | parameterized | wildcard | var => cases alike

/-! ## The bindings of a type -/

/-- Bindings that cover the same class let its variables stand for equal types. -/
theorem Covers.stands_alike {first second : Bindings} (coherent : root.Coherent)
    (firstKeeps : first.KeepsOpen root) (secondKeeps : second.KeepsOpen root)
    (firstCovers : first.Covers root c) (secondCovers : second.Covers root c) {v : TypeVariable}
    (declared : v ∈ c.typeVariables) (bounds : List TypeExpr) :
    (first.resolve (.var v bounds) == second.resolve (.var v bounds)) = true := by
  rcases firstCovers with ⟨a, leads, head, carries⟩
  rcases secondCovers with ⟨b, alsoLeads, alsoHead, alsoCarries⟩
  have one : (first.resolve (.ofVariable v)).byName = (a.ownBindings.resolve (.ofVariable v)).byName :=
    byName_eq_of_bare_eq (carries.stands firstKeeps leads head declared)
  have other : (second.resolve (.ofVariable v)).byName =
      (b.ownBindings.resolve (.ofVariable v)).byName :=
    byName_eq_of_bare_eq (alsoCarries.stands secondKeeps alsoLeads alsoHead declared)
  rw [beq_iff_byName_eq, byName, byName, sketch_resolve_var, sketch_resolve_var]
  calc
    (first.resolve (.ofVariable v)).byName = (a.ownBindings.resolve (.ofVariable v)).byName := one
    _ = (b.ownBindings.resolve (.ofVariable v)).byName :=
        (coherent.ownBindings_alike leads alsoLeads head alsoHead rfl).stands v
    _ = (second.resolve (.ofVariable v)).byName := other.symm

/-- What a type binds covers every class there and above. -/
theorem ofType_walked (coherent : root.Coherent) (ground : root.freeVariables = []) :
    ∃ bindings, Eventually (fun depth => ofType depth root) bindings ∧
      Walked root [root] empty bindings :=
  collects coherent ground (.self root) rfl (keepsOpen_empty root)

end Bindings
end TestData
