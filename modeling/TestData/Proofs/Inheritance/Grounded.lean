import TestData.Proofs.Inheritance.Collecting
import TestData.Proofs.Inheritance.Unbound

namespace TestData

/-!
# Types resolved for good

What is put in for a variable is not resolved again.  Still nothing is left to resolve if all that
is bound is closed: without variables, and with its arrays of classes turned into array classes.

The bindings of a type without variables are closed if all classes above it get their arguments.
When the walk comes to the supertypes of a class, it has just bound the parameters of that class; so
every type it goes on to is closed, whatever it has bound before and even if classes of one name
bind the same variables to different types.  For the same reason the walk from there adds the same
bindings each time it is made, and it ends.
-/

namespace TypeExpr

/-! ## Hierarchies in which classes get their arguments -/

/--
What is written in the hierarchy of a type, from the type itself upward: bounds of wildcards and
declared supertypes as they stand, and where a class extends a variable, all that is written for
this variable anywhere in the hierarchy.  A variable is known by the name of its class, so if two
descriptors there have one name, what is written for the variable of the one counts for the other
as well; that may be more than the walk up comes to.
-/
inductive Spans (root : TypeExpr) : TypeExpr → Prop where
  | self : Spans root root
  | bound {upper lower : List TypeExpr} {type : TypeExpr}
      (spans : Spans root (.wildcard upper lower)) (found : bound? upper lower = some type) :
      Spans root type
  | declared {type supertype : TypeExpr} {c : Class} (spans : Spans root type)
      (head : type.head? = some c) (declares : supertype ∈ c.supertypes) : Spans root supertype
  | given {symbol : TypeVariable} {bounds : List TypeExpr} {raw : Class}
      {arguments : List TypeExpr} {argument : TypeExpr} (extended : Spans root (.var symbol bounds))
      (spans : Spans root (.parameterized raw arguments))
      (entry : (symbol, argument) ∈ raw.typeVariables.zip arguments) : Spans root argument

/--
The classes in the hierarchy of a type get an argument for each of their parameters and declare
their supertypes in terms of these parameters.  Classes that are named in arguments only do not
count, unless a class extends the variable that the argument is given for.
-/
structure Saturated (root : TypeExpr) : Prop where
  plain {c : Class} (spans : root.Spans (.plain c)) : c.typeParameters = []
  parameterized {raw : Class} {arguments : List TypeExpr}
    (spans : root.Spans (.parameterized raw arguments)) :
    raw.typeParameters.length ≤ arguments.length
  ownVariables {type supertype : TypeExpr} {c : Class} (spans : root.Spans type)
    (head : type.head? = some c) (declares : supertype ∈ c.supertypes) {v : TypeVariable}
    (occurs : v ∈ supertype.freeVariables) : v ∈ c.typeVariables

/-- Resolving has nothing left to do in the type, whatever is bound. -/
structure Closed (type : TypeExpr) : Prop where
  ground : type.freeVariables = []
  normal : type.Normal

end TypeExpr

namespace Bindings

open TypeExpr

variable {root type : TypeExpr} {c : Class} {bindings made before first second : Bindings}

/-! ## Resolving with closed bindings -/

theorem resolve_of_closed (closed : type.Closed) : bindings.resolve type = type :=
  (resolve_of_ground closed.ground).trans closed.normal

/-- All of the variables that occur in a type are bound. -/
def Fills (bindings : Bindings) (type : TypeExpr) : Prop :=
  ∀ v ∈ type.freeVariables, (bindings.binding? v).isSome = true

theorem fills_of_ground (ground : type.freeVariables = []) : bindings.Fills type := by
  unfold Fills
  rw [ground]
  nofun

theorem Fills.argument {raw : Class} {arguments : List TypeExpr} {argument : TypeExpr}
    (fills : bindings.Fills (.parameterized raw arguments)) (member : argument ∈ arguments) :
    bindings.Fills argument :=
  fun v occurs => fills v (mem_freeVariables_parameterized.mpr ⟨argument, member, occurs⟩)

theorem Fills.bound {upper lower : List TypeExpr} {bound : TypeExpr}
    (fills : bindings.Fills (.wildcard upper lower)) (member : bound ∈ upper ++ lower) :
    bindings.Fills bound :=
  fun v occurs => fills v (mem_freeVariables_wildcard.mpr ⟨bound, member, occurs⟩)

/-- All that is bound is closed. -/
def Closed (bindings : Bindings) : Prop :=
  ∀ v value, bindings.binding? v = some value → value.Closed

theorem closed_empty : empty.Closed :=
  fun _ _ bound => unbound bound

theorem Closed.normal_resolve (closed : bindings.Closed) (type : TypeExpr) :
    (bindings.resolve type).Normal :=
  Bindings.normal_resolve (fun bound => (closed _ _ bound).normal) type

/-- No variable that is bound is left in a type that was resolved. -/
theorem Closed.spares_resolve (closed : bindings.Closed) (type : TypeExpr) :
    bindings.Spares (bindings.resolve type) := by
  intro v occurs
  rcases freeVariables_resolve bindings occurs with ⟨w, -, stands⟩
  rw [ofVariable, resolve_var] at stands
  cases bound : bindings.binding? w with
  | none =>
      rw [bound] at stands
      cases List.mem_singleton.mp stands
      exact bound
  | some value =>
      rw [bound, Option.getD_some, (closed w value bound).ground] at stands
      cases stands

/-- A type all of whose variables are bound comes out closed. -/
theorem Closed.closed_resolve (closed : bindings.Closed) (fills : bindings.Fills type) :
    (bindings.resolve type).Closed where
  ground := by
    apply List.eq_nil_iff_forall_not_mem.mpr
    intro v occurs
    rcases freeVariables_resolve bindings occurs with ⟨w, within, stands⟩
    rcases Option.isSome_iff_exists.mp (fills w within) with ⟨value, bound⟩
    rw [ofVariable, resolve_var, bound, Option.getD_some, (closed w value bound).ground] at stands
    cases stands
  normal := closed.normal_resolve type

/-- What was resolved is left as it is when it is resolved once more. -/
theorem Closed.resolve_resolve (closed : bindings.Closed) (type : TypeExpr) :
    bindings.resolve (bindings.resolve type) = bindings.resolve type := by
  have spares : ∀ v ∈ (bindings.resolve type).freeVariables,
      bindings.binding? v = empty.binding? v := closed.spares_resolve type
  exact (resolve_congr spares).trans (closed.normal_resolve type)

/-! ## Bindings added to others -/

/-- What is bound here, and for all other variables what was bound before. -/
def onto (bindings before : Bindings) : Bindings where
  entries := bindings.entries ++ before.entries

theorem binding?_onto (bindings before : Bindings) (v : TypeVariable) :
    (bindings.onto before).binding? v = (bindings.binding? v).or (before.binding? v) :=
  List.lookup_append

theorem onto_onto (second first before : Bindings) :
    second.onto (first.onto before) = (second.onto first).onto before :=
  congrArg Bindings.mk (List.append_assoc ..).symm

/-- What was bound before plays no part in a type whose variables are all bound anew. -/
theorem Fills.resolve_onto (fills : bindings.Fills type) :
    (bindings.onto before).resolve type = bindings.resolve type := by
  apply resolve_congr
  intro v occurs
  rw [binding?_onto]
  exact Option.or_of_isSome (fills v occurs)

theorem Fills.onto (fills : before.Fills type) (bindings : Bindings) :
    (bindings.onto before).Fills type := by
  intro v occurs
  rw [binding?_onto, Option.isSome_or, fills v occurs, Bool.or_true]

theorem bindArguments_onto {symbols : List TypeVariable} {arguments : List TypeExpr}
    (ground : ∀ argument ∈ arguments, argument.freeVariables = []) :
    (made.onto before).bindArguments symbols arguments =
      (made.bindArguments symbols arguments).onto before := by
  induction symbols generalizing made arguments with
  | nil => rfl
  | cons symbol symbols ih =>
      cases arguments with
      | nil => rfl
      | cons argument arguments =>
          rcases List.forall_mem_cons.mp ground with ⟨first, others⟩
          rw [bindArguments_cons, bindArguments_cons, ← ih others]
          exact congrArg (fun value =>
            ((made.onto before).insert symbol value).bindArguments symbols arguments)
            (resolve_of_ground first)

/-- Every parameter that gets an argument is bound, and so is all that was bound before. -/
theorem isSome_bindArguments {symbols : List TypeVariable} {arguments : List TypeExpr}
    (enough : symbols.length ≤ arguments.length) {v : TypeVariable}
    (given : v ∈ symbols ∨ (bindings.binding? v).isSome = true) :
    ((bindings.bindArguments symbols arguments).binding? v).isSome = true := by
  induction symbols generalizing arguments bindings with
  | nil =>
      rcases given with member | before
      · cases member
      · exact before
  | cons symbol symbols ih =>
      cases arguments with
      | nil => cases enough
      | cons argument arguments =>
          rw [bindArguments_cons]
          apply ih (Nat.le_of_succ_le_succ enough)
          by_cases it : v = symbol
          · rw [it, binding?_insert_self]
            exact .inr rfl
          · rw [binding?_insert_of_ne _ _ it]
            exact given.imp_left fun member => List.mem_of_ne_of_mem it member

/-! ## Walks that add the same bindings each time -/

/--
A walk from the type ends and adds the same bindings whatever was bound before, all of them closed;
and so does a walk from what a variable is bound to, if the hierarchy spans the variable.
-/
inductive Walkable (root : TypeExpr) : TypeExpr → Prop where
  | intro {type : TypeExpr} (made : Bindings) (closed : made.Closed)
      (further : ∀ symbol bounds value, root.Spans (.var symbol bounds) →
        made.binding? symbol = some value → Walkable root value)
      (walks : ∀ before, Eventually (fun depth => collect depth type before) (made.onto before)) :
      Walkable root type

/-- Whatever is bound is closed, and walks may start from it where a class may extend it. -/
structure Prepared (root : TypeExpr) (bindings : Bindings) : Prop where
  closed : bindings.Closed
  walkable {symbol : TypeVariable} {bounds : List TypeExpr} {value : TypeExpr}
    (extended : root.Spans (.var symbol bounds)) (bound : bindings.binding? symbol = some value) :
    Walkable root value

theorem Prepared.walkable_of_walks (prepared : made.Prepared root)
    (walks : ∀ before, Eventually (fun depth => collect depth type before) (made.onto before)) :
    Walkable root type :=
  .intro made prepared.closed (fun _ _ _ => prepared.walkable) walks

theorem Walkable.exists_prepared (walkable : Walkable root type) :
    ∃ made : Bindings, made.Prepared root ∧ ∀ before,
      Eventually (fun depth => collect depth type before) (made.onto before) := by
  rcases walkable with ⟨made, closed, further, walks⟩
  exact ⟨made, ⟨closed, further _ _ _⟩, walks⟩

theorem prepared_empty : empty.Prepared root where
  closed := closed_empty
  walkable _ bound := unbound bound

theorem Prepared.insert (prepared : bindings.Prepared root) {symbol : TypeVariable}
    {value : TypeExpr} (closed : value.Closed)
    (walkable : ∀ bounds, root.Spans (.var symbol bounds) → Walkable root value) :
    (bindings.insert symbol value).Prepared root where
  closed v other bound := by
    rcases of_binding?_insert bound with ⟨rfl, rfl⟩ | before
    · exact closed
    · exact prepared.closed v other before
  walkable {v bounds other} extended bound := by
    rcases of_binding?_insert bound with ⟨rfl, rfl⟩ | before
    · exact walkable bounds extended
    · exact prepared.walkable extended before

theorem Prepared.onto (after : second.Prepared root) (before : first.Prepared root) :
    (second.onto first).Prepared root where
  closed v value bound := by
    rw [binding?_onto, Option.or_eq_some_iff] at bound
    rcases bound with late | ⟨-, early⟩
    · exact after.closed v value late
    · exact before.closed v value early
  walkable {v bounds value} extended bound := by
    rw [binding?_onto, Option.or_eq_some_iff] at bound
    rcases bound with late | ⟨-, early⟩
    · exact after.walkable extended late
    · exact before.walkable extended early

theorem Prepared.bindArguments (prepared : bindings.Prepared root) {symbols : List TypeVariable}
    {arguments : List TypeExpr} (closed : ∀ argument ∈ arguments, argument.Closed)
    (walkable : ∀ symbol argument bounds, (symbol, argument) ∈ symbols.zip arguments →
      root.Spans (.var symbol bounds) → Walkable root argument) :
    (bindings.bindArguments symbols arguments).Prepared root := by
  induction symbols generalizing bindings arguments with
  | nil => exact prepared
  | cons symbol symbols ih =>
      cases arguments with
      | nil => exact prepared
      | cons argument arguments =>
          rcases List.forall_mem_cons.mp closed with ⟨first, others⟩
          rw [bindArguments_cons, resolve_of_closed first]
          apply ih _ others
          · intro other value bounds entry
            exact walkable other value bounds (List.mem_cons_of_mem _ entry)
          · exact prepared.insert first fun bounds =>
              walkable symbol argument bounds List.mem_cons_self

/-- A walk may start from the type once closed types are put in for all of its variables. -/
def Passable (root type : TypeExpr) : Prop :=
  ∀ ⦃put : Bindings⦄, put.Prepared root → put.Fills type → Walkable root (put.resolve type)

/-- Bindings prepared for some supertypes, in which their variables are bound, lead through them. -/
theorem Prepared.walks_supertypes {supertypes : List TypeExpr} (prepared : made.Prepared root)
    (fills : ∀ supertype ∈ supertypes, made.Fills supertype)
    (passable : ∀ supertype ∈ supertypes, Passable root supertype) :
    ∃ final : Bindings, final.Prepared root ∧ ∀ before,
      Eventually (fun depth => collectAll depth supertypes (made.onto before))
        (final.onto before) := by
  induction supertypes generalizing made with
  | nil => exact ⟨made, prepared, fun before => .const _⟩
  | cons supertype rest ih =>
      rcases List.forall_mem_cons.mp fills with ⟨here, ahead⟩
      rcases List.forall_mem_cons.mp passable with ⟨first, others⟩
      rcases (first prepared here).exists_prepared with ⟨added, adds, walks⟩
      have stillFills : ∀ later ∈ rest, (added.onto made).Fills later :=
        fun later member => (ahead later member).onto added
      rcases ih (adds.onto prepared) stillFills others with ⟨final, ready, goesOn⟩
      refine ⟨final, ready, fun before => ?_⟩
      have begins := walks (made.onto before)
      rw [onto_onto, ← here.resolve_onto] at begins
      exact begins.bind (goesOn before)

/-- A walk that binds nothing. -/
theorem walkable_of_idle (idle : ∀ depth before, collect (depth + 1) type before = .ok before) :
    Walkable root type :=
  prepared_empty.walkable_of_walks fun before =>
    (Eventually.const before).deeper fun depth => idle depth before

/-- A walk that binds the parameters of a class of the hierarchy and goes on to its supertypes. -/
theorem Prepared.walkable_of_class (prepared : made.Prepared root) (saturated : root.Saturated)
    (spans : root.Spans type) (head : type.head? = some c)
    (binds : ∀ v ∈ c.typeVariables, (made.binding? v).isSome = true)
    (above : ∀ supertype ∈ c.supertypes, root.Spans supertype → Passable root supertype)
    {resolved : TypeExpr}
    (unfolds : ∀ depth before,
      collect (depth + 1) resolved before = collectAll depth c.supertypes (made.onto before)) :
    Walkable root resolved := by
  have fills : ∀ supertype ∈ c.supertypes, made.Fills supertype :=
    fun supertype declares v occurs =>
      binds v (saturated.ownVariables spans head declares occurs)
  have passable : ∀ supertype ∈ c.supertypes, Passable root supertype :=
    fun supertype declares => above supertype declares (.declared spans head declares)
  rcases prepared.walks_supertypes fills passable with ⟨final, ready, walks⟩
  exact ready.walkable_of_walks fun before =>
    (walks before).deeper fun depth => unfolds depth before

section Passable

variable {raw : Class} {arguments upper lower : List TypeExpr}

theorem passable_plain (saturated : root.Saturated) (spans : root.Spans (.plain c))
    (above : ∀ supertype ∈ c.supertypes, root.Spans supertype → Passable root supertype) :
    Passable root (.plain c) := by
  intro put _ _
  have none : c.typeVariables = [] := by
    rw [Class.typeVariables, saturated.plain spans]
    rfl
  apply prepared_empty.walkable_of_class saturated spans rfl _ above fun _ _ => rfl
  rw [none]
  nofun

theorem passable_parameterized (saturated : root.Saturated)
    (spans : root.Spans (.parameterized raw arguments))
    (above : ∀ supertype ∈ raw.supertypes, root.Spans supertype → Passable root supertype)
    (inside : ∀ argument ∈ arguments, root.Spans argument → Passable root argument) :
    Passable root (.parameterized raw arguments) := by
  intro put prepared fills
  have closed : ∀ argument ∈ arguments.map put.resolve, argument.Closed :=
    List.forall_mem_map.mpr fun argument member =>
      prepared.closed.closed_resolve (fills.argument member)
  have enough : raw.typeVariables.length ≤ (arguments.map put.resolve).length := by
    rw [Class.typeVariables, List.length_map, List.length_map]
    exact saturated.parameterized spans
  have made :
      (empty.bindArguments raw.typeVariables (arguments.map put.resolve)).Prepared root := by
    apply prepared_empty.bindArguments closed
    intro symbol resolved bounds entry extended
    rw [List.zip_map_right] at entry
    rcases List.mem_map.mp entry with ⟨⟨_, argument⟩, declared, same⟩
    cases same
    have member := (List.of_mem_zip declared).2
    exact inside argument member (.given extended spans declared) prepared (fills.argument member)
  apply made.walkable_of_class saturated spans rfl _ above
  · intro depth before
    rw [resolve, resolveAll_eq_map, collect_parameterized,
      ← bindArguments_onto fun argument member => (closed argument member).ground]
    rfl
  · exact fun v declared => isSome_bindArguments enough (.inl declared)

theorem passable_wildcard
    (behind : ∀ bound, bound? upper lower = some bound → Passable root bound) :
    Passable root (.wildcard upper lower) := by
  intro put prepared fills
  rw [resolve, resolveAll_eq_map, resolveAll_eq_map]
  cases found : bound? upper lower with
  | none =>
      apply walkable_of_idle
      intro depth before
      rw [collect_wildcard, bound?_map, found]
      rfl
  | some bound =>
      have walkable := behind bound found prepared (fills.bound (bound?_mem found))
      rcases walkable.exists_prepared with ⟨made, ready, walks⟩
      refine ready.walkable_of_walks fun before => (walks before).deeper fun depth => ?_
      rw [collect_wildcard, bound?_map, found]
      rfl

theorem passable_var {symbol : TypeVariable} {bounds : List TypeExpr}
    (spans : root.Spans (.var symbol bounds)) : Passable root (.var symbol bounds) := by
  intro put prepared fills
  rcases Option.isSome_iff_exists.mp (fills symbol List.mem_cons_self) with ⟨value, bound⟩
  rw [resolve_var, bound]
  exact prepared.walkable spans bound

/-- An array class that an array turns into has no supertypes. -/
theorem passable_genericArray (component : TypeExpr) : Passable root (.genericArray component) := by
  intro put _ _
  apply walkable_of_idle
  intro depth before
  rw [resolve_genericArray]
  cases put.resolve component <;> rfl

end Passable

/--
All that is written in the hierarchy is passable.  Supertypes are part of the descriptors in a type,
so the induction is on the type as it is written, whatever is put in for its variables later on.
-/
theorem passable_of_spans (saturated : root.Saturated) (spans : root.Spans type) :
    Passable root type := by
  induction type using descriptor_induction with
  | plain c above => exact passable_plain saturated spans above
  | parameterized raw arguments above inside =>
      exact passable_parameterized saturated spans above inside
  | wildcard upper lower inUpper inLower =>
      apply passable_wildcard
      intro bound found
      have inEither := List.forall_mem_append.mpr ⟨inUpper, inLower⟩
      exact inEither bound (bound?_mem found) (.bound spans found)
  | var symbol bounds => exact passable_var spans
  | genericArray component inside => exact passable_genericArray component

/-! ## From a type without variables -/

theorem bindArguments_resolved {symbols : List TypeVariable} {arguments : List TypeExpr}
    (ground : ∀ argument ∈ arguments, argument.freeVariables = []) :
    before.bindArguments symbols (arguments.map empty.resolve) =
      before.bindArguments symbols arguments := by
  induction symbols generalizing before arguments with
  | nil => rfl
  | cons symbol symbols ih =>
      cases arguments with
      | nil => rfl
      | cons argument arguments =>
          rcases List.forall_mem_cons.mp ground with ⟨first, others⟩
          have closed : (empty.resolve argument).Closed :=
            closed_empty.closed_resolve (fills_of_ground first)
          have same : before.resolve (empty.resolve argument) = before.resolve argument :=
            (resolve_of_closed closed).trans (resolve_of_ground first)
          rw [List.map_cons, bindArguments_cons, bindArguments_cons, same, ih others]

/-- A walk from a type without variables does not tell whether the type has been resolved. -/
theorem collect_resolved (ground : type.freeVariables = []) (depth : Nat) :
    collect depth (empty.resolve type) before = collect depth type before := by
  induction depth generalizing type with
  | zero => rfl
  | succ depth ih =>
      cases type with
      | plain c => rfl
      | parameterized raw arguments =>
          rw [freeVariables, freeVariablesAll_eq_flatMap, List.flatMap_eq_nil_iff] at ground
          rw [resolve, resolveAll_eq_map, collect_parameterized, collect_parameterized,
            bindArguments_resolved ground]
      | wildcard upper lower =>
          rw [resolve, resolveAll_eq_map, resolveAll_eq_map, collect_wildcard, collect_wildcard,
            bound?_map]
          cases found : bound? upper lower with
          | none => rfl
          | some bound =>
              simp only [freeVariables, freeVariablesAll_eq_flatMap, ← List.flatMap_append,
                List.flatMap_eq_nil_iff] at ground
              exact ih (ground bound (bound?_mem found))
      | var symbol bounds => cases ground
      | genericArray component =>
          rw [resolve_genericArray]
          cases empty.resolve component <;> rfl

end Bindings

/--
If in the hierarchy of a type without variables all classes get their arguments and declare their
supertypes in terms of their own parameters, then the walk up that hierarchy ends; and with what it
binds, every type is resolved for good: resolving it once more changes nothing, and none of the
variables left in it is bound.
-/
theorem Bindings.resolved_for_good {root : TypeExpr} (ground : root.freeVariables = [])
    (saturated : root.Saturated) :
    ∃ bindings, Eventually (fun depth => ofType depth root) bindings ∧
      ∀ type, bindings.resolve (bindings.resolve type) = bindings.resolve type ∧
        ∀ v ∈ (bindings.resolve type).freeVariables, bindings.binding? v = none := by
  have passable : Passable root root := passable_of_spans saturated .self
  rcases (passable prepared_empty (fills_of_ground ground)).exists_prepared with
    ⟨bindings, prepared, walks⟩
  have alone : bindings.onto empty = bindings := congrArg Bindings.mk (List.append_nil _)
  have ends : Eventually (fun depth => collect depth root empty) bindings := by
    simpa only [collect_resolved ground, alone] using walks empty
  refine ⟨bindings, ends, fun type => ⟨?_, ?_⟩⟩
  · exact prepared.closed.resolve_resolve type
  · exact prepared.closed.spares_resolve type

namespace Class

def tray : Class :=
  generic "Tray" ["T"]

def label : Class :=
  { named "Label" with superclass := some (.parameterized tray [.plain string]) }

def stack : Class :=
  { generic "Stack" ["U"] with
    superclass := some (.parameterized tray [.genericArray (.ofVariable ⟨"Stack", "U"⟩)])
    interfaces := [.ofVariable ⟨"Stack", "U"⟩] }

end Class

namespace TypeExpr

/-- What is written in the hierarchy of a stack of labels. -/
def stackOfLabels : List TypeExpr :=
  [.parameterized .stack [.plain .label],
    .parameterized .tray [.genericArray (.ofVariable ⟨"Stack", "U"⟩)],
    .ofVariable ⟨"Stack", "U"⟩, .plain .label, .parameterized .tray [.plain .string]]

theorem supertypes_stackOfLabels :
    ∀ type ∈ stackOfLabels, ∀ c, type.head? = some c → ∀ supertype ∈ c.supertypes,
      supertype ∈ stackOfLabels ∧ ∀ v ∈ supertype.freeVariables, v ∈ c.typeVariables := by
  simp only [stackOfLabels, List.forall_mem_cons]
  refine ⟨?_, ?_, ?_, ?_, ?_, nofun⟩ <;>
  · intro c head
    cases head <;>
      simp [Class.supertypes, Class.typeVariables, Class.stack, Class.tray, Class.label,
        Class.generic, Class.named, freeVariables, ofVariable]

theorem arguments_stackOfLabels :
    ∀ type ∈ stackOfLabels, ∀ raw arguments, type = .parameterized raw arguments →
      raw.typeParameters.length ≤ arguments.length ∧
        ∀ argument, (⟨"Stack", "U"⟩, argument) ∈ raw.typeVariables.zip arguments →
          argument ∈ stackOfLabels := by
  simp only [stackOfLabels, List.forall_mem_cons]
  refine ⟨?_, ?_, nofun, nofun, ?_, nofun⟩ <;>
  · rintro raw arguments ⟨⟩
    refine ⟨Nat.le_refl 1, fun argument entry => ?_⟩
    simp_all [Class.typeVariables, Class.stack, Class.tray, Class.generic]

theorem mem_stackOfLabels {type : TypeExpr}
    (spans : (TypeExpr.parameterized .stack [.plain .label]).Spans type) :
    type ∈ stackOfLabels := by
  have noWildcard : ∀ type ∈ stackOfLabels, type.isWildcard = false := by
    simp [stackOfLabels, isWildcard, ofVariable]
  have onlyU : ∀ type ∈ stackOfLabels, ∀ symbol bounds, type = .var symbol bounds →
      symbol = ⟨"Stack", "U"⟩ := by
    simp [stackOfLabels, ofVariable]
  induction spans with
  | self => exact List.mem_cons_self
  | bound spans found ih => cases noWildcard _ ih
  | declared spans head declares ih => exact (supertypes_stackOfLabels _ ih _ head _ declares).1
  | given extended spans entry first second =>
      cases onlyU _ first _ _ rfl
      exact (arguments_stackOfLabels _ second _ _ rfl).2 _ entry

theorem stackOfLabels_saturated :
    (TypeExpr.parameterized .stack [.plain .label]).Saturated where
  plain spans := by
    have only : ∀ type ∈ stackOfLabels, ∀ c, type = .plain c → c.typeParameters = [] := by
      simp [stackOfLabels, ofVariable, Class.label, Class.named]
    exact only _ (mem_stackOfLabels spans) _ rfl
  parameterized spans := (arguments_stackOfLabels _ (mem_stackOfLabels spans) _ _ rfl).1
  ownVariables spans head declares _ occurs :=
    (supertypes_stackOfLabels _ (mem_stackOfLabels spans) _ head _ declares).2 _ occurs

end TypeExpr

/--
A stack of labels is a tray of arrays of labels and, by its second supertype, a label and so a tray
of texts.  The second tray counts in the end, and nothing is left to resolve all the same.
-/
theorem Bindings.stack_of_labels_resolved_for_good :
    let root : TypeExpr := .parameterized .stack [.plain .label]
    let u : TypeExpr := .ofVariable ⟨"Stack", "U"⟩
    let t : TypeExpr := .ofVariable ⟨"Tray", "T"⟩
    root.freeVariables = [] ∧ root.Saturated ∧
    ∃ bindings, Eventually (fun depth => ofType depth root) bindings ∧
      bindings.resolve u = .plain .label ∧ bindings.resolve t = .plain .string ∧
      ∀ type, bindings.resolve (bindings.resolve type) = bindings.resolve type := by
  intro root u t
  have ends : Eventually (fun depth => ofType depth root)
      ⟨[(⟨"Tray", "T"⟩, .plain .string), (⟨"Tray", "T"⟩, .plain (.arrayOf .label)),
        (⟨"Stack", "U"⟩, .plain .label)]⟩ := by
    refine ⟨4, fun depth deep => ?_⟩
    rcases Nat.exists_eq_add_of_le' deep with ⟨less, rfl⟩
    rfl
  rcases resolved_for_good rfl TypeExpr.stackOfLabels_saturated with ⟨bindings, given, settled⟩
  cases given.unique ends
  exact ⟨rfl, TypeExpr.stackOfLabels_saturated, _, ends, rfl, rfl, fun type => (settled type).1⟩

end TestData
