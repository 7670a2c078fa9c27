import Mathlib.Logic.Relation
import TestData.Proofs.Inheritance.Assignability

namespace TestData

/-!
# What a hierarchy lists

The hierarchy of a class is what a depth-first walk leaves behind.  The walk passes over the
classes it has met, and with them over everything above them.  Within a family nothing gets lost
by this: a class that has been met and left is listed with all that stands above it, and one that
has been met and not left yet stands below the classes ahead of the walk, which do not lead back
to it.

A hierarchy starts with its class, lists what the class leads to, and lists nothing twice.  For
classes that are neither primitive nor arrays it tells what they can be used as.
-/

namespace Class

variable {c d e : Class} {roots seen : List Class}

/-! ## Ordinary classes -/

theorem Ordinary.component?_eq_none (ordinary : c.Ordinary) : c.component? = none := by
  have noArray := ordinary.2
  rw [isArray, Option.isSome_eq_false_iff] at noArray
  exact Option.isNone_iff_eq_none.mp noArray

/-- An ordinary class can be used in all the ways there are. -/
theorem Suits.isAssignableFrom_of_ordinary (suits : d.Suits c) (ordinary : c.Ordinary) :
    d.isAssignableFrom c = true :=
  suits.isAssignableFrom fun array => nomatch array.symm.trans ordinary.2

/-- Among ordinary classes a class can be used as what is named like a class it leads to. -/
theorem LeadsTo.isAssignableFrom (leads : c.LeadsTo d) (ordinary : ∀ b, c.LeadsTo b → b.Ordinary)
    (named : d.name = e.name) : e.isAssignableFrom c = true := by
  induction c using descent_induction with
  | step c above _ =>
      have suits : e.Suits c := by
        rcases leads with rfl | further
        · exact .same named.symm
        · rcases extends_iff.mp further with ⟨b, declared, leads⟩
          have ordinaryAbove : ∀ a, b.LeadsTo a → a.Ordinary :=
            fun a leads => ordinary a (.further declared leads)
          exact .above (ordinary c (.refl c)).1 declared (above b declared leads ordinaryAbove)
      exact suits.isAssignableFrom_of_ordinary (ordinary c (.refl c))

/-! ## The walk from class to class -/

/-- Add some classes and everything above them, one class after the other. -/
def ascendEach (roots seen : List Class) : List Class :=
  roots.foldl (fun seen c => c.ascend seen) seen

theorem ascendAll_eq (types : List TypeExpr) (seen : List Class) :
    ascendAll types seen = ascendEach (types.filterMap TypeExpr.rawType) seen := by
  induction types generalizing seen with
  | nil => rfl
  | cons type types ih =>
      rw [ascendAll_cons, ih, ascendType_eq]
      cases raw : type.rawType with
      | none => rw [List.filterMap_cons_none raw]
      | some c =>
          rw [List.filterMap_cons_some raw]
          rfl

theorem ascendEach_append (first second seen : List Class) :
    ascendEach (first ++ second) seen = ascendEach second (ascendEach first seen) :=
  List.foldl_append

/-- A class whose name has been met is passed over. -/
theorem ascendEach_of_met (met : ∃ d ∈ seen, d.name = c.name) :
    ascendEach (c :: roots) seen = ascendEach roots seen := by
  rcases met with ⟨d, member, named⟩
  have known : (seen.any fun met => met.name == c.name) = true :=
    List.any_eq_true.mpr ⟨d, member, beq_iff_eq.mpr named⟩
  show ascendEach roots (c.ascend seen) = _
  rw [ascend_eq, if_pos known]

/-- Any other class is listed, and the walk goes on to its supertypes first. -/
theorem ascendEach_of_new (new : ∀ d ∈ seen, d.name ≠ c.name) :
    ascendEach (c :: roots) seen = ascendEach roots (ascendEach c.rawSupertypes (seen ++ [c])) := by
  have unknown : ¬ (seen.any fun met => met.name == c.name) = true := by
    intro known
    rcases List.any_eq_true.mp known with ⟨d, member, named⟩
    exact new d member (beq_iff_eq.mp named)
  show ascendEach roots (c.ascend seen) = _
  rw [ascend_eq, if_neg unknown, ascendAll_eq]
  rfl

theorem hierarchy_eq (c : Class) : c.hierarchy = ascendEach c.rawSupertypes [c] := by
  show ascendEach [c] [] = _
  apply ascendEach_of_new
  intro d met
  cases met

/-- What the walk does with a class depends on its name having been met. -/
@[elab_as_elim]
theorem walk_induction {motive : List Class → List Class → Prop}
    (nil : ∀ seen, motive [] seen)
    (met : ∀ c roots seen, (∃ d ∈ seen, d.name = c.name) → motive roots seen →
      motive (c :: roots) seen)
    (enter : ∀ c roots seen, (∀ d ∈ seen, d.name ≠ c.name) →
      motive c.rawSupertypes (seen ++ [c]) →
      motive roots (ascendEach c.rawSupertypes (seen ++ [c])) → motive (c :: roots) seen)
    (roots seen : List Class) : motive roots seen := by
  have first : ∀ c roots seen, (∀ seen, motive roots seen) → motive (c :: roots) seen := by
    intro c
    induction c using descent_induction with
    | step c above _ =>
        intro roots seen rest
        by_cases known : ∃ d ∈ seen, d.name = c.name
        · exact met c roots seen known (rest seen)
        · have new : ∀ d ∈ seen, d.name ≠ c.name :=
            fun d member named => known ⟨d, member, named⟩
          have supertypes : ∀ classes ⊆ c.rawSupertypes, ∀ seen, motive classes seen := by
            intro classes declared
            induction classes with
            | nil => exact nil
            | cons d classes ih =>
                rcases List.cons_subset.mp declared with ⟨member, others⟩
                exact fun seen => above d member classes seen (ih others)
          exact enter c roots seen new (supertypes _ (List.Subset.refl _) _) (rest _)
  induction roots generalizing seen with
  | nil => exact nil seen
  | cons c roots ih => exact first c roots seen ih

/-- What the walk has met it keeps, and goes on behind it. -/
theorem prefix_ascendEach (roots seen : List Class) : seen <+: ascendEach roots seen := by
  induction roots, seen using walk_induction with
  | nil seen => exact List.prefix_rfl
  | met c roots seen known rest =>
      rw [ascendEach_of_met known]
      exact rest
  | enter c roots seen new above rest =>
      rw [ascendEach_of_new new]
      exact ((List.prefix_append seen [c]).trans above).trans rest

/-- The walk lists no two classes of one name. -/
theorem nodup_names_ascendEach (roots seen : List Class) (distinct : (seen.map name).Nodup) :
    ((ascendEach roots seen).map name).Nodup := by
  induction roots, seen using walk_induction with
  | nil seen => exact distinct
  | met c roots seen known rest =>
      rw [ascendEach_of_met known]
      exact rest distinct
  | enter c roots seen new above rest =>
      rw [ascendEach_of_new new]
      apply rest (above _)
      have unknown : c.name ∉ seen.map name := by
        intro met
        rcases List.mem_map.mp met with ⟨d, member, named⟩
        exact new d member named
      rw [List.map_append, List.nodup_append_comm]
      exact List.nodup_cons.mpr ⟨unknown, distinct⟩

theorem nodup_names_hierarchy (c : Class) : (c.hierarchy.map name).Nodup :=
  nodup_names_ascendEach [c] [] List.nodup_nil

theorem nodup_hierarchy (c : Class) : c.hierarchy.Nodup :=
  .of_map name (nodup_names_hierarchy c)

/-- A hierarchy starts with what the walk makes of the first supertypes. -/
theorem ascendEach_prefix_hierarchy (starts : roots <+: c.rawSupertypes) :
    ascendEach roots [c] <+: c.hierarchy := by
  rcases starts with ⟨rest, split⟩
  rw [hierarchy_eq, ← split, ascendEach_append]
  exact prefix_ascendEach rest _

theorem hierarchy_head (c : Class) : c.hierarchy.head? = some c := by
  rcases prefix_ascendEach c.rawSupertypes [c] with ⟨rest, split⟩
  rw [hierarchy_eq, ← split]
  rfl

/-! ## The walk as a loop -/

/-- A walk under way, with the classes it has yet to come to, in order, and those it has met. -/
structure Walk where
  pending : List Class
  met : List Class

/-- Pass over the next class if its name has been met, else list it and go on to its supertypes. -/
def Walk.step : Walk → Option Walk
  | ⟨[], _⟩ => none
  | ⟨c :: pending, met⟩ =>
      if ∃ d ∈ met, d.name = c.name then some ⟨pending, met⟩
      else some ⟨c.rawSupertypes ++ pending, met ++ [c]⟩

/-- From one state of the walk the loop comes to the other one. -/
def Walk.Runs : Walk → Walk → Prop :=
  Relation.ReflTransGen fun walk next => walk.step = some next

/-- The loop deals with the next classes, whatever is behind them, as the recursion does. -/
theorem Walk.runs_ascendEach (roots seen pending : List Class) :
    Walk.Runs ⟨roots ++ pending, seen⟩ ⟨pending, ascendEach roots seen⟩ := by
  induction roots, seen using walk_induction generalizing pending with
  | nil seen => exact Relation.ReflTransGen.refl
  | met c roots seen known rest =>
      rw [ascendEach_of_met known]
      exact Relation.ReflTransGen.head (if_pos known) (rest pending)
  | enter c roots seen new above rest =>
      rw [ascendEach_of_new new]
      have unknown : ¬ ∃ d ∈ seen, d.name = c.name :=
        fun ⟨d, member, named⟩ => new d member named
      exact Relation.ReflTransGen.head (if_neg unknown)
        ((above (roots ++ pending)).trans (rest pending))

/-- Started at a class the loop runs until nothing is pending and has then met the hierarchy. -/
theorem Walk.runs_hierarchy (c : Class) : Walk.Runs ⟨[c], []⟩ ⟨[], c.hierarchy⟩ :=
  Walk.runs_ascendEach [c] [] []

end Class

namespace ClassFamily

open TestData.Class

variable {family : ClassFamily} {c d : Class} {roots seen : List Class}

/-! ## What the walk finds -/

/--
The walk may come to a class: what it has met it has met with everything above, as far as the
class leads there.
-/
structure Ready (family : ClassFamily) (seen : List Class) (c : Class) : Prop where
  members : ∀ d ∈ seen, family.contains d
  above : ∀ d ∈ seen, c.LeadsTo d → ∀ e, d.LeadsTo e → e ∈ seen

namespace Ready

theorem start (family : ClassFamily) (c : Class) : family.Ready [] c where
  members _ member := nomatch member
  above _ member := nomatch member

/-- A supertype does not lead back to the class that declares it. -/
theorem enter (ready : family.Ready seen c) (member : family.contains c)
    (declared : d ∈ c.rawSupertypes) : family.Ready (seen ++ [c]) d where
  members := List.forall_mem_append.mpr ⟨ready.members, List.forall_mem_singleton.mpr member⟩
  above b met leads e further := by
    rcases List.mem_append.mp met with earlier | here
    · exact List.mem_append_left _ (ready.above b earlier (.further declared leads) e further)
    · cases List.mem_singleton.mp here
      exact absurd (extends_iff.mpr ⟨d, declared, leads⟩) (not_extends_self c)

/-- Another class that the walk has been to has been met with everything above. -/
theorem leave {found : List Class} (ready : family.Ready seen d) (member : family.contains c)
    (visited : ∀ e, e ∈ found ↔ e ∈ seen ∨ c.LeadsTo e) : family.Ready found d where
  members e met := by
    rcases (visited e).mp met with earlier | leads
    · exact ready.members e earlier
    · exact contains_of_leads member leads
  above b met leads e further := by
    apply (visited e).mpr
    rcases (visited b).mp met with earlier | first
    · exact .inl (ready.above b earlier leads e further)
    · exact .inr (first.trans further)

end Ready

/-- A class of the family has been met if its name has. -/
theorem mem_of_name_met (members : ∀ d ∈ seen, family.contains d) (member : family.contains c)
    (met : ∃ d ∈ seen, d.name = c.name) : c ∈ seen := by
  rcases met with ⟨d, met, named⟩
  exact family.descriptor (members d met) member named ▸ met

/-- A class and what its supertypes lead to is what the class leads to. -/
theorem mem_or_supertype_leads_iff (e : Class) :
    (e ∈ seen ++ [c] ∨ ∃ b ∈ c.rawSupertypes, b.LeadsTo e) ↔ e ∈ seen ∨ c.LeadsTo e := by
  rw [← extends_iff, List.mem_append, List.mem_singleton, or_assoc]
  rfl

/-- From classes it may come to the walk finds all that these lead to. -/
theorem mem_ascendEach_iff (members : ∀ c ∈ roots, family.contains c)
    (ready : ∀ c ∈ roots, family.Ready seen c) :
    ∀ e, e ∈ ascendEach roots seen ↔ e ∈ seen ∨ ∃ c ∈ roots, c.LeadsTo e := by
  induction roots, seen using walk_induction with
  | nil seen => simp [ascendEach]
  | met c roots seen known rest =>
      rcases List.forall_mem_cons.mp members with ⟨member, membersRest⟩
      rcases List.forall_mem_cons.mp ready with ⟨readyFirst, readyRest⟩
      intro e
      have met : c ∈ seen := mem_of_name_met readyFirst.members member known
      have nothingNew : e ∈ seen ∨ c.LeadsTo e ↔ e ∈ seen :=
        or_iff_left_of_imp (readyFirst.above c met (.refl c) e)
      rw [ascendEach_of_met known, rest membersRest readyRest e, List.exists_mem_cons_iff,
        ← or_assoc, nothingNew]
  | enter c roots seen new above rest =>
      rcases List.forall_mem_cons.mp members with ⟨member, membersRest⟩
      rcases List.forall_mem_cons.mp ready with ⟨readyFirst, readyRest⟩
      have visited : ∀ e, e ∈ ascendEach c.rawSupertypes (seen ++ [c]) ↔
          e ∈ seen ∨ c.LeadsTo e := by
        intro e
        have found := above (fun d => family.closed member) (fun d => readyFirst.enter member) e
        rw [found, mem_or_supertype_leads_iff]
      intro e
      have readyNext := fun d root => (readyRest d root).leave member visited
      rw [ascendEach_of_new new, rest membersRest readyNext e, visited, List.exists_mem_cons_iff,
        or_assoc]

/-- Where it enters a class the walk finds what the class leads to. -/
theorem mem_ascendEach_rawSupertypes_iff (member : family.contains c)
    (ready : family.Ready seen c) (e : Class) :
    e ∈ ascendEach c.rawSupertypes (seen ++ [c]) ↔ e ∈ seen ∨ c.LeadsTo e := by
  have found := mem_ascendEach_iff (fun d => family.closed member) (fun d => ready.enter member) e
  rw [found, mem_or_supertype_leads_iff]

/-- The hierarchy of a class lists what the class leads to. -/
theorem mem_hierarchy_iff (member : family.contains c) : d ∈ c.hierarchy ↔ c.LeadsTo d := by
  have visited := mem_ascendEach_iff (List.forall_mem_singleton.mpr member)
    (List.forall_mem_singleton.mpr (.start family c)) d
  show d ∈ ascendEach [c] [] ↔ c.LeadsTo d
  rw [visited]
  simp

theorem contains_of_mem_hierarchy (member : family.contains c) (listed : d ∈ c.hierarchy) :
    family.contains d :=
  contains_of_leads member ((mem_hierarchy_iff member).mp listed)

/--
A class of a family without primitive and array classes can be used as the top class and as what
its hierarchy lists, be it known to the family or only by name.  The hierarchy starts with the
class and lists no two classes of one name.
-/
theorem hierarchy_tells_assignability (ordinary : ∀ c, family.contains c → c.Ordinary)
    (member : family.contains c) :
    (∀ target : Class, target.isAssignableFrom c = true ↔
      (target == object) = true ∨ c.hierarchy.contains target = true) ∧
    c.hierarchy.head? = some c ∧
    c.hierarchy.Pairwise fun first second => (first == second) = false := by
  have ordinaryAbove : ∀ d, c.LeadsTo d → d.Ordinary :=
    fun d leads => ordinary d (contains_of_leads member leads)
  have listed : ∀ target : Class, c.hierarchy.contains target = true ↔
      ∃ d, c.LeadsTo d ∧ d.name = target.name := by
    intro target
    rw [List.contains_iff_exists_mem_beq]
    apply exists_congr
    exact fun d => and_congr (mem_hierarchy_iff member) (beq_iff_name_eq.trans eq_comm)
  refine ⟨fun target => ?_, hierarchy_head c, ?_⟩
  · rw [listed, beq_iff_name_eq]
    constructor
    · intro fits
      by_cases top : target.name = object.name
      · exact .inl top
      · exact .inr (leads_of_isAssignableFrom fits top
          (.inr fun d leads => (ordinaryAbove d leads).component?_eq_none))
    · rintro (top | ⟨d, leads, named⟩)
      · exact (Suits.top (ordinary c member).1 top).isAssignableFrom_of_ordinary (ordinary c member)
      · exact leads.isAssignableFrom ordinaryAbove named
  · apply (List.pairwise_map.mp (nodup_names_hierarchy c)).imp
    intro first second apart
    exact Bool.eq_false_iff.mpr fun same => apart (beq_iff_name_eq.mp same)

end ClassFamily

/-! ## A family of streams -/

namespace Class

def readable : Class where
  name := "Readable"
  kind := .interface

def seekable : Class where
  name := "Seekable"
  kind := .interface
  interfaces := [.plain readable]

def source : Class where
  name := "Source"
  kind := .abstract
  interfaces := [.plain readable]

/-- A class that inherits from one interface both through its superclass and through another. -/
def file : Class where
  name := "File"
  kind := .concrete
  superclass := some (.plain source)
  interfaces := [.plain seekable]

end Class

namespace ClassFamily

open TestData.Class

def ofStreams : ClassFamily :=
  ofList [readable, seekable, source, file]
    (by
      show [readable, readable, source, seekable] ⊆ _
      simp)
    (by decide)

/-- A file can be used as each of the streams and as the top class, and as nothing else. -/
theorem file_used_as_streams :
    (∀ c, ofStreams.contains c → c.Ordinary) ∧ ofStreams.contains file ∧
    (∀ target : Class, target.isAssignableFrom file = true ↔
      (target == object) = true ∨ [file, source, readable, seekable].contains target = true) ∧
    file.hierarchy.head? = some file ∧
    file.hierarchy.Pairwise fun first second => (first == second) = false := by
  have streams : ∀ c ∈ [readable, seekable, source, file],
      c.isPrimitive = false ∧ c.isArray = false := by decide
  have member : ofStreams.contains file := by
    show file ∈ [readable, seekable, source, file]
    simp
  exact ⟨streams, member, hierarchy_tells_assignability streams member⟩

end ClassFamily
end TestData
