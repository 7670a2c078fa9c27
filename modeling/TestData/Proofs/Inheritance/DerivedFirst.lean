import TestData.Proofs.Inheritance.Listing
import TestData.Proofs.Overriding

namespace TestData

/-!
# Which class comes first in a hierarchy

Injection goes through a hierarchy from its start and relies on coming to a class before it comes
to those above it.  A depth-first walk that passes over what it has met does not grant this.  It
lists a class where it comes to it first, and that can be before it comes to a class in between:
an interface of the superclass is listed before another interface that extends it.

What decides is in which order a class declares its supertypes.  The walk comes to a class before
one above it, whatever class of the family it starts at, exactly if nothing that leads to the
lower class declares a supertype that leads to the higher one before those that lead to the lower
one.  Under single inheritance this holds of all that are not interfaces.
-/

/-! ## Two members of a list -/

section

variable {α : Type} {a b : α} {start l : List α}

/-- What comes before a member of a list comes before it in each start of the list as well. -/
theorem mem_of_pair_sublist (distinct : l.Nodup) (starts : start <+: l)
    (pair : [a, b].Sublist l) (member : b ∈ start) : a ∈ start := by
  rcases starts with ⟨rest, rfl⟩
  have apart : ∀ x ∈ start, ∀ y ∈ rest, x ≠ y := (List.nodup_append.mp distinct).2.2
  rcases List.sublist_append_iff.mp pair with ⟨first, second, split, inStart, inRest⟩
  rcases List.cons_eq_append_iff.mp split with ⟨-, rfl⟩ | ⟨others, rfl, -⟩
  · have alsoInRest : b ∈ rest := inRest.subset (List.mem_cons_of_mem a List.mem_cons_self)
    exact absurd rfl (apart b member b alsoInRest)
  · exact inStart.subset List.mem_cons_self

/-- Of two members of a list without repetitions only one comes first. -/
theorem not_pair_sublist_both (distinct : l.Nodup) (pair : [a, b].Sublist l) :
    ¬ [b, a].Sublist l := by
  intro reverse
  rcases List.cons_sublist_iff.mp pair with ⟨start, rest, rfl, inStart, inRest⟩
  have apart : ∀ x ∈ start, ∀ y ∈ rest, x ≠ y := (List.nodup_append.mp distinct).2.2
  have alsoInStart := mem_of_pair_sublist distinct (List.prefix_append start rest) reverse inStart
  exact apart b alsoInStart b (List.singleton_sublist.mp inRest) rfl

/-- Of two different members of a list one comes first. -/
theorem pair_sublist_or (first : a ∈ l) (second : b ∈ l) (different : a ≠ b) :
    [a, b].Sublist l ∨ [b, a].Sublist l := by
  rcases List.append_of_mem first with ⟨start, rest, rfl⟩
  rcases List.mem_append.mp second with before | here
  · right
    apply (List.singleton_sublist.mpr before).append
    exact List.singleton_sublist.mpr List.mem_cons_self
  · have after : b ∈ rest := (List.mem_cons.mp here).resolve_left different.symm
    left
    apply List.Sublist.trans _ (List.sublist_append_right start (a :: rest))
    exact List.cons_sublist_cons.mpr (List.singleton_sublist.mpr after)

end

namespace Class

variable {lower higher c : Class} {roots seen found : List Class}

/-! ## One class ahead of another -/

/--
However many of some classes one takes, in their order: if one of them leads to the higher class,
one of them leads to the lower class.
-/
def ReachedFirst (lower higher : Class) (roots : List Class) : Prop :=
  ∀ nearest, nearest <+: roots → (∃ c ∈ nearest, c.LeadsTo higher) → ∃ c ∈ nearest, c.LeadsTo lower

namespace ReachedFirst

theorem head (first : ReachedFirst lower higher (c :: roots)) (leads : c.LeadsTo higher) :
    c.LeadsTo lower := by
  rcases first [c] (List.prefix_append [c] roots) ⟨c, List.mem_cons_self, leads⟩ with
    ⟨b, here, lowerLeads⟩
  cases List.mem_singleton.mp here
  exact lowerLeads

theorem tail (first : ReachedFirst lower higher (c :: roots)) (past : ¬ c.LeadsTo lower) :
    ReachedFirst lower higher roots := by
  intro nearest starts leads
  rcases first (c :: nearest) ((List.prefix_cons_inj c).mpr starts)
    (List.exists_mem_cons_of_exists leads) with ⟨b, member, lowerLeads⟩
  rcases List.mem_cons.mp member with rfl | later
  · exact absurd lowerLeads past
  · exact ⟨b, later, lowerLeads⟩

theorem of_no_way (none : ∀ c ∈ roots, ¬ c.LeadsTo higher) : ReachedFirst lower higher roots := by
  rintro nearest starts ⟨c, member, leads⟩
  exact absurd leads (none c (starts.subset member))

end ReachedFirst

/-- The lower class comes before the higher one if that is there. -/
def Ahead (lower higher : Class) (met : List Class) : Prop :=
  higher ∈ met → [lower, higher].Sublist met

namespace Ahead

/-- Once the lower class has been met the higher one can only come behind it. -/
theorem extend (ahead : Ahead lower higher seen) (met : lower ∈ seen) (keeps : seen <+: found) :
    Ahead lower higher found := by
  intro member
  rcases keeps with ⟨rest, rfl⟩
  rcases List.mem_append.mp member with earlier | later
  · exact (ahead earlier).trans (List.sublist_append_left seen rest)
  · exact (List.singleton_sublist.mpr met).append (List.singleton_sublist.mpr later)

theorem concat (ahead : Ahead lower higher seen) (other : c ≠ higher) :
    Ahead lower higher (seen ++ [c]) := by
  intro member
  rcases List.mem_append.mp member with earlier | here
  · exact (ahead earlier).trans (List.sublist_append_left seen [c])
  · exact absurd (List.mem_singleton.mp here).symm other

end Ahead
end Class

namespace ClassFamily

open TestData.Class

variable {family : ClassFamily} {lower higher c d : Class} {roots seen : List Class}

/-! ## What the walk comes to first -/

/-- The walk comes to the lower class first if all that lead to it and the classes ahead do. -/
theorem ahead_ascendEach (above : lower.Extends higher)
    (order : ∀ c, family.contains c → c.Extends lower →
      ReachedFirst lower higher c.rawSupertypes)
    (members : ∀ c ∈ roots, family.contains c) (ready : ∀ c ∈ roots, family.Ready seen c)
    (first : ReachedFirst lower higher roots) (ahead : Ahead lower higher seen) :
    Ahead lower higher (ascendEach roots seen) := by
  induction roots, seen using walk_induction with
  | nil seen => exact ahead
  | met c roots seen known rest =>
      rcases List.forall_mem_cons.mp members with ⟨member, membersRest⟩
      rcases List.forall_mem_cons.mp ready with ⟨readyFirst, readyRest⟩
      rw [ascendEach_of_met known]
      by_cases leads : c.LeadsTo lower
      · have met : c ∈ seen := mem_of_name_met readyFirst.members member known
        have lowerMet : lower ∈ seen := readyFirst.above c met (.refl c) lower leads
        exact ahead.extend lowerMet (prefix_ascendEach roots seen)
      · exact rest membersRest readyRest (first.tail leads) ahead
  | enter c roots seen new enter rest =>
      rcases List.forall_mem_cons.mp members with ⟨member, membersRest⟩
      rcases List.forall_mem_cons.mp ready with ⟨readyFirst, readyRest⟩
      have declared : ∀ d ∈ c.rawSupertypes, family.contains d := fun d => family.closed member
      have readyAbove : ∀ d ∈ c.rawSupertypes, family.Ready (seen ++ [c]) d :=
        fun d => readyFirst.enter member
      have visited := mem_ascendEach_rawSupertypes_iff member readyFirst
      rw [ascendEach_of_new new]
      by_cases leads : c.LeadsTo lower
      · have other : c ≠ higher := by
          rintro rfl
          exact not_extends_self c (leads.extends_trans above)
        have aheadAbove : Ahead lower higher (ascendEach c.rawSupertypes (seen ++ [c])) := by
          rcases leads with here | below
          · have lowerMet : lower ∈ seen ++ [c] :=
              List.mem_append_right seen (List.mem_singleton.mpr here)
            exact (ahead.concat other).extend lowerMet (prefix_ascendEach _ _)
          · exact enter declared readyAbove (order c member below) (ahead.concat other)
        have lowerMet := (visited lower).mpr (.inr leads)
        exact aheadAbove.extend lowerMet (prefix_ascendEach roots _)
      · have noWay : ¬ c.LeadsTo higher := fun way => leads (first.head way)
        have other : c ≠ higher := fun same => noWay (.inl same.symm)
        have noneAbove : ∀ d ∈ c.rawSupertypes, ¬ d.LeadsTo higher :=
          fun d declared way => noWay (.further declared way)
        have readyNext := fun d root => (readyRest d root).leave member visited
        apply rest membersRest readyNext (first.tail leads)
        exact enter declared readyAbove (.of_no_way noneAbove) (ahead.concat other)

/-- Then the lower class comes first in the hierarchies of all that lead to it. -/
theorem sublist_hierarchy (above : lower.Extends higher)
    (order : ∀ c, family.contains c → c.Extends lower →
      ReachedFirst lower higher c.rawSupertypes)
    (member : family.contains c) (leads : c.LeadsTo lower) :
    [lower, higher].Sublist c.hierarchy := by
  have first : ReachedFirst lower higher [c] := by
    rintro nearest starts ⟨b, near, -⟩
    cases List.mem_singleton.mp (starts.subset near)
    exact ⟨_, near, leads⟩
  have ahead : Ahead lower higher c.hierarchy := by
    apply ahead_ascendEach above order (List.forall_mem_singleton.mpr member)
      (List.forall_mem_singleton.mpr (.start family c)) first
    intro met
    cases met
  exact ahead ((mem_hierarchy_iff member).mpr (.inr (leads.extends_trans above)))

/-- A class in whose hierarchy the lower class comes first declares its supertypes accordingly. -/
theorem reachedFirst_of_sublist (member : family.contains c) (below : c.Extends lower)
    (pair : [lower, higher].Sublist c.hierarchy) :
    ReachedFirst lower higher c.rawSupertypes := by
  rintro nearest starts ⟨b, near, leads⟩
  have declared : ∀ d ∈ nearest, d ∈ c.rawSupertypes := fun d near => starts.subset near
  have visited : ∀ e, e ∈ ascendEach nearest [c] ↔ e ∈ [c] ∨ ∃ b ∈ nearest, b.LeadsTo e := by
    apply mem_ascendEach_iff
    · exact fun d near => family.closed member (declared d near)
    · exact fun d near => (Ready.start family c).enter member (declared d near)
  have startOfHierarchy := ascendEach_prefix_hierarchy starts
  have higherMet := (visited higher).mpr (.inr ⟨b, near, leads⟩)
  have lowerMet := mem_of_pair_sublist (nodup_hierarchy c) startOfHierarchy pair higherMet
  rcases (visited lower).mp lowerMet with here | found
  · cases List.mem_singleton.mp here
    exact absurd below (not_extends_self lower)
  · exact found

/--
Of two classes, one above the other, the lower one comes first in the hierarchies of all classes
of the family that lead to it exactly if none of these declares a supertype that leads to the
higher class before all that lead to the lower one.
-/
theorem lower_listed_first_iff (above : lower.Extends higher) :
    (∀ c, family.contains c → c.LeadsTo lower → [lower, higher].Sublist c.hierarchy) ↔
      ∀ c, family.contains c → c.Extends lower →
        ReachedFirst lower higher c.rawSupertypes := by
  constructor
  · intro first c member below
    exact reachedFirst_of_sublist member below (first c member (.inr below))
  · intro order c member leads
    exact sublist_hierarchy above order member leads

/-- A file comes to `Readable` by its superclass before it comes to the interface that extends it. -/
theorem readable_before_seekable :
    seekable.Extends readable ∧ file.hierarchy = [file, source, readable, seekable] ∧
    ¬ ∀ c, ofStreams.contains c → c.Extends seekable →
      ReachedFirst seekable readable c.rawSupertypes := by
  have above : seekable.Extends readable := .direct List.mem_cons_self
  have listed : file.hierarchy = [file, source, readable, seekable] := rfl
  refine ⟨above, listed, fun order => ?_⟩
  have member : ofStreams.contains file := by
    show file ∈ [readable, seekable, source, file]
    simp
  have leads : file.LeadsTo seekable := by
    apply (mem_hierarchy_iff member).mp
    rw [listed]
    simp
  have pair := (lower_listed_first_iff above).mpr order file member leads
  rw [listed] at pair
  have names := pair.map Class.name
  revert names
  decide

/-! ## What injection goes through -/

/-- A hierarchy has derived classes first if of any two of its classes the lower one comes first. -/
theorem derivedFirst_iff_sublist (member : family.contains c) :
    Enhancer.DerivedFirst c ↔ ∀ lower higher, c.LeadsTo lower → lower.Extends higher →
      [lower, higher].Sublist c.hierarchy := by
  constructor
  · intro derived lower higher leads above
    have lowerListed : lower ∈ c.hierarchy := (mem_hierarchy_iff member).mpr leads
    have higherListed : higher ∈ c.hierarchy :=
      (mem_hierarchy_iff member).mpr (.inr (leads.extends_trans above))
    have different : lower ≠ higher := by
      rintro rfl
      exact not_extends_self lower above
    rcases pair_sublist_or lowerListed higherListed different with pair | reverse
    · exact pair
    · have apart := List.pairwise_iff_forall_sublist.mp derived reverse lower lowerListed rfl
      exact absurd rfl (apart higher above)
  · intro order
    apply List.pairwise_iff_forall_sublist.mpr
    intro earlier later pair lower listed named higher above sameName
    have laterListed := pair.subset (List.mem_cons_of_mem _ List.mem_cons_self)
    have laterKnown := contains_of_mem_hierarchy member laterListed
    have earlierKnown := contains_of_mem_hierarchy member (pair.subset List.mem_cons_self)
    have lowerKnown := contains_of_mem_hierarchy member listed
    have higherKnown := contains_of_leads lowerKnown (.inr above)
    have right := order lower higher ((mem_hierarchy_iff member).mp listed) above
    rw [family.descriptor lowerKnown laterKnown named,
      family.descriptor higherKnown earlierKnown sameName] at right
    exact not_pair_sublist_both (nodup_hierarchy c) right pair

/-- All hierarchies of a family have derived classes first if all classes declare them so. -/
theorem derivedFirst_iff :
    (∀ c, family.contains c → Enhancer.DerivedFirst c) ↔
      ∀ c lower higher, family.contains c → c.Extends lower → lower.Extends higher →
        ReachedFirst lower higher c.rawSupertypes := by
  constructor
  · intro derived c lower higher member below above
    have pairs := (derivedFirst_iff_sublist member).mp (derived c member)
    exact reachedFirst_of_sublist member below (pairs lower higher (.inr below) above)
  · intro order c member
    apply (derivedFirst_iff_sublist member).mpr
    intro lower higher leads above
    exact sublist_hierarchy above
      (fun b member below => order b lower higher member below above) member leads

/-- Interfaces extend interfaces, and besides these each class extends one class at most. -/
structure SingleInheritance (family : ClassFamily) : Prop where
  interfaces {c d : Class} (member : family.contains c) (interface : c.isInterface = true)
    (declared : d ∈ c.rawSupertypes) : d.isInterface = true
  single {c d e : Class} (member : family.contains c) (first : d ∈ c.rawSupertypes)
    (second : e ∈ c.rawSupertypes) (notInterface : d.isInterface = false)
    (alsoNot : e.isInterface = false) : d = e

namespace SingleInheritance

variable (single : family.SingleInheritance)

include single

theorem isInterface_of_leads (member : family.contains c) (interface : c.isInterface = true)
    (leads : c.LeadsTo d) : d.isInterface = true := by
  rcases leads with rfl | above
  · exact interface
  · induction above with
    | direct declared => exact single.interfaces member interface declared
    | further declared _ ih =>
        exact ih (family.closed member declared) (single.interfaces member interface declared)

/-- What leads to a class that is no interface is no interface either. -/
theorem not_isInterface_of_leads (member : family.contains c) (leads : c.LeadsTo d)
    (notInterface : d.isInterface = false) : c.isInterface = false := by
  apply Bool.eq_false_iff.mpr
  intro interface
  have also := single.isInterface_of_leads member interface leads
  exact Bool.false_ne_true (notInterface.symm.trans also)

/-- All ways to classes that are no interfaces go by the superclass. -/
theorem reachedFirst (member : family.contains c) (below : c.Extends lower)
    (lowerClass : lower.isInterface = false) (higherClass : higher.isInterface = false) :
    ReachedFirst lower higher c.rawSupertypes := by
  rintro nearest starts ⟨b, near, leads⟩
  rcases extends_iff.mp below with ⟨superclass, declared, lowerLeads⟩
  have alsoDeclared := starts.subset near
  have superclassClass := single.not_isInterface_of_leads (family.closed member declared)
    lowerLeads lowerClass
  have nearClass := single.not_isInterface_of_leads (family.closed member alsoDeclared)
    leads higherClass
  cases single.single member alsoDeclared declared nearClass superclassClass
  exact ⟨b, near, lowerLeads⟩

/-- So the fields of a class come before the fields of the classes it extends. -/
theorem pairwise_instanceFields (member : family.contains c) :
    c.instanceFields.Pairwise fun f other =>
      ∀ lower higher, family.contains lower → family.contains higher →
        lower.name = other.className → higher.name = f.className → ¬ lower.Extends higher := by
  have declaredBy : ∀ {b : Class} {f : Field},
      f ∈ b.fields.filter (fun f => !f.isStatic) → f.className = b.name := by
    intro b f listed
    rcases List.mem_map.mp (List.mem_filter.mp listed).1 with ⟨declaration, _, rfl⟩
    rfl
  refine List.pairwise_flatMap.mpr ⟨fun b _ => ?_, ?_⟩
  · apply List.pairwise_of_forall_mem_list
    intro f listed other otherListed lower higher lowerKnown higherKnown lowerNamed higherNamed
    rw [declaredBy otherListed] at lowerNamed
    rw [declaredBy listed] at higherNamed
    rw [family.descriptor lowerKnown higherKnown (lowerNamed.trans higherNamed.symm)]
    exact not_extends_self higher
  · apply List.pairwise_filter.mpr
    apply List.pairwise_iff_forall_sublist.mpr
    intro earlier later pair earlierClass laterClass f listed other otherListed lower higher
      lowerKnown higherKnown lowerNamed higherNamed above
    have laterListed := pair.subset (List.mem_cons_of_mem _ List.mem_cons_self)
    have laterKnown := contains_of_mem_hierarchy member laterListed
    have earlierKnown := contains_of_mem_hierarchy member (pair.subset List.mem_cons_self)
    rw [declaredBy otherListed] at lowerNamed
    rw [declaredBy listed] at higherNamed
    rw [family.descriptor lowerKnown laterKnown lowerNamed,
      family.descriptor higherKnown earlierKnown higherNamed] at above
    have order : ∀ b, family.contains b → b.Extends later →
        ReachedFirst later earlier b.rawSupertypes := by
      intro b member below
      apply single.reachedFirst member below
      · exact (Bool.not_eq_true' _).mp laterClass
      · exact (Bool.not_eq_true' _).mp earlierClass
    have right := sublist_hierarchy above order member ((mem_hierarchy_iff member).mp laterListed)
    exact not_pair_sublist_both (nodup_hierarchy c) right pair

end SingleInheritance

example : ofStreams.SingleInheritance where
  interfaces := by
    have streams : ∀ c ∈ [readable, seekable, source, file], c.isInterface = true →
        ∀ d ∈ c.rawSupertypes, d.isInterface = true := by decide
    exact fun {c} {d} member interface declared => streams c member interface d declared
  single := by
    have streams : ∀ c ∈ [readable, seekable, source, file], ∀ d ∈ c.rawSupertypes,
        ∀ e ∈ c.rawSupertypes, d.isInterface = false → e.isInterface = false →
          d.name = e.name := by decide
    intro c d e member first second notInterface alsoNot
    apply ofStreams.descriptor (ofStreams.closed member first) (ofStreams.closed member second)
    exact streams c member d first e second notInterface alsoNot

end ClassFamily
end TestData
