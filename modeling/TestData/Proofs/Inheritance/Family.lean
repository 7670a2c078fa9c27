import Mathlib.Data.List.Nodup
import TestData.Proofs.Inheritance.Views

namespace TestData

/-!
# Families of classes

A class is known by its name, and in general nothing keeps two descriptors of one name from
declaring different supertypes.  A family is a collection of descriptors with everything above
them in which this does not happen.  What stands above a class is then a matter of names, and
since a descriptor is a finite tree no class stands above itself.
-/

namespace Class

/-! ## Induction over classes -/

/-- What holds of a class if it holds of the classes above it and of the class of its elements. -/
private def Descends (motive : Class → Prop) : Prop :=
  ∀ c : Class, (∀ d ∈ c.rawSupertypes, motive d) →
    (∀ element, c.component? = some element → motive element) → motive c

namespace Descends

variable {motive : Class → Prop}

private theorem object (descends : Descends motive) : motive object :=
  descends .object (fun _ declared => nomatch declared) fun _ array => nomatch array

mutual

private theorem ofClass (descends : Descends motive) (c : Class) : motive c := by
  rcases c with ⟨_, kind, _, _, superclass, interfaces, _, _, _, _, _⟩
  apply descends
  · intro d declared
    rcases List.mem_filterMap.mp declared with ⟨supertype, member, raw⟩
    have above := ofTypes descends interfaces
    cases superclass with
    | none => exact above supertype member d raw
    | some first =>
        exact List.forall_mem_cons.mpr ⟨ofType descends first, above⟩ supertype member d raw
  · intro element array
    cases kind with
    | array component =>
        have inside := ofClass descends component
        cases array
        exact inside
    | primitive | concrete | abstract | interface | enum => cases array

private theorem ofType (descends : Descends motive) (type : TypeExpr) :
    ∀ c, type.rawType = some c → motive c := by
  intro c raw
  cases type with
  | plain | parameterized =>
      cases raw
      exact ofClass descends _
  | wildcard upper lower =>
      rw [TypeExpr.rawType_wildcard] at raw
      have above := ofTypes descends upper
      have below := ofTypes descends lower
      cases found : TypeExpr.bound? upper lower with
      | none =>
          rw [found] at raw
          cases raw
          exact descends.object
      | some bound =>
          rw [found] at raw
          rcases List.mem_append.mp (TypeExpr.bound?_mem found) with member | member
          · exact above bound member c raw
          · exact below bound member c raw
  | var | genericArray => cases raw

private theorem ofTypes (descends : Descends motive) (types : List TypeExpr) :
    ∀ type ∈ types, ∀ c, type.rawType = some c → motive c := by
  cases types with
  | nil =>
      intro type member
      cases member
  | cons first rest =>
      exact List.forall_mem_cons.mpr ⟨ofType descends first, ofTypes descends rest⟩

end

end Descends

/-- Of a class both the classes directly above it and the class of its elements come before it. -/
@[elab_as_elim]
theorem descent_induction {motive : Class → Prop}
    (step : ∀ c : Class, (∀ d ∈ c.rawSupertypes, motive d) →
      (∀ element, c.component? = some element → motive element) → motive c)
    (c : Class) : motive c :=
  Descends.ofClass step c

/-! ## At a class and above -/

variable {c d e : Class}

theorem Extends.trans (first : c.Extends d) (second : d.Extends e) : c.Extends e := by
  induction first with
  | direct declared => exact .further declared second
  | further declared _ ih => exact .further declared (ih second)

/-- No class stands above itself: the way there could be gone again one class further up. -/
theorem not_extends_self (c : Class) : ¬ c.Extends c := by
  induction c using descent_induction with
  | step c above _ =>
      intro circle
      cases circle with
      | direct declared => exact above c declared (.direct declared)
      | further declared further => exact above _ declared (further.trans (.direct declared))

/-- The second class is the first one or stands above it. -/
def LeadsTo (c d : Class) : Prop :=
  d = c ∨ c.Extends d

namespace LeadsTo

theorem refl (c : Class) : c.LeadsTo c :=
  .inl rfl

theorem further (declared : d ∈ c.rawSupertypes) (leads : d.LeadsTo e) : c.LeadsTo e := by
  rcases leads with rfl | above
  · exact .inr (.direct declared)
  · exact .inr (.further declared above)

theorem extends_trans (leads : c.LeadsTo d) (above : d.Extends e) : c.Extends e := by
  rcases leads with rfl | first
  · exact above
  · exact first.trans above

theorem trans (first : c.LeadsTo d) (second : d.LeadsTo e) : c.LeadsTo e := by
  rcases second with rfl | above
  · exact first
  · exact .inr (first.extends_trans above)

end LeadsTo

theorem Extends.leads_trans (above : c.Extends d) (leads : d.LeadsTo e) : c.Extends e := by
  rcases leads with rfl | further
  · exact above
  · exact above.trans further

/-- What stands above a class is led to by a class directly above it. -/
theorem extends_iff : c.Extends d ↔ ∃ b ∈ c.rawSupertypes, b.LeadsTo d := by
  constructor
  · intro above
    cases above with
    | direct declared => exact ⟨d, declared, .refl d⟩
    | further declared above => exact ⟨_, declared, .inr above⟩
  · rintro ⟨b, declared, rfl | above⟩
    · exact .direct declared
    · exact .further declared above

end Class

/-! ## Families -/

/-- Classes with everything above them, where a name stands for one descriptor. -/
structure ClassFamily where
  contains : Class → Prop
  closed {c d : Class} (member : contains c) (declared : d ∈ c.rawSupertypes) : contains d
  descriptor {c d : Class} (first : contains c) (second : contains d) (named : c.name = d.name) :
    c = d

namespace ClassFamily

variable {family : ClassFamily} {c d : Class}

theorem contains_of_leads (member : family.contains c) (leads : c.LeadsTo d) :
    family.contains d := by
  rcases leads with rfl | above
  · exact member
  · induction above with
    | direct declared => exact family.closed member declared
    | further declared _ ih => exact ih (family.closed member declared)

/-- Classes of different names with all that they directly extend. -/
def ofList (classes : List Class) (closed : classes.flatMap Class.rawSupertypes ⊆ classes)
    (distinct : (classes.map Class.name).Nodup) : ClassFamily where
  contains c := c ∈ classes
  closed member declared := closed (List.mem_flatMap.mpr ⟨_, member, declared⟩)
  descriptor first second named := List.inj_on_of_nodup_map distinct first second named

end ClassFamily
end TestData
