import TestData.Proofs.Inheritance.Family
import TestData.Type.WellKnown

namespace TestData

/-!
# Assignability as an order

Within a family assignability is reflexive and transitive, whatever the classes are: primitive,
array classes of any depth, the top class, or classes that name their supertypes as applied
types or wildcards.  Array classes and the top class are taken to declare no supertypes, and the
top class to be no array class.

It is an order if array classes are known by their elements.  Two array classes of different
names with the same elements could each be used for the other; those that are made of their
elements have names to go with them.
-/

namespace Class

variable {expected other c d : Class}

/-! ## Ways to be assignable -/

/-- The ways in which a class can be used where another one is expected. -/
inductive Suits (expected other : Class) : Prop where
  | same (named : expected.name = other.name)
  | top (boxed : other.isPrimitive = false) (named : expected.name = object.name)
  | elements {element actual : Class} (boxed : other.isPrimitive = false)
      (array : expected.component? = some element) (alsoArray : other.component? = some actual)
      (boxedElement : element.isPrimitive = false)
      (fits : element.isAssignableFrom actual = true)
  | above {d : Class} (boxed : other.isPrimitive = false) (declared : d ∈ other.rawSupertypes)
      (fits : expected.isAssignableFrom d = true)

/-- There is no other way. -/
theorem suits_of_isAssignableFrom (fits : expected.isAssignableFrom other = true) :
    expected.Suits other := by
  rw [isAssignableFrom_eq] at fits
  split at fits
  case isTrue same => exact .same (beq_iff_name_eq.mp same)
  case isFalse =>
    split at fits
    case isTrue => cases fits
    case isFalse unboxed =>
      have boxed : other.isPrimitive = false := Bool.eq_false_iff.mpr unboxed
      split at fits
      case isTrue top => exact .top boxed (beq_iff_name_eq.mp top)
      case isFalse =>
        split at fits
        case h_1 element actual array alsoArray =>
          rcases Bool.and_eq_true_iff.mp fits with ⟨boxedElement, inside⟩
          exact .elements boxed array alsoArray (Bool.not_eq_true' _ ▸ boxedElement) inside
        case h_2 =>
          rcases List.any_eq_true.mp fits with ⟨d, declared, further⟩
          exact .above boxed declared further

/-- Each way suffices, unless both classes are arrays and the second one has supertypes. -/
theorem Suits.isAssignableFrom (suits : expected.Suits other)
    (highest : other.isArray = true → other.supertypes = []) :
    expected.isAssignableFrom other = true := by
  rw [isAssignableFrom_eq]
  cases suits with
  | same named => rw [if_pos (beq_iff_name_eq.mpr named)]
  | top boxed named =>
      rw [boxed, if_pos (beq_iff_name_eq.mpr named)]
      exact ite_self true
  | elements boxed array alsoArray boxedElement fits =>
      simp [boxed, array, alsoArray, boxedElement, fits]
  | above boxed declared fits =>
      have noArray : other.component? = none := by
        cases array : other.component? with
        | none => rfl
        | some actual =>
            rw [rawSupertypes, highest (by rw [isArray, array]; rfl)] at declared
            cases declared
      have upward : other.rawSupertypes.any expected.isAssignableFrom = true :=
        List.any_eq_true.mpr ⟨_, declared, fits⟩
      simp [boxed, noArray, upward]

/-- Every class can be used as itself. -/
theorem isAssignableFrom_self (c : Class) : c.isAssignableFrom c = true := by
  rw [isAssignableFrom_eq, if_pos (beq_iff_name_eq.mpr rfl)]

theorem isPrimitive_of_array {element : Class} (array : c.component? = some element) :
    c.isPrimitive = false := by
  unfold component? at array
  unfold isPrimitive
  cases kind : c.kind with
  | primitive =>
      rw [kind] at array
      cases array
  | concrete | abstract | interface | enum | array => rfl

/-- A class can be used as no others than those of its name above it, the top class and arrays. -/
theorem leads_of_isAssignableFrom (fits : expected.isAssignableFrom other = true)
    (noTop : expected.name ≠ object.name)
    (noArrays : expected.component? = none ∨ ∀ d, other.LeadsTo d → d.component? = none) :
    ∃ d, other.LeadsTo d ∧ d.name = expected.name := by
  induction other using descent_induction with
  | step other above _ =>
      cases suits_of_isAssignableFrom fits with
      | same named => exact ⟨other, .refl other, named.symm⟩
      | top _ named => exact absurd named noTop
      | elements _ array alsoArray =>
          rcases noArrays with none | none
          · cases none.symm.trans array
          · cases (none other (.refl other)).symm.trans alsoArray
      | above _ declared further =>
          have noneAbove := noArrays.imp_right fun none d leads => none d (.further declared leads)
          rcases above _ declared further noneAbove with ⟨d, leads, named⟩
          exact ⟨d, .further declared leads, named⟩

end Class

/-! ## Assignability within a family -/

namespace ClassFamily

open TestData.Class

variable {family : ClassFamily} {a b c : Class}

/--
The family has the elements of its array classes, and neither these nor the top class declare
supertypes.
-/
structure WithArrays (family : ClassFamily) : Prop where
  element {c element : Class} (member : family.contains c)
    (array : c.component? = some element) : family.contains element
  arrays {c : Class} (member : family.contains c) (array : c.isArray = true) : c.supertypes = []
  top {c : Class} (member : family.contains c) (named : c.name = object.name) : c.supertypes = []

/-- No two array classes have the same elements, unless these are primitive. -/
def ArraysByElements (family : ClassFamily) : Prop :=
  ∀ a b element, family.contains a → family.contains b → a.component? = some element →
    b.component? = some element → element.isPrimitive = false → a = b

/-- Array classes that are named after their elements are known by them. -/
theorem arraysByElements_of_named (named : ∀ c element, family.contains c →
    c.component? = some element → c.name = element.arrayOf.name) : family.ArraysByElements := by
  intro a b element first second array alsoArray _
  apply family.descriptor first second
  rw [named a element first array, named b element second alsoArray]

/-- Of a family given by a list the conditions are checked member by member. -/
theorem withArrays_ofList {classes : List Class}
    {closed : classes.flatMap rawSupertypes ⊆ classes}
    {distinct : (classes.map Class.name).Nodup}
    (elements : classes.flatMap (fun c => c.component?.toList) ⊆ classes)
    (highest : ∀ c ∈ classes, c.isArray = true ∨ c.name = object.name →
      c.supertypes.isEmpty = true) : (ofList classes closed distinct).WithArrays where
  element member array :=
    elements (List.mem_flatMap.mpr ⟨_, member, Option.mem_toList.mpr array⟩)
  arrays member array := List.isEmpty_iff.mp (highest _ member (.inl array))
  top member named := List.isEmpty_iff.mp (highest _ member (.inr named))

namespace WithArrays

variable (arrays : family.WithArrays)

include arrays

theorem not_array_declares (member : family.contains c) (array : c.component? = some a)
    (declared : b ∈ c.rawSupertypes) : False := by
  rw [rawSupertypes, arrays.arrays member (by rw [isArray, array]; rfl)] at declared
  cases declared

theorem not_top_declares (member : family.contains c) (named : c.name = object.name)
    (declared : b ∈ c.rawSupertypes) : False := by
  rw [rawSupertypes, arrays.top member named] at declared
  cases declared

/-- Arrays with the same elements can be used for each other. -/
theorem fits_of_elements (other : family.contains b) (array : a.component? = some c)
    (alsoArray : b.component? = some c) (boxed : c.isPrimitive = false) :
    a.isAssignableFrom b = true := by
  have suits : a.Suits b :=
    .elements (isPrimitive_of_array alsoArray) array alsoArray boxed (isAssignableFrom_self c)
  exact suits.isAssignableFrom (arrays.arrays other)

/-- What can be used as a class that declares supertypes stands below it. -/
theorem leads_of_declares (first : family.contains a) (second : family.contains b)
    (declared : c ∈ a.rawSupertypes) (fits : a.isAssignableFrom b = true) : b.LeadsTo a := by
  have noTop : a.name ≠ object.name := fun named => arrays.not_top_declares first named declared
  have noArray : a.component? = none := by
    cases array : a.component? with
    | none => rfl
    | some element => exact (arrays.not_array_declares first array declared).elim
  rcases leads_of_isAssignableFrom fits noTop (.inl noArray) with ⟨d, leads, named⟩
  rw [← family.descriptor (contains_of_leads second leads) first named]
  exact leads

section

variable (plain : ∀ c, family.contains c → c.name = object.name → c.component? = none)

include plain

/-- Nothing but the top class is expected where the top class is given. -/
theorem eq_of_top_given (member : family.contains b) (named : b.name = object.name)
    (fits : a.isAssignableFrom b = true) : a.name = object.name := by
  cases suits_of_isAssignableFrom fits with
  | same same => exact same.trans named
  | top _ top => exact top
  | elements _ _ alsoArray => cases (plain b member named).symm.trans alsoArray
  | above _ declared => exact (arrays.not_top_declares member named declared).elim

theorem trans (first : family.contains a) (second : family.contains b) (third : family.contains c)
    (fits : a.isAssignableFrom b = true) (further : b.isAssignableFrom c = true) :
    a.isAssignableFrom c = true := by
  induction c using descent_induction generalizing a b with
  | step c above inside =>
      have enough : a.Suits c → a.isAssignableFrom c = true :=
        fun suits => suits.isAssignableFrom (arrays.arrays third)
      cases suits_of_isAssignableFrom further with
      | same named =>
          rw [family.descriptor second third named] at fits
          exact fits
      | top boxed named => exact enough (.top boxed (arrays.eq_of_top_given plain second named fits))
      | elements boxed array alsoArray boxedElement elementFits =>
          cases suits_of_isAssignableFrom fits with
          | same named =>
              rw [family.descriptor first second named]
              exact further
          | top _ named => exact enough (.top boxed named)
          | elements _ outerArray middleArray boxedOuter outerFits =>
              cases array.symm.trans middleArray
              refine enough (.elements boxed outerArray alsoArray boxedOuter ?_)
              exact inside _ alsoArray (arrays.element first outerArray)
                (arrays.element second array) (arrays.element third alsoArray) outerFits elementFits
          | above _ declared => exact (arrays.not_array_declares second array declared).elim
      | above boxed declared suits =>
          have member := family.closed third declared
          exact enough (.above boxed declared (above _ declared first second member fits suits))

/-- Classes that can be used for each other are the same if array classes go by their elements. -/
theorem antisymm (byElements : family.ArraysByElements)
    (first : family.contains a) (second : family.contains b) (fits : a.isAssignableFrom b = true)
    (back : b.isAssignableFrom a = true) : a = b := by
  induction a using descent_induction generalizing b with
  | step a _ inside =>
      cases suits_of_isAssignableFrom fits with
      | same named => exact family.descriptor first second named
      | top _ named =>
          have alsoNamed := arrays.eq_of_top_given plain first named back
          exact family.descriptor first second (named.trans alsoNamed.symm)
      | elements _ array alsoArray boxedElement elementFits =>
          cases suits_of_isAssignableFrom back with
          | same named => exact family.descriptor first second named.symm
          | top _ named => cases (plain b second named).symm.trans alsoArray
          | elements _ backArray alsoBack _ elementBack =>
              cases alsoArray.symm.trans backArray
              cases array.symm.trans alsoBack
              have same := inside _ array (arrays.element first array)
                (arrays.element second alsoArray) elementFits elementBack
              rw [← same] at alsoArray
              exact byElements a b _ first second array alsoArray boxedElement
          | above _ declared => exact (arrays.not_array_declares first array declared).elim
      | above _ declared further =>
          cases suits_of_isAssignableFrom back with
          | same named => exact family.descriptor first second named.symm
          | top _ named => exact (arrays.not_top_declares second named declared).elim
          | elements _ array => exact (arrays.not_array_declares second array declared).elim
          | above _ alsoDeclared alsoFurther =>
              -- Each of the two stands above the other one, so the first stands above itself.
              have lower : b.Extends a := extends_iff.mpr ⟨_, declared,
                arrays.leads_of_declares first (family.closed second declared) alsoDeclared further⟩
              have higher : a.Extends b := extends_iff.mpr ⟨_, alsoDeclared,
                arrays.leads_of_declares second (family.closed first alsoDeclared) declared
                  alsoFurther⟩
              exact absurd (higher.trans lower) (not_extends_self a)

end
end WithArrays

/--
In a family whose top class is no array class assignability is reflexive and transitive; and it
is an order exactly if the array classes of the family are known by their elements.
-/
theorem assignability_order (arrays : family.WithArrays)
    (plain : ∀ c, family.contains c → c.name = object.name → c.component? = none) :
    (∀ a, family.contains a → a.isAssignableFrom a = true) ∧
    (∀ a b c, family.contains a → family.contains b → family.contains c →
      a.isAssignableFrom b = true → b.isAssignableFrom c = true → a.isAssignableFrom c = true) ∧
    ((∀ a b, family.contains a → family.contains b → a.isAssignableFrom b = true →
      b.isAssignableFrom a = true → a = b) ↔ family.ArraysByElements) := by
  refine ⟨fun a _ => isAssignableFrom_self a, fun a b c => arrays.trans plain, ?_, ?_⟩
  · intro antisymm a b element first second array alsoArray boxedElement
    apply antisymm a b first second
    · exact arrays.fits_of_elements second array alsoArray boxedElement
    · exact arrays.fits_of_elements first alsoArray array boxedElement
  · intro byElements a b first second
    exact arrays.antisymm plain byElements first second

end ClassFamily

/-! ## A family of animals -/

namespace Class

def comparable : Class :=
  generic "Comparable" ["T"]

def animal : Class where
  name := "Animal"
  kind := .abstract
  interfaces := [.parameterized comparable [.plain string]]

/-- A class that names its supertypes as wildcards, one of them without any bound. -/
def dog : Class where
  name := "Dog"
  kind := .concrete
  superclass := some (.extending (.plain animal))
  interfaces := [.wildcard [] []]

/-- Animals and their arrays, with numbers and the top class. -/
def animals : List Class :=
  [object, primitive "i32", comparable, animal, dog, arrayOf (primitive "i32"), arrayOf animal,
    arrayOf dog, arrayOf (arrayOf dog)]

end Class

namespace ClassFamily

open TestData.Class

def ofAnimals : ClassFamily :=
  ofList animals
    (by
      show [comparable, animal, object] ⊆ animals
      simp [animals])
    (by decide)

theorem ofAnimals_withArrays : ofAnimals.WithArrays := by
  apply withArrays_ofList
  · show [primitive "i32", animal, dog, arrayOf dog] ⊆ animals
    simp [animals]
  · decide

/-- Among animals, their arrays and the top class assignability is an order. -/
theorem animals_ordered :
    ofAnimals.WithArrays ∧
    (∀ c, ofAnimals.contains c → c.name = object.name → c.component? = none) ∧
    (∀ a b c, a ∈ animals → b ∈ animals → c ∈ animals → a.isAssignableFrom b = true →
      b.isAssignableFrom c = true → a.isAssignableFrom c = true) ∧
    ∀ a b, a ∈ animals → b ∈ animals → a.isAssignableFrom b = true →
      b.isAssignableFrom a = true → a = b := by
  have plain : ∀ c ∈ animals, c.name = object.name → c.component?.isNone = true := by decide
  have noArray : ∀ c, ofAnimals.contains c → c.name = object.name → c.component? = none :=
    fun c member named => Option.isNone_iff_eq_none.mp (plain c member named)
  have named : ∀ c ∈ animals, c.component?.all (fun element => c.name == element.arrayOf.name) =
      true := by decide
  have byElements : ofAnimals.ArraysByElements := by
    apply arraysByElements_of_named
    intro c element member array
    have same := named c member
    rw [array] at same
    exact beq_iff_eq.mp same
  rcases assignability_order ofAnimals_withArrays noArray with ⟨-, trans, antisymm⟩
  exact ⟨ofAnimals_withArrays, noArray, trans, antisymm.mpr byElements⟩

end ClassFamily

/-! ## Arrays under other names -/

namespace Class

def tile : Class :=
  named "Tile"

/-- An array class of tiles that is not named after them. -/
def mosaic : Class where
  name := "Mosaic"
  kind := .array tile

/-- An array class of tiles that goes by the name of the top class. -/
def topMosaic : Class where
  name := object.name
  kind := .array tile

end Class

namespace ClassFamily

open TestData.Class

def ofMosaic : ClassFamily :=
  ofList [tile, tile.arrayOf, mosaic] (List.nil_subset _) (by decide)

def ofTopMosaic : ClassFamily :=
  ofList [tile, tile.arrayOf, topMosaic] (List.nil_subset _) (by decide)

/--
Arrays of tiles can be used as mosaics and mosaics as arrays of tiles.  If the top class is an
array class, it takes the place of an array that its members cannot take the place of.
-/
theorem mosaics_not_ordered :
    (ofMosaic.WithArrays ∧ ofMosaic.contains mosaic ∧ ofMosaic.contains tile.arrayOf ∧
      mosaic.isAssignableFrom tile.arrayOf = true ∧
      tile.arrayOf.isAssignableFrom mosaic = true ∧ mosaic.name ≠ tile.arrayOf.name) ∧
    ofTopMosaic.WithArrays ∧ ofTopMosaic.contains tile.arrayOf ∧
      ofTopMosaic.contains topMosaic ∧ ofTopMosaic.contains tile ∧
      tile.arrayOf.isAssignableFrom topMosaic = true ∧ topMosaic.isAssignableFrom tile = true ∧
      tile.arrayOf.isAssignableFrom tile = false := by
  have mosaics : ofMosaic.WithArrays := by
    apply withArrays_ofList
    · show [tile, tile] ⊆ _
      simp
    · decide
  have topMosaics : ofTopMosaic.WithArrays := by
    apply withArrays_ofList
    · show [tile, tile] ⊆ _
      simp
    · decide
  refine ⟨⟨mosaics, ?_, ?_, ?_⟩, topMosaics, ?_, ?_, ?_, ?_⟩
  · simp [ofMosaic, ofList]
  · simp [ofMosaic, ofList]
  · decide
  · simp [ofTopMosaic, ofList]
  · simp [ofTopMosaic, ofList]
  · simp [ofTopMosaic, ofList]
  · decide

end ClassFamily
end TestData
