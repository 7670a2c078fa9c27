import TestData.Text.SimpleName

namespace TestData

/-!
# Annotations

An annotation names its type and carries attributes.  The attributes are kept
sorted by key, so two annotations are equal exactly when they have the same type
name and give every key the same value.
-/

/-- An annotation of a class, a member or a parameter. -/
structure Annotation where
  typeName : String
  attributes : List (String × String) := []
  deriving DecidableEq, Repr, Inhabited

namespace Annotation

/-- Put an attribute at its place in the order of keys; a later value wins. -/
def insertAttribute (key value : String) : List (String × String) → List (String × String)
  | [] => [(key, value)]
  | (other, old) :: rest =>
      if key = other then (key, value) :: rest
      else if key < other then (key, value) :: (other, old) :: rest
      else (other, old) :: insertAttribute key value rest

/-- The annotation with one more attribute. -/
def withAttribute (mark : Annotation) (key value : String) : Annotation :=
  { mark with attributes := insertAttribute key value mark.attributes }

/-- The value of an attribute. -/
def attribute? (mark : Annotation) (key : String) : Option String :=
  mark.attributes.lookup key

theorem lookup_insertAttribute (key value : String) (attributes : List (String × String)) :
    (insertAttribute key value attributes).lookup key = some value := by
  induction attributes with
  | nil => simp [insertAttribute]
  | cons entry rest ih =>
      obtain ⟨other, old⟩ := entry
      simp only [insertAttribute]
      split
      · simp
      · rename_i different
        split
        · simp
        · have unequal : (key == other) = false := beq_eq_false_iff_ne.mpr different
          simpa [List.lookup_cons, unequal] using ih

/-- The attribute that was set last is the one that is read. -/
@[simp]
theorem attribute?_withAttribute (mark : Annotation) (key value : String) :
    (mark.withAttribute key value).attribute? key = some value :=
  lookup_insertAttribute key value mark.attributes

def simpleName (mark : Annotation) : String :=
  Text.simpleName mark.typeName

/-- An annotation answers to its qualified and to its simple name. -/
def isNamed (mark : Annotation) (name : String) : Bool :=
  mark.typeName == name || mark.simpleName == name

def display (mark : Annotation) : String :=
  "@" ++ mark.simpleName

end Annotation

/-- Descriptors that carry annotations, in the order of their declaration. -/
class Annotated (α : Type) where
  annotations : α → List Annotation

namespace Annotated

/-- The first annotation that answers to the name. -/
def annotation? {α : Type} [Annotated α] (element : α) (name : String) : Option Annotation :=
  (annotations element).find? fun mark => mark.isNamed name

/-- Whether some annotation answers to the name. -/
def isAnnotatedWith {α : Type} [Annotated α] (element : α) (name : String) : Bool :=
  (annotation? element name).isSome

end Annotated

end TestData
