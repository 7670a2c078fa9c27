import TestData.Matcher.Basic
import TestData.Type.Hierarchy

namespace TestData
namespace Matcher

/-!
# Matchers for types, members and values
-/

/-- Matches types of the given class. -/
def rawTypeIs (c : Class) : Matcher TypeExpr :=
  ofPredicate fun type => type.rawType == some c

/-- Matches the given type. -/
def typeIs (expected : TypeExpr) : Matcher TypeExpr :=
  equalTo expected

section Annotated

variable {α : Type} [Annotated α]

/-- Matches elements with an annotation of that qualified or simple name. -/
def annotatedWith (name : String) : Matcher α :=
  ofPredicate fun element => Annotated.isAnnotatedWith element name

/-- Matches elements with an annotation of exactly that type name. -/
def annotatedWithType (typeName : String) : Matcher α :=
  ofPredicate fun element =>
    (Annotated.annotations element).any fun mark => mark.typeName == typeName

/-- Matches elements with an annotation that is equal to the given one. -/
def annotatedWithAnnotation (mark : Annotation) : Matcher α :=
  ofPredicate fun element => (Annotated.annotations element).any (· == mark)

/-- Matches elements that say that null is welcome. -/
def nullable : Matcher α :=
  annotatedWith "Nullable"

/-- Matches elements that say, in one of the usual ways, that null is not welcome. -/
def nonNull : Matcher α :=
  ((annotatedWith "NotNull").or (annotatedWith "NonNull")).or (annotatedWith "Nonnull")

end Annotated

/--
Matches what can be called with values of the given classes: there are as many
parameters, and the class of each takes the class in its place.
-/
def accepts {α : Type} [Callable α] (expected : List Class) : Matcher α :=
  ofPredicate fun callable =>
    let parameters := Callable.parameters callable
    parameters.length == expected.length &&
      (parameters.zip expected).all fun (parameter, c) =>
        parameter.rawType.any fun declared => declared.isAssignableFrom c

/-- Matches constructors without parameters. -/
def isDefaultConstructor : Matcher Constructor :=
  ofPredicate Constructor.isDefault

/-- Matches public constructors. -/
def isPublicConstructor : Matcher Constructor :=
  ofPredicate Constructor.isPublic

/-- Matches methods of the given name. -/
def methodNamed (name : String) : Matcher Method :=
  ofPredicate fun m => m.name == name

/-- Matches static methods. -/
def isStaticMethod : Matcher Method :=
  ofPredicate Method.isStatic

/-- Matches methods that set something: by name, with one parameter, on an instance. -/
def isSetter : Matcher Method :=
  ofPredicate fun m =>
    "set_".toList.isPrefixOf m.name.toList && m.parameters.length == 1 && !m.isStatic

/-- Matches values of the given form. -/
def formIs (form : Form) : Matcher Value :=
  ofPredicate fun value => value.form? == some form

/-- Judges the text of a value; other values do not match. -/
def textIs (matcher : Matcher String) : Matcher Value :=
  narrowed Value.text? matcher

end Matcher
end TestData
