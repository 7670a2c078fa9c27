import TestData.Annotation
import TestData.Value.Invocation
import TestData.Type.Key

namespace TestData

/-!
# Class and type descriptors

A class descriptor says what a class is called, where it stands in the class
hierarchy and which members it declares.  A type is a class, a class applied to
arguments, a wildcard, a type variable or an array of a type.  The two refer to
each other, and a descriptor that names itself can do so only through another
descriptor of the same name; so descriptors are finite trees, and the same class
may occur in a tree in several states of detail.

Members are declared without saying where: the name of the class, and for a
parameter its owner and position, are added when a member is taken out of its
class (`TestData.Member`).  A member can therefore never claim a class that did
not declare it.
-/

/-- Who may use a member. -/
inductive Visibility where
  | exported
  | internal
  | hidden
  deriving DecidableEq, Repr, Inhabited

def Visibility.name : Visibility → String
  | .exported => "public"
  | .internal => "internal"
  | .hidden => "private"

/-- The visibility of a name, if there is one. -/
def Visibility.ofName? (name : String) : Option Visibility :=
  [exported, internal, hidden].find? fun visibility => visibility.name = name

mutual

/-- A type, as it may occur in a declaration or in a request. -/
inductive TypeExpr where
  | plain (descriptor : Class)
  | parameterized (raw : Class) (arguments : List TypeExpr)
  | wildcard (upper lower : List TypeExpr)
  | var (symbol : TypeVariable) (bounds : List TypeExpr)
  | genericArray (component : TypeExpr)

/-- What sort of class a descriptor describes. -/
inductive ClassKind where
  | primitive
  | concrete
  | abstract
  | interface
  | enum
  | array (component : Class)

/-- A class and the members it declares. -/
structure Class where
  name : String
  kind : ClassKind
  visibility : Visibility := .exported
  typeParameters : List String := []
  superclass : Option TypeExpr := none
  interfaces : List TypeExpr := []
  annotations : List Annotation := []
  constructorDeclarations : List ConstructorDeclaration := []
  methodDeclarations : List MethodDeclaration := []
  fieldDeclarations : List FieldDeclaration := []
  constants : List Value := []

/-- A parameter of a constructor or a method. -/
structure ParameterDeclaration where
  name : String
  type : TypeExpr
  annotations : List Annotation := []

/-- A constructor: its parameters, and how to call it if that is known. -/
structure ConstructorDeclaration where
  parameters : List ParameterDeclaration := []
  visibility : Visibility := .exported
  annotations : List Annotation := []
  invoker : Option ConstructorInvoker := none

/-- A method: its signature, and how to call it if that is known. -/
structure MethodDeclaration where
  name : String
  returnType : TypeExpr
  isStatic : Bool := false
  typeParameters : List String := []
  parameters : List ParameterDeclaration := []
  visibility : Visibility := .exported
  annotations : List Annotation := []
  invoker : Option MethodInvoker := none

/-- A field, and how to set it if that is known. -/
structure FieldDeclaration where
  name : String
  type : TypeExpr
  isStatic : Bool := false
  visibility : Visibility := .hidden
  annotations : List Annotation := []
  setter : Option FieldSetter := none

end

/-- The sort of class by name. -/
def ClassKind.name : ClassKind → String
  | .primitive => "primitive"
  | .concrete => "concrete"
  | .abstract => "abstract"
  | .interface => "interface"
  | .enum => "enum"
  | .array _ => "array"

/-- The sort of a name, apart from arrays, which need a component. -/
def ClassKind.ofName? (name : String) : Option ClassKind :=
  [primitive, concrete, abstract, interface, enum].find? fun kind => kind.name = name

namespace Class

/-- A concrete class without members; it can stand for any class of that name. -/
def named (name : String) : Class where
  name := name
  kind := .concrete

/-- A primitive class. -/
def primitive (name : String) : Class where
  name := name
  kind := .primitive

/-- The class of arrays with elements of the given class. -/
def arrayOf (component : Class) : Class where
  name := "[" ++ component.name ++ "]"
  kind := .array component

/-- An interface with type parameters and no members. -/
def generic (name : String) (typeParameters : List String) : Class where
  name := name
  kind := .interface
  typeParameters := typeParameters

/-- The top class: every class that is not primitive is assignable to it. -/
def object : Class := named "object"

instance : Inhabited Class := ⟨object⟩

/-- Two descriptors describe the same class when they have the same name. -/
instance : BEq Class := ⟨fun a b => a.name == b.name⟩

theorem beq_iff_name_eq {a b : Class} : (a == b) = true ↔ a.name = b.name := by
  show (a.name == b.name) = true ↔ _
  exact beq_iff_eq

/-- The name without its path and type arguments. -/
def simpleName (c : Class) : String :=
  Text.simpleName c.name

def isPrimitive (c : Class) : Bool :=
  match c.kind with
  | .primitive => true
  | _ => false

def isInterface (c : Class) : Bool :=
  match c.kind with
  | .interface => true
  | _ => false

/-- Interfaces count as abstract. -/
def isAbstract (c : Class) : Bool :=
  match c.kind with
  | .abstract | .interface => true
  | _ => false

def isEnum (c : Class) : Bool :=
  match c.kind with
  | .enum => true
  | _ => false

/-- The class of the elements, if the class is an array class. -/
def component? (c : Class) : Option Class :=
  match c.kind with
  | .array component => some component
  | _ => none

def isArray (c : Class) : Bool :=
  c.component?.isSome

/-- The type variables a class declares, in the order of its type parameters. -/
def typeVariables (c : Class) : List TypeVariable :=
  c.typeParameters.map fun name => ⟨c.name, name⟩

/-- The declared supertypes: the superclass first, then the interfaces in order. -/
def supertypes (c : Class) : List TypeExpr :=
  c.superclass.toList ++ c.interfaces

/-- The class with one more constant; a class with constants is an enum. -/
def withConstant (c : Class) (constant : Value) : Class :=
  { c with kind := .enum, constants := c.constants ++ [constant] }

end Class

instance : Annotated Class := ⟨Class.annotations⟩

namespace TypeExpr

instance : Inhabited TypeExpr := ⟨.plain .object⟩
instance : Coe Class TypeExpr := ⟨.plain⟩

mutual

/-- The type with every class reduced to its name. -/
def key : TypeExpr → TypeKey
  | .plain c => .plain c.name
  | .parameterized raw arguments => .parameterized raw.name (keys arguments)
  | .wildcard upper lower => .wildcard (keys upper) (keys lower)
  | .var symbol _ => .var symbol
  | .genericArray component => .genericArray component.key

def keys : List TypeExpr → List TypeKey
  | [] => []
  | type :: types => type.key :: keys types

end

@[simp]
theorem keys_eq_map (types : List TypeExpr) : keys types = types.map key := by
  induction types with
  | nil => rfl
  | cons type types ih => simp [keys, ih]

/-- Two types are equal when their keys are. -/
instance : BEq TypeExpr := ⟨fun a b => a.key == b.key⟩

theorem beq_iff_key_eq {a b : TypeExpr} : (a == b) = true ↔ a.key = b.key := by
  show (a.key == b.key) = true ↔ _
  exact beq_iff_eq

/-- The text of a type, which depends on its key alone. -/
def display (type : TypeExpr) : String :=
  type.key.display

/-- A wildcard that stands for any type. -/
def unbounded : TypeExpr :=
  .wildcard [.plain .object] []

/-- A wildcard for the subtypes of a type. -/
def extending (bound : TypeExpr) : TypeExpr :=
  .wildcard [bound] []

/-- A wildcard for the supertypes of a type. -/
def superOf (bound : TypeExpr) : TypeExpr :=
  .wildcard [.plain .object] [bound]

/-- A type variable without bounds. -/
def ofVariable (symbol : TypeVariable) : TypeExpr :=
  .var symbol []

/-- The class, if the type is nothing but a class. -/
def class? : TypeExpr → Option Class
  | .plain c => some c
  | _ => none

/-- The arguments, if the type is a class applied to arguments. -/
def arguments? : TypeExpr → Option (List TypeExpr)
  | .parameterized _ arguments => some arguments
  | _ => none

end TypeExpr

end TestData
