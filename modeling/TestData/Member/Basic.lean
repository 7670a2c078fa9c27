import TestData.Type.Bound

namespace TestData

/-!
# Members

A member is a declaration together with the class it was taken from; a parameter
is a declaration together with its owner and its position.  Members are made by
`Class.constructors`, `Class.methods`, `Class.fields` and the `parameters` of
these, so owner and position always agree with the declaration.

Members are compared by key, as types are: a constructor is known by its class
and parameter types, a method by its name besides, a field by class and name, a
parameter by owner, position, name and type.
-/

/-- A parameter of a constructor or a method. -/
structure Parameter where
  owner : String
  index : Nat
  declaration : ParameterDeclaration

/-- A constructor of a class. -/
structure Constructor where
  className : String
  declaration : ConstructorDeclaration

/-- A method of a class. -/
structure Method where
  className : String
  declaration : MethodDeclaration

/-- A field of a class. -/
structure Field where
  className : String
  declaration : FieldDeclaration

/-- The parameters of an owner, numbered in order. -/
def ParameterDeclaration.ownedBy (owner : String) (declarations : List ParameterDeclaration) :
    List Parameter :=
  declarations.mapIdx fun index declaration => ⟨owner, index, declaration⟩

namespace Class

def constructors (c : Class) : List Constructor :=
  c.constructorDeclarations.map fun declaration => ⟨c.name, declaration⟩

def methods (c : Class) : List Method :=
  c.methodDeclarations.map fun declaration => ⟨c.name, declaration⟩

def fields (c : Class) : List Field :=
  c.fieldDeclarations.map fun declaration => ⟨c.name, declaration⟩

end Class

/-- What identifies a parameter. -/
structure ParameterKey where
  owner : String
  index : Nat
  name : String
  type : TypeKey
  deriving DecidableEq, Repr

/-- What identifies a constructor. -/
structure ConstructorKey where
  className : String
  parameterTypes : List TypeKey
  deriving DecidableEq, Repr

/-- What identifies a method. -/
structure MethodKey where
  className : String
  name : String
  parameterTypes : List TypeKey
  deriving DecidableEq, Repr

/-- What identifies a field. -/
structure FieldKey where
  className : String
  name : String
  deriving DecidableEq, Repr

namespace Parameter

def name (p : Parameter) : String := p.declaration.name

def type (p : Parameter) : TypeExpr := p.declaration.type

def rawType (p : Parameter) : Option Class := p.type.rawType

def key (p : Parameter) : ParameterKey := ⟨p.owner, p.index, p.name, p.type.key⟩

instance : BEq Parameter := ⟨fun a b => a.key == b.key⟩
instance : Annotated Parameter := ⟨fun p => p.declaration.annotations⟩

def display (p : Parameter) : String :=
  p.name ++ ": " ++ p.type.display

end Parameter

/-- The text of a parameter list: the types alone. -/
def displayParameterTypes (parameters : List Parameter) : String :=
  "(" ++ ", ".intercalate (parameters.map fun p => p.type.display) ++ ")"

namespace Constructor

def visibility (k : Constructor) : Visibility := k.declaration.visibility

def isPublic (k : Constructor) : Bool := k.visibility == .exported

/-- What the parameters of a constructor name as their owner. -/
def owner (k : Constructor) : String := k.className ++ "::new"

def parameters (k : Constructor) : List Parameter :=
  ParameterDeclaration.ownedBy k.owner k.declaration.parameters

def parameterTypes (k : Constructor) : List TypeExpr :=
  k.declaration.parameters.map ParameterDeclaration.type

/-- A default constructor has no parameters. -/
def isDefault (k : Constructor) : Bool := k.declaration.parameters.isEmpty

def key (k : Constructor) : ConstructorKey := ⟨k.className, k.parameterTypes.map TypeExpr.key⟩

instance : BEq Constructor := ⟨fun a b => a.key == b.key⟩
instance : Annotated Constructor := ⟨fun k => k.declaration.annotations⟩

def display (k : Constructor) : String :=
  k.className ++ displayParameterTypes k.parameters

/-- What calling the constructor comes to. -/
def call (k : Constructor) (arguments : List Value) : Reply :=
  match k.declaration.invoker with
  | some invoker => invoker arguments
  | none => .failed ("constructor " ++ k.display ++ " has no invoker")

end Constructor

namespace Method

def name (m : Method) : String := m.declaration.name

def visibility (m : Method) : Visibility := m.declaration.visibility

def isPublic (m : Method) : Bool := m.visibility == .exported

def isStatic (m : Method) : Bool := m.declaration.isStatic

def returnType (m : Method) : TypeExpr := m.declaration.returnType

/-- The name of the class and the name of the method. -/
def qualifiedName (m : Method) : String := m.className ++ "::" ++ m.name

def parameters (m : Method) : List Parameter :=
  ParameterDeclaration.ownedBy m.qualifiedName m.declaration.parameters

def parameterTypes (m : Method) : List TypeExpr :=
  m.declaration.parameters.map ParameterDeclaration.type

/-- The type variables of a generic method. -/
def typeVariables (m : Method) : List TypeVariable :=
  m.declaration.typeParameters.map fun name => ⟨m.qualifiedName, name⟩

def key (m : Method) : MethodKey := ⟨m.className, m.name, m.parameterTypes.map TypeExpr.key⟩

instance : BEq Method := ⟨fun a b => a.key == b.key⟩
instance : Annotated Method := ⟨fun m => m.declaration.annotations⟩

def display (m : Method) : String :=
  m.qualifiedName ++ displayParameterTypes m.parameters

/-- What calling the method comes to; a static method has no receiver. -/
def call (m : Method) (receiver : Option Value) (arguments : List Value) : Reply :=
  match m.declaration.invoker with
  | some invoker => invoker receiver arguments
  | none => .failed ("method " ++ m.display ++ " has no invoker")

end Method

namespace Field

def name (f : Field) : String := f.declaration.name

def type (f : Field) : TypeExpr := f.declaration.type

def visibility (f : Field) : Visibility := f.declaration.visibility

def isStatic (f : Field) : Bool := f.declaration.isStatic

def isSettable (f : Field) : Bool := f.declaration.setter.isSome

def key (f : Field) : FieldKey := ⟨f.className, f.name⟩

instance : BEq Field := ⟨fun a b => a.key == b.key⟩
instance : Annotated Field := ⟨fun f => f.declaration.annotations⟩

def display (f : Field) : String :=
  f.className ++ "." ++ f.name

/-- What setting the field of a target comes to. -/
def assign (f : Field) (target value : Value) : SetterReply :=
  match f.declaration.setter with
  | some setter => setter target value
  | none => .error ("field " ++ f.display ++ " has no setter")

end Field

theorem ownedBy_getElem? (owner : String) (declarations : List ParameterDeclaration)
    (index : Nat) :
    (ParameterDeclaration.ownedBy owner declarations)[index]? =
      declarations[index]?.map fun declaration => ⟨owner, index, declaration⟩ := by
  simp [ParameterDeclaration.ownedBy]

@[simp]
theorem length_ownedBy (owner : String) (declarations : List ParameterDeclaration) :
    (ParameterDeclaration.ownedBy owner declarations).length = declarations.length := by
  simp [ParameterDeclaration.ownedBy]

end TestData
