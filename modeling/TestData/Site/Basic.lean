import TestData.Member.Element

namespace TestData

/-!
# Stubbing sites

A site says what a stub is wanted for: a parameter, the element of an array, a
type argument, a field, and so on.  Sites are nested.  A request that is made
while another one is served gets a site whose parent is the site of the other, so
the ancestors of a site tell the way that led to it.
-/

/-- What a stub is wanted for, seen on its own. -/
inductive SiteKind where
  | unknown
  | testParameter (executable : Executable) (parameter : Parameter)
  | constructorParameter (constructor : Constructor) (parameter : Parameter)
  | methodParameter (method : Method) (parameter : Parameter)
  | returnValue (method : Method)
  | invocation (method : Method)
  | arrayElement (component : TypeExpr)
  | typeArgument (raw : Class) (arguments : List TypeExpr) (index : Nat)
  | memoizing
  | injectedField (field : Field)

/-- What identifies a kind of site. -/
inductive SiteKindKey where
  | unknown
  | testParameter (executable : ExecutableKey) (parameter : ParameterKey)
  | constructorParameter (constructor : ConstructorKey) (parameter : ParameterKey)
  | methodParameter (method : MethodKey) (parameter : ParameterKey)
  | returnValue (method : MethodKey)
  | invocation (method : MethodKey)
  | arrayElement (component : TypeKey)
  | typeArgument (type : TypeKey) (index : Nat)
  | memoizing
  | injectedField (field : FieldKey)
  deriving DecidableEq, Repr

namespace SiteKind

def key : SiteKind → SiteKindKey
  | .unknown => .unknown
  | .testParameter executable parameter => .testParameter executable.key parameter.key
  | .constructorParameter constructor parameter =>
      .constructorParameter constructor.key parameter.key
  | .methodParameter method parameter => .methodParameter method.key parameter.key
  | .returnValue method => .returnValue method.key
  | .invocation method => .invocation method.key
  | .arrayElement component => .arrayElement component.key
  | .typeArgument raw arguments index =>
      .typeArgument (TypeExpr.parameterized raw arguments).key index
  | .memoizing => .memoizing
  | .injectedField field => .injectedField field.key

/-- The name of the kind, without what it is about. -/
def name : SiteKind → String
  | .unknown => "unknown"
  | .testParameter .. => "test_param"
  | .constructorParameter .. => "ctor_param"
  | .methodParameter .. => "method_param"
  | .returnValue _ => "returns"
  | .invocation _ => "invocation"
  | .arrayElement _ => "element"
  | .typeArgument .. => "type_arg"
  | .memoizing => "memo"
  | .injectedField _ => "field"

/-- The text of a kind of site, without the sites around it. -/
def display : SiteKind → String
  | .unknown => "unknown"
  | .testParameter executable parameter =>
      "test parameter " ++ parameter.name ++ " of " ++ executable.display
  | .constructorParameter constructor parameter =>
      "parameter " ++ parameter.name ++ " of " ++ constructor.display
  | .methodParameter method parameter =>
      "parameter " ++ parameter.name ++ " of " ++ method.display
  | .returnValue method => "return value of " ++ method.display
  | .invocation method => "invocation of " ++ method.display
  | .arrayElement component => "element of " ++ component.display ++ "[]"
  | .typeArgument raw arguments index =>
      "type argument " ++ toString index ++ " of "
        ++ (TypeExpr.parameterized raw arguments).display
  | .memoizing => "memoized"
  | .injectedField field => "field " ++ field.display

/-- The parameter a stub is wanted for. -/
def parameter? : SiteKind → Option Parameter
  | .testParameter _ parameter | .constructorParameter _ parameter
  | .methodParameter _ parameter => some parameter
  | _ => none

/-- The field a stub is wanted for. -/
def field? : SiteKind → Option Field
  | .injectedField field => some field
  | _ => none

/-- The executable a stub is wanted for. -/
def executable? : SiteKind → Option Executable
  | .testParameter executable _ => some executable
  | .constructorParameter constructor _ => some (.constructor constructor)
  | .methodParameter method _ | .returnValue method | .invocation method => some (.method method)
  | _ => none

/-- The constructor a stub is wanted for. -/
def constructor? : SiteKind → Option Constructor
  | .constructorParameter constructor _ => some constructor
  | .testParameter (.constructor constructor) _ => some constructor
  | _ => none

/-- The method a stub is wanted for. -/
def method? : SiteKind → Option Method
  | .methodParameter method _ | .returnValue method | .invocation method => some method
  | .testParameter (.method method) _ => some method
  | _ => none

/-- The element whose annotations speak about a stub at such a site. -/
def element? : SiteKind → Option Element
  | .testParameter _ parameter | .constructorParameter _ parameter
  | .methodParameter _ parameter => some (.parameter parameter)
  | .returnValue method | .invocation method => some (.method method)
  | .injectedField field => some (.field field)
  | _ => none

/-- The name of what a stub is wanted for. -/
def name? : SiteKind → Option String
  | .testParameter _ parameter | .constructorParameter _ parameter
  | .methodParameter _ parameter => some parameter.name
  | .returnValue method | .invocation method => some method.name
  | .injectedField field => some field.name
  | _ => none

end SiteKind

/-- A kind of site, at a root or below another site. -/
inductive Site where
  | root (kind : SiteKind)
  | child (kind : SiteKind) (parent : Site)

namespace Site

/-- The site of a request nobody said anything about. -/
def unknown : Site := .root .unknown

instance : Inhabited Site := ⟨unknown⟩

def kind : Site → SiteKind
  | .root kind => kind
  | .child kind _ => kind

def parent? : Site → Option Site
  | .root _ => none
  | .child _ parent => some parent

def isRoot : Site → Bool
  | .root _ => true
  | .child .. => false

/-- The site and its ancestors, innermost first. -/
def walk : Site → List Site
  | .root kind => [.root kind]
  | .child kind parent => .child kind parent :: parent.walk

/-- The number of sites from the site to its root, both counted. -/
def depth (site : Site) : Nat :=
  site.walk.length

def key (site : Site) : List SiteKindKey :=
  site.walk.map fun ancestor => ancestor.kind.key

/-- Two sites are equal when they and all their ancestors are. -/
instance : BEq Site := ⟨fun a b => a.key == b.key⟩

/-- The text of a site: the sites on the way to the root, innermost first. -/
def display (site : Site) : String :=
  " <- ".intercalate (site.walk.map fun ancestor => ancestor.kind.display)

def parameter? (site : Site) : Option Parameter := site.kind.parameter?

/-- The position of the parameter a stub is wanted for. -/
def parameterIndex? (site : Site) : Option Nat := site.parameter?.map Parameter.index

def field? (site : Site) : Option Field := site.kind.field?
def executable? (site : Site) : Option Executable := site.kind.executable?
def constructor? (site : Site) : Option Constructor := site.kind.constructor?
def method? (site : Site) : Option Method := site.kind.method?
def element? (site : Site) : Option Element := site.kind.element?
def name? (site : Site) : Option String := site.kind.name?

/-- The element of the site itself or of the nearest ancestor that has one. -/
def nearestElement? (site : Site) : Option Element :=
  site.walk.findSome? element?

@[simp]
theorem walk_root (kind : SiteKind) : (root kind).walk = [root kind] := rfl

@[simp]
theorem walk_child (kind : SiteKind) (parent : Site) :
    (child kind parent).walk = child kind parent :: parent.walk := rfl

theorem mem_walk_self (site : Site) : site ∈ site.walk := by
  cases site <;> simp

end Site
end TestData
