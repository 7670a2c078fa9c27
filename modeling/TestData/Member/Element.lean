import TestData.Member.Basic

namespace TestData

/-!
# Executables and annotated elements

Constructors and methods together are the executables, what parameters belong to.
Everything that can carry annotations is an element: a class, an executable, a
parameter or a field.
-/

/-- A constructor or a method. -/
inductive Executable where
  | constructor (constructor : Constructor)
  | method (method : Method)

/-- What identifies an executable. -/
inductive ExecutableKey where
  | constructor (key : ConstructorKey)
  | method (key : MethodKey)
  deriving DecidableEq, Repr

namespace Executable

def className : Executable → String
  | .constructor k => k.className
  | .method m => m.className

def parameters : Executable → List Parameter
  | .constructor k => k.parameters
  | .method m => m.parameters

def parameterTypes : Executable → List TypeExpr
  | .constructor k => k.parameterTypes
  | .method m => m.parameterTypes

def visibility : Executable → Visibility
  | .constructor k => k.visibility
  | .method m => m.visibility

def constructor? : Executable → Option Constructor
  | .constructor k => some k
  | .method _ => none

def method? : Executable → Option Method
  | .constructor _ => none
  | .method m => some m

def key : Executable → ExecutableKey
  | .constructor k => .constructor k.key
  | .method m => .method m.key

instance : BEq Executable := ⟨fun a b => a.key == b.key⟩

instance : Annotated Executable where
  annotations
    | .constructor k => Annotated.annotations k
    | .method m => Annotated.annotations m

def display : Executable → String
  | .constructor k => k.display
  | .method m => m.display

end Executable

/-- Anything that has a parameter list. -/
class Callable (α : Type) where
  parameters : α → List Parameter

instance : Callable Constructor := ⟨Constructor.parameters⟩
instance : Callable Method := ⟨Method.parameters⟩
instance : Callable Executable := ⟨Executable.parameters⟩

/-- Anything that can carry annotations. -/
inductive Element where
  | descriptor (descriptor : Class)
  | constructor (constructor : Constructor)
  | method (method : Method)
  | parameter (parameter : Parameter)
  | field (field : Field)

/-- What identifies an element. -/
inductive ElementKey where
  | descriptor (name : String)
  | constructor (key : ConstructorKey)
  | method (key : MethodKey)
  | parameter (key : ParameterKey)
  | field (key : FieldKey)
  deriving DecidableEq, Repr

namespace Element

def key : Element → ElementKey
  | .descriptor c => .descriptor c.name
  | .constructor k => .constructor k.key
  | .method m => .method m.key
  | .parameter p => .parameter p.key
  | .field f => .field f.key

instance : BEq Element := ⟨fun a b => a.key == b.key⟩

instance : Annotated Element where
  annotations
    | .descriptor c => Annotated.annotations c
    | .constructor k => Annotated.annotations k
    | .method m => Annotated.annotations m
    | .parameter p => Annotated.annotations p
    | .field f => Annotated.annotations f

def display : Element → String
  | .descriptor c => c.name
  | .constructor k => k.display
  | .method m => m.display
  | .parameter p => p.display
  | .field f => f.display

end Element

/-- An executable is an element. -/
def Executable.toElement : Executable → Element
  | .constructor k => .constructor k
  | .method m => .method m

end TestData
