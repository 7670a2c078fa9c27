import TestData.Site.Basic

namespace TestData

/-!
# Making sites

Sites are made below a parent, apart from the unknown site and the parameters of
a test, which are roots.  A parameter site checks that the parameter belongs to
the executable, a type argument site that there is such an argument; these checks
are the only ways to fail.
-/

/-- Why a site cannot be made. -/
inductive SiteError where
  | notAParameter (parameter : Parameter) (executable : Executable)
  | parameterIndex (index : Nat) (executable : Executable)
  | argumentIndex (index : Nat) (raw : Class) (arguments : List TypeExpr)

def SiteError.message : SiteError → String
  | .notAParameter parameter executable =>
      parameter.display ++ " is not a parameter of " ++ executable.display
  | .parameterIndex index executable =>
      "parameter index " ++ toString index ++ " out of range for " ++ executable.display
        ++ " (" ++ toString executable.parameters.length ++ " parameters)"
  | .argumentIndex index raw arguments =>
      "type argument index " ++ toString index ++ " out of range for "
        ++ (TypeExpr.parameterized raw arguments).display
        ++ " (" ++ toString arguments.length ++ " arguments)"

namespace Executable

/-- The parameter, provided that it is one of the executable. -/
def checkParameter (executable : Executable) (parameter : Parameter) :
    Except SiteError Parameter :=
  if executable.parameters.contains parameter then .ok parameter
  else .error (.notAParameter parameter executable)

/-- The parameter at a position. -/
def parameterAt (executable : Executable) (index : Nat) : Except SiteError Parameter :=
  match executable.parameters[index]? with
  | some parameter => .ok parameter
  | none => .error (.parameterIndex index executable)

end Executable

namespace Site

/-- A parameter of a test, which is where requests of a test start. -/
def testParameter (executable : Executable) (parameter : Parameter) : Except SiteError Site := do
  return .root (.testParameter executable (← executable.checkParameter parameter))

/-- A parameter of a constructor that is about to be called. -/
def constructorParameter (parent : Site) (constructor : Constructor) (parameter : Parameter) :
    Except SiteError Site := do
  let parameter ← (Executable.constructor constructor).checkParameter parameter
  return .child (.constructorParameter constructor parameter) parent

def constructorParameterAt (parent : Site) (constructor : Constructor) (index : Nat) :
    Except SiteError Site := do
  constructorParameter parent constructor (← (Executable.constructor constructor).parameterAt index)

/-- A parameter of a method that is about to be called. -/
def methodParameter (parent : Site) (method : Method) (parameter : Parameter) :
    Except SiteError Site := do
  let parameter ← (Executable.method method).checkParameter parameter
  return .child (.methodParameter method parameter) parent

def methodParameterAt (parent : Site) (method : Method) (index : Nat) :
    Except SiteError Site := do
  methodParameter parent method (← (Executable.method method).parameterAt index)

def returnValue (parent : Site) (method : Method) : Site :=
  .child (.returnValue method) parent

def invocation (parent : Site) (method : Method) : Site :=
  .child (.invocation method) parent

def arrayElement (parent : Site) (component : TypeExpr) : Site :=
  .child (.arrayElement component) parent

/-- An argument of a class applied to arguments, and the site at which it is wanted. -/
def argumentAt (parent : Site) (raw : Class) (arguments : List TypeExpr) (index : Nat) :
    Except SiteError (TypeExpr × Site) :=
  if inRange : index < arguments.length then
    .ok (arguments[index], .child (.typeArgument raw arguments index) parent)
  else .error (.argumentIndex index raw arguments)

/-- The site of an argument of a class applied to arguments. -/
def typeArgument (parent : Site) (raw : Class) (arguments : List TypeExpr) (index : Nat) :
    Except SiteError Site :=
  (argumentAt parent raw arguments index).map Prod.snd

/-- The site at which a value that will be remembered is made. -/
def memoizing (parent : Site) : Site :=
  .child .memoizing parent

def injectedField (parent : Site) (field : Field) : Site :=
  .child (.injectedField field) parent

end Site
end TestData
