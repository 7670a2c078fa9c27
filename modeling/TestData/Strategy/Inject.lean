import TestData.Strategy.Basic

namespace TestData

/-!
# Working on a finished stub

An enhancer gets a stub that was just made.  The field injector fills the fields
of the object and of everything its class inherits from, the method injector calls
methods on it with requested arguments.  Both hand back the very object they got,
and leave null alone.
-/

namespace Class

/-- The fields an instance has, its own first; interfaces and static fields do not count. -/
def instanceFields (c : Class) : List Field :=
  (c.hierarchy.filter fun above => !above.isInterface).flatMap fun above =>
    above.fields.filter fun f => !f.isStatic

/-- The methods that can be called on an instance, its own first. -/
def instanceMethods (c : Class) : List Method :=
  c.hierarchy.flatMap fun above => above.methods.filter fun m => !m.isStatic

end Class

/-- What methods have in common that override each other: name and parameter types. -/
structure Signature where
  name : String
  parameterTypes : List TypeKey
  deriving DecidableEq, Repr

def Method.signature (m : Method) : Signature :=
  ⟨m.name, m.parameterTypes.map TypeExpr.key⟩

namespace Enhancer

/-- The methods that match, without those whose signature was met before. -/
def matchingMethods (matcher : Matcher Method) (site : Site) :
    List Signature → List Method → Step (List Method)
  | _, [] => return []
  | met, m :: rest => do
      if ← Store.heed (matcher site m) then
        if m.signature ∈ met then matchingMethods matcher site met rest
        else return m :: (← matchingMethods matcher site (m.signature :: met) rest)
      else matchingMethods matcher site met rest

/-- The methods to call on an object of a type. -/
def methodsToCall (matcher : Matcher Method) (site : Site) (type : TypeExpr) :
    Step (List Method) :=
  match type.rawType with
  | some c => matchingMethods matcher site [] c.instanceMethods
  | none => return []

/-- Fill those fields of an object that match, one after the other. -/
def fillFields (host : Host) (matcher : Matcher Field) (bindings : Bindings) (site : Site)
    (type : TypeExpr) (target : Value) : List Field → Run Unit
  | [] => return ()
  | f :: rest => do
      if ← Store.heed (matcher site f) then
        let fieldSite := site.injectedField f
        let value ← host.request ⟨bindings.resolve f.type, fieldSite⟩
        match ← Store.carryOutSetter (f.assign target value) with
        | .ok () => fillFields host matcher bindings site type target rest
        | .error message =>
            Run.fail (.produce type fieldSite ("cannot set " ++ f.display ++ ": " ++ message))
      else fillFields host matcher bindings site type target rest

/-- Call methods on an object, one after the other. -/
def callMethods (host : Host) (bindings : Bindings) (site : Site) (type : TypeExpr)
    (target : Value) : List Method → Run Unit
  | [] => return ()
  | m :: rest => do
      let arguments ← host.requestArguments bindings (site.methodParameter m) m.parameters
      match ← Store.carryOut (m.call (some target) arguments) with
      | .ok _ => callMethods host bindings site type target rest
      | .error message =>
          Run.fail (.produce type site (m.display ++ " failed: " ++ message))

/-- What an enhancer makes of a stub. -/
def enhance (host : Host) (site : Site) (type : TypeExpr) (value : Value) :
    Enhancer → Run Value
  | .injectFields matcher =>
      if value.isNull then return value
      else
        match type.rawType with
        | none => return value
        | some c => do
            let bindings ← Run.ofBounded (Bindings.ofType host.depth type)
            fillFields host matcher bindings site type value c.instanceFields
            return value
  | .injectMethods matcher =>
      if value.isNull then return value
      else do
        let bindings ← Run.ofBounded (Bindings.ofType host.depth type)
        callMethods host bindings site type value (← methodsToCall matcher site type)
        return value
  | .custom action => (action site type value).run host

end Enhancer
end TestData
