import TestData.Type.Basic

namespace TestData

/-!
# Visiting types

A visitor handles some of the forms a type can have.  Visiting a type of a form
that is not handled is an error that names the operation the visitor stands for.
-/

/-- The operation of a visitor does not cover a type. -/
structure UnsupportedType where
  type : TypeExpr
  operation : String

/-- A handler for each form of types; forms without a handler are not covered. -/
structure TypeVisitor (α : Type) where
  operation : String := "type visitor"
  plain : Option (Class → α) := none
  parameterized : Option (Class → List TypeExpr → α) := none
  wildcard : Option (List TypeExpr → List TypeExpr → α) := none
  var : Option (TypeVariable → List TypeExpr → α) := none
  genericArray : Option (TypeExpr → α) := none

namespace TypeVisitor

variable {α : Type}

/-- The handler of a visitor for the form of a type, applied to its parts. -/
def handle? (visitor : TypeVisitor α) : TypeExpr → Option α
  | .plain c => visitor.plain.map fun handler => handler c
  | .parameterized raw arguments => visitor.parameterized.map fun handler => handler raw arguments
  | .wildcard upper lower => visitor.wildcard.map fun handler => handler upper lower
  | .var symbol bounds => visitor.var.map fun handler => handler symbol bounds
  | .genericArray component => visitor.genericArray.map fun handler => handler component

/-- What a visitor makes of a type. -/
def visit (visitor : TypeVisitor α) (type : TypeExpr) : Except UnsupportedType α :=
  match visitor.handle? type with
  | some result => .ok result
  | none => .error ⟨type, visitor.operation⟩

end TypeVisitor

namespace TypeExpr

mutual

/-- A short account of the form of a type, down to the arguments and components. -/
def outline : TypeExpr → String
  | .plain c => "class " ++ c.simpleName
  | .parameterized _ arguments =>
      "parameterized [" ++ "; ".intercalate (outlines arguments) ++ "]"
  | .wildcard upper lower =>
      "wildcard " ++ toString upper.length ++ "/" ++ toString lower.length
  | .var symbol _ => "variable " ++ symbol.name ++ " of " ++ symbol.declaredBy
  | .genericArray component => "array [" ++ component.outline ++ "]"

def outlines : List TypeExpr → List String
  | [] => []
  | type :: types => type.outline :: outlines types

end

end TypeExpr

namespace TypeVisitor

/-- A visitor that covers nothing. -/
def nothing : TypeVisitor String := {}

/-- A visitor that covers classes and gives their names. -/
def classNames : TypeVisitor String where
  operation := "class names"
  plain := some fun c => "class " ++ c.name

/-- A visitor that covers every type and tells its form. -/
def outlines : TypeVisitor String where
  plain := some fun c => (TypeExpr.plain c).outline
  parameterized := some fun raw arguments => (TypeExpr.parameterized raw arguments).outline
  wildcard := some fun upper lower => (TypeExpr.wildcard upper lower).outline
  var := some fun symbol bounds => (TypeExpr.var symbol bounds).outline
  genericArray := some fun component => (TypeExpr.genericArray component).outline

/-- A visitor with a handler for every form never fails. -/
theorem visit_outlines (type : TypeExpr) : outlines.visit type = .ok type.outline := by
  cases type <;> rfl

end TypeVisitor
end TestData
