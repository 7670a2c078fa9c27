import TestData.Strategy.Basic
import TestData.Type.WellKnown

namespace TestData

/-!
# Which requests a strategy accepts

Most strategies look at the type alone, with wildcards in front replaced by their
bounds.  The strategies that go by members run a selector, and remember for each
class name what it picked, be it nothing; so acceptance is a step that may change
the store.
-/

namespace TypeExpr

/-- Whether a type, with wildcards in front replaced by their bounds, is the given one. -/
def unwrapsTo (type expected : TypeExpr) : Bool :=
  type.unwrap.any (· == expected)

/-- The form in which a type uses a class. -/
inductive Shape where
  | raw
  | applied (raw : Class) (arguments : List TypeExpr)

/-- How a type uses a class: by itself, or applied to the right number of arguments. -/
def shape? (type : TypeExpr) (c : Class) (arity : Nat) : Option Shape :=
  match type.unwrap with
  | some (.plain raw) => if raw == c then some .raw else none
  | some (.parameterized raw arguments) =>
      if raw == c && arguments.length == arity then some (.applied raw arguments) else none
  | _ => none

/-- The component of an array type; that of a generic array has to have a class. -/
def component? (type : TypeExpr) : Option TypeExpr :=
  match type.unwrap with
  | some (.plain c) => c.component?.map .plain
  | some (.genericArray component) =>
      if component.rawType.isSome then some component else none
  | _ => none

/-- The content of the default value of a primitive type. -/
def defaultContent? (type : TypeExpr) : Option Content :=
  match type.unwrap with
  | some (.plain c) =>
      if c.isPrimitive then
        match c.name with
        | "bool" => some (.truth false)
        | "char" => some (.character '\x00')
        | name => (NumberKind.ofName? name).map fun kind => .number kind 0
      else none
  | _ => none

end TypeExpr

namespace Class

/-- Whether instances of a class can be made by its constructors. -/
def isInstantiable (c : Class) : Bool :=
  !c.isAbstract && !c.isPrimitive && !c.isEnum && !c.isArray

/-- Whether a class can have factory methods. -/
def isManufacturable (c : Class) : Bool :=
  !c.isPrimitive && !c.isEnum && !c.isInterface

/-- The constructors that may be called. -/
def usableConstructors (c : Class) : List Constructor :=
  c.constructors.filter fun k => k.visibility != .hidden

/-- The static methods that may be called and whose result the class stands for. -/
def factoryMethods (c : Class) : List Method :=
  c.methods.filter fun m =>
    m.isStatic && m.visibility != .hidden &&
      m.returnType.rawType.any fun returned => returned.isAssignableFrom c

end Class

namespace Strategy

/-- The class whose constructors can serve a type. -/
def constructedClass? (type : TypeExpr) : Option Class :=
  type.rawType.filter fun c => c.isInstantiable && !c.constructors.isEmpty

/-- The class whose factory methods can serve a type. -/
def manufacturedClass? (type : TypeExpr) : Option Class :=
  type.rawType.filter fun c => c.isManufacturable && !c.methods.isEmpty

/-- The constructor for a type: for each class name the selector is run only once. -/
def chosenConstructor (cell : Cell) (selector : Selector Constructor) (site : Site)
    (type : TypeExpr) : Step (Option Constructor) :=
  match constructedClass? type with
  | none => return none
  | some c =>
      Store.settle
        (fun store => store.constructors.find? (cell, c.name))
        (fun choice store =>
          { store with constructors := store.constructors.insert (cell, c.name) choice })
        (do
          Store.record (.selected cell c.name)
          selector.selectFrom site c.usableConstructors)

/-- The factory method for a type: for each class name the selector is run only once. -/
def chosenMethod (cell : Cell) (selector : Selector Method) (site : Site)
    (type : TypeExpr) : Step (Option Method) :=
  match manufacturedClass? type with
  | none => return none
  | some c =>
      Store.settle
        (fun store => store.methods.find? (cell, c.name))
        (fun choice store =>
          { store with methods := store.methods.insert (cell, c.name) choice })
        (do
          Store.record (.selected cell c.name)
          selector.selectFrom site c.factoryMethods)

/-- The constant of an enum that the selector picks now. -/
def chosenConstant (selector : Selector Value) (site : Site) (type : TypeExpr) :
    Step (Option Value) :=
  match type.unwrap with
  | some (.plain c) => if c.isEnum then selector.selectFrom site c.constants else return none
  | _ => return none

/-- Whether an option of the type can be made in the given mode. -/
def acceptsOptional (mode : OptionalMode) (type : TypeExpr) : Bool :=
  match type.unwrap with
  | some (.plain c) => c == Class.option && mode.allowsEmpty
  | some (.parameterized raw arguments) => raw == Class.option && arguments.length == 1
  | _ => false

/-- Collections of a class by itself are accepted only if they are to be empty. -/
def acceptsShape (type : TypeExpr) (c : Class) (arity size : Nat) : Bool :=
  match type.shape? c arity with
  | some .raw => size == 0
  | some (.applied ..) => true
  | none => false

/-- Null can stand for every type whose class is known not to be primitive. -/
def acceptsNull (type : TypeExpr) : Bool :=
  type.rawType.any fun c => !c.isPrimitive

/-- Whether a strategy accepts a type at a site. -/
def accepts : Strategy → Site → TypeExpr → Step Bool
  | .defaultValue, _, type => return type.defaultContent?.isSome
  | .constant expected _, _, type => return type.unwrapsTo expected
  | .supplied _ expected _, _, type => return type.unwrapsTo expected
  | .nullValue, _, type => return acceptsNull type
  | .optional mode, _, type => return acceptsOptional mode type
  | .collection c _ size, site, type => return acceptsShape type c 1 (size.at site)
  | .map c _ size, site, type => return acceptsShape type c 2 (size.at site)
  | .array _, _, type => return type.component?.isSome
  | .constructor cell selector, site, type =>
      return (← chosenConstructor cell selector site type).isSome
  | .factoryMethod cell selector, site, type =>
      return (← chosenMethod cell selector site type).isSome
  | .enumValue selector, site, type => return (← chosenConstant selector site type).isSome
  | .implementation target _, _, type => return type.unwrapsTo target
  | .chain, _, type => return type.unwrapsTo (.plain Class.chain)
  | .memoizing _ inner _, site, type => accepts inner site type
  | .conditional inner condition, site, type => do
      if ← accepts inner site type then Store.heed (condition site type) else return false
  | .enhancing inner _, site, type => accepts inner site type

end Strategy
end TestData
