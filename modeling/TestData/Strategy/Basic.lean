import TestData.Selector
import TestData.Strategy.Host

namespace TestData

/-!
# Strategies

A strategy knows how to make stubs for some requests.  The primitive strategies
serve types by themselves or from the members of a class; decorators are put
around a strategy to restrict it, to remember what it made or to work on it
afterwards.  A strategy is data: what it accepts and what it makes is defined
elsewhere, and what it remembers is in the store, under its cell.
-/

/-- What an option is filled with. -/
inductive OptionalMode where
  | empty
  | present
  | presentIfPossible
  deriving DecidableEq, Repr

namespace OptionalMode

instance : Inhabited OptionalMode := ⟨.present⟩

/-- Options may stay empty, unless they are to be filled always. -/
def allowsEmpty (mode : OptionalMode) : Bool :=
  mode != .present

def name : OptionalMode → String
  | .empty => "empty"
  | .present => "present"
  | .presentIfPossible => "present_if_possible"

def all : List OptionalMode := [.empty, .present, .presentIfPossible]

/-- The mode of a name, if there is one. -/
def ofName? (name : String) : Option OptionalMode :=
  all.find? fun mode => mode.name = name

end OptionalMode

/-- The number of elements of a collection, given or computed from the site. -/
inductive Size where
  | fixed (count : Nat)
  | computed (count : Site → Nat)

/-- The number of elements at a site. -/
def Size.at : Size → Site → Nat
  | .fixed count, _ => count
  | .computed count, site => count site

/-- As many elements as there are sites from the site to its root. -/
def Size.depth : Size :=
  .computed Site.depth

/-- As many elements as the name of the site has characters. -/
def Size.nameLength : Size :=
  .computed fun site => (site.name?.map String.length).getD 0

/-- What memoized values are shared by, besides their type. -/
inductive Discriminator where
  | byType
  | byNearestElement
  | custom (name : Site → TypeExpr → Option String)

/-- The scope of a memo at a site; without a key of its own it is shared. -/
def Discriminator.scope : Discriminator → Site → TypeExpr → MemoScope
  | .byType, _, _ => .shared
  | .byNearestElement, site, _ =>
      match site.nearestElement? with
      | some element => .element element.key
      | none => .shared
  | .custom name, site, type =>
      match name site type with
      | some name => .custom name
      | none => .shared

/-- The key under which the value for a type at a site is memoized. -/
def Discriminator.key (discriminator : Discriminator) (site : Site) (type : TypeExpr) : MemoKey :=
  ⟨type.key, discriminator.scope site type⟩

/-- What is done to a stub after it was made. -/
inductive Enhancer where
  | injectFields (matcher : Matcher Field)
  | injectMethods (matcher : Matcher Method)
  | custom (enhance : Site → TypeExpr → Value → Action)

/-- A way of making stubs. -/
inductive Strategy where
  | defaultValue
  | constant (type : TypeExpr) (value : Value)
  | supplied (cell : Cell) (type : TypeExpr) (supplier : Site → UInt64 → Action)
  | nullValue
  | optional (mode : OptionalMode)
  | collection (descriptor : Class) (build : List Value → Content) (size : Size)
  | map (descriptor : Class) (build : List (Value × Value) → Content) (size : Size)
  | array (size : Size)
  | constructor (cell : Cell) (selector : Selector Constructor)
  | factoryMethod (cell : Cell) (selector : Selector Method)
  | enumValue (selector : Selector Value)
  | implementation (target substitute : TypeExpr)
  | chain
  | memoizing (cell : Cell) (inner : Strategy) (discriminator : Discriminator)
  | conditional (inner : Strategy) (condition : Matcher TypeExpr)
  | enhancing (inner : Strategy) (enhancer : Enhancer)

namespace Strategy

instance : Inhabited Strategy := ⟨.defaultValue⟩

/-- The name of a strategy; decorators go by the name of what they are put around. -/
def name : Strategy → String
  | .defaultValue => "DefaultValueStrategy"
  | .constant .. => "ConstantValueStrategy"
  | .supplied .. => "SuppliedValueStrategy"
  | .nullValue => "NullValueStrategy"
  | .optional _ => "OptionalStrategy"
  | .collection .. => "CollectionStrategy"
  | .map .. => "MapStrategy"
  | .array _ => "ArrayStrategy"
  | .constructor .. => "ConstructorStrategy"
  | .factoryMethod .. => "FactoryMethodStrategy"
  | .enumValue _ => "EnumValueStrategy"
  | .implementation .. => "ImplementationStrategy"
  | .chain => "StubberStrategy"
  | .memoizing _ inner _ => inner.name
  | .conditional inner _ => inner.name
  | .enhancing inner _ => inner.name

/-- A strategy that supplies values for a type, numbered from zero. -/
def supplying (type : TypeExpr) (supplier : Site → UInt64 → Action) : Step Strategy := do
  return .supplied (← Store.newCell) type supplier

/-- A strategy that supplies a new object with the same content each time. -/
def renewing (type : TypeExpr) (content : Content) : Step Strategy :=
  supplying type fun _ _ => .giveNew content

/-- A strategy that hands out the same new object each time. -/
def constantOf (type : TypeExpr) (content : Content) : Step Strategy := do
  return .constant type (← Store.create content)

/-- A strategy that calls the constructor picked by a selector. -/
def constructing (selector : Selector Constructor) : Step Strategy := do
  return .constructor (← Store.newCell) selector

/-- A strategy that calls the constructor that alone matches. -/
def constructingBy (matcher : Matcher Constructor) : Step Strategy :=
  constructing (.unique matcher)

/-- A strategy that calls the static method picked by a selector. -/
def manufacturing (selector : Selector Method) : Step Strategy := do
  return .factoryMethod (← Store.newCell) selector

/-- A strategy that calls the static method that alone matches. -/
def manufacturingBy (matcher : Matcher Method) : Step Strategy :=
  manufacturing (.unique matcher)

/-- The strategy with a memory of what it made. -/
def memoizedBy (inner : Strategy) (discriminator : Discriminator) : Step Strategy := do
  return .memoizing (← Store.newCell) inner discriminator

/-- The strategy with a memory of one value per type. -/
def memoized (inner : Strategy) : Step Strategy :=
  inner.memoizedBy .byType

end Strategy
end TestData
