import TestData.Chain.Assembly
import TestData.Matcher.Descriptor
import TestData.Matcher.Site
import TestData.Text.Blank

namespace TestData

/-!
# Ready-made chains

The full chain knows how to stub the common types and the classes whose members
leave no choice.  The minimal chain is the full one, but keeps stubs as small as it
can: null where that is welcome, empty collections and empty options.  Each time a
chain is made it gets cells and constants of its own, so two chains never share
what they remember.
-/

/-- What a chain falls back to. -/
inductive Baseline where
  | full
  | minimal
  | empty
  deriving DecidableEq, Repr

namespace Strategy

/-- The standard collections, each with the given number of elements. -/
def defaultCollections (size : Nat) : List Strategy :=
  [.collection Class.vec .list (.fixed size),
   .collection Class.vecDeque .deque (.fixed size),
   .collection Class.hashSet .list (.fixed size),
   .collection Class.btreeSet .list (.fixed size),
   .map Class.hashMap .entries (.fixed size),
   .map Class.btreeMap .entries (.fixed size)]

/-- The standard collections, all of them empty. -/
def emptyDefaultCollections : List Strategy :=
  defaultCollections 0

/-- One object for every request for the top class, the unit and the class of texts. -/
def commonConstants : Step (List Strategy) := do
  return [
    ← constantOf (.plain Class.object) .unit,
    ← constantOf (.plain Class.unit) .unit,
    ← constantOf (.plain Class.string) (.text "")]

/-- A new object for every request for an atomic cell or a point or span of time. -/
def commonSupplied : Step (List Strategy) := do
  return [
    ← renewing (.plain Class.atomicBool) (.atomicFlag false),
    ← renewing (.plain Class.atomicI32) (.atomicNumber .i32 0),
    ← renewing (.plain Class.atomicI64) (.atomicNumber .i64 0),
    ← renewing (.plain Class.atomicUsize) (.atomicNumber .usize 0),
    ← renewing (.plain Class.systemTime) (.instant 0),
    ← renewing (.plain Class.duration) (.duration 0)]

/-- Calls the only constructor without parameters. -/
def defaultConstructor : Step Strategy :=
  constructingBy Matcher.isDefaultConstructor

/-- Calls the only constructor with parameters. -/
def nonDefaultConstructor : Step Strategy :=
  constructingBy Matcher.isDefaultConstructor.negate

end Strategy

namespace Chain

/-- The strategies of the full chain, in the order in which they are added. -/
def fullStrategies : Step (List Strategy) := do
  let defaultConstructor ← Strategy.defaultConstructor
  let nonDefaultConstructor ← Strategy.nonDefaultConstructor
  let factoryMethod ← Strategy.manufacturingBy Matcher.any
  let constants ← Strategy.commonConstants
  let supplied ← Strategy.commonSupplied
  return [.defaultValue, .enumValue .first, .array (.fixed 0), .optional .present]
    ++ Strategy.defaultCollections 1
    ++ [defaultConstructor, nonDefaultConstructor, factoryMethod, .chain]
    ++ constants ++ supplied

/-- The chain that stubs as much as it can. -/
def full : Step Chain := do
  return assemble (← fullStrategies) [] .empty

/-- The strategies that the minimal chain puts in front of the full one. -/
def minimalStrategies : List Strategy :=
  [.conditional .nullValue (Matcher.annotatedSiteIs Matcher.nullable)]
    ++ Strategy.emptyDefaultCollections ++ [.optional .empty]

/-- The chain that keeps stubs as small as it can. -/
def minimal : Step Chain := do
  return assemble minimalStrategies [← full] .empty

end Chain

namespace Baseline

instance : Inhabited Baseline := ⟨.full⟩

/-- A new chain for a baseline. -/
def chain : Baseline → Step Chain
  | .full => Chain.full
  | .minimal => Chain.minimal
  | .empty => return Chain.empty

def name : Baseline → String
  | .full => "full"
  | .minimal => "minimal"
  | .empty => "empty"

def all : List Baseline := [.full, .minimal, .empty]

/-- The baseline of a name, if there is one. -/
def ofName? (name : String) : Option Baseline :=
  all.find? fun baseline => baseline.name = name

/-- The baseline a text names, whatever its case and the blanks around it. -/
def parse (text : String) : Except StubError Baseline :=
  let name := (Text.trim text).map Char.toLower
  match ofName? name with
  | some baseline => .ok baseline
  | none => .error (.config ("unknown baseline '" ++ name ++ "'"))

theorem ofName?_name (baseline : Baseline) : ofName? baseline.name = some baseline := by
  cases baseline <;> decide

end Baseline
end TestData
