import TestData.Chain.Builder

namespace TestData

/-!
# Settings

What can be configured about a chain from outside: the baseline, and some
strategies in front of it that take the place of those in the baseline.
-/

/-- The configurable choices; what is not set is left to the baseline. -/
structure Settings where
  baseline : Baseline := .full
  collectionSize : Option UInt64 := none
  optionalMode : Option OptionalMode := none
  randomSeed : Option UInt64 := none
  deriving DecidableEq, Repr

namespace Settings

instance : Inhabited Settings := ⟨{}⟩

/-- The strategies for collections of a configured size. -/
def collectionStrategies (size : UInt64) : List Strategy :=
  .array (.fixed size.toNat) :: Strategy.defaultCollections size.toNat

/-- What the settings ask a chain to be assembled from. -/
def builder (settings : Settings) : Step ChainBuilder := do
  let builder := ChainBuilder.new.withBaseline settings.baseline
  let builder :=
    match settings.collectionSize with
    | some size => builder.stubWithAll (collectionStrategies size)
    | none => builder
  let builder :=
    match settings.optionalMode with
    | some mode => builder.stubWith (.optional mode)
    | none => builder
  match settings.randomSeed with
  | some seed => return builder.stubWith (.enumValue (← Selector.seeded seed))
  | none => return builder

/-- A new chain for the settings. -/
def chain (settings : Settings) : Step Chain := do
  (← settings.builder).build

/-- A way of reading settings: those a text stands for, or nothing if it stands for none. -/
abbrev Reader := String → Option Settings

/-- The settings a text stands for; there is one kind of error for all texts that stand for none. -/
def Reader.parse (reader : Reader) (text : String) : Except StubError Settings :=
  match reader text with
  | some settings => .ok settings
  | none => .error .serialization

end Settings
end TestData
