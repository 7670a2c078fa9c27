import TestData.Chain.Preset

namespace TestData

/-!
# Building chains step by step

A builder collects what a chain is to be assembled from.  The order of the calls
matters only among calls of one kind: strategies among strategies, included chains
among included chains, and of the baselines the last one counts.
-/

/-- What a chain is going to be assembled from. -/
structure ChainBuilder where
  baseline : Baseline := .empty
  included : List Chain := []
  added : List Strategy := []

namespace ChainBuilder

/-- Nothing yet, and nothing to fall back to. -/
def new : ChainBuilder := {}

instance : Inhabited ChainBuilder := ⟨new⟩

/-- Fall back to the given baseline. -/
def withBaseline (builder : ChainBuilder) (baseline : Baseline) : ChainBuilder :=
  { builder with baseline := baseline }

/-- Include the strategies of another chain, themselves and not copies of them. -/
def including (builder : ChainBuilder) (chain : Chain) : ChainBuilder :=
  { builder with included := builder.included ++ [chain] }

/-- Add a strategy. -/
def stubWith (builder : ChainBuilder) (strategy : Strategy) : ChainBuilder :=
  { builder with added := builder.added ++ [strategy] }

/-- Add a strategy that is used only where the condition holds. -/
def stubWithWhen (builder : ChainBuilder) (strategy : Strategy) (condition : Matcher TypeExpr) :
    ChainBuilder :=
  builder.stubWith (.conditional strategy condition)

/-- Add several strategies, the last one with the highest precedence. -/
def stubWithAll (builder : ChainBuilder) (strategies : List Strategy) : ChainBuilder :=
  strategies.foldl stubWith builder

/-- Add several strategies that are used only where the condition holds. -/
def stubWithAllWhen (builder : ChainBuilder) (strategies : List Strategy)
    (condition : Matcher TypeExpr) : ChainBuilder :=
  strategies.foldl (fun builder strategy => builder.stubWithWhen strategy condition) builder

/-- The chain of everything that was collected. -/
def build (builder : ChainBuilder) : Step Chain := do
  return Chain.assemble builder.added builder.included (← builder.baseline.chain)

theorem stubWithAll_eq (builder : ChainBuilder) (strategies : List Strategy) :
    builder.stubWithAll strategies = { builder with added := builder.added ++ strategies } := by
  induction strategies generalizing builder with
  | nil => simp [stubWithAll]
  | cons strategy strategies ih =>
      have step := ih (builder.stubWith strategy)
      simpa [stubWithAll, stubWith] using step

/-- A condition for several strategies is the condition for each of them. -/
theorem stubWithAllWhen_eq (builder : ChainBuilder) (strategies : List Strategy)
    (condition : Matcher TypeExpr) :
    builder.stubWithAllWhen strategies condition =
      builder.stubWithAll (strategies.map fun strategy => .conditional strategy condition) := by
  rw [stubWithAll, List.foldl_map]
  rfl

end ChainBuilder
end TestData
