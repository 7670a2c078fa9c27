import TestData.Chain.Basic

namespace TestData
namespace Chain

/-!
# Putting chains together

A chain is assembled from strategies added one by one, from included chains and
from a baseline.  Of the added strategies the latest comes first, then come the
included chains, the latest first but each in its own order, and last the baseline.
-/

/-- The chain of added strategies, included chains and a baseline. -/
def assemble (added : List Strategy) (included : List Chain) (baseline : Chain) : Chain where
  strategies :=
    added.reverse ++ included.reverse.flatMap Chain.strategies ++ baseline.strategies

/-- The chain without strategies, which accepts nothing. -/
def empty : Chain where
  strategies := []

end Chain
end TestData
