import Mathlib.Logic.Function.Iterate
import TestData.Chain.Basic
import TestData.Matcher.Site

namespace TestData

/-!
# Matchers at the ancestors of a site

A matcher can be asked at the parent of a site, and this any number of times over.  Asked so many
parents up it gives the verdict that it gives at this ancestor, with every probe that is passed
there, in the context of the same chain; where there are not so many ancestors it refuses.  Going up
may be done before or after two matchers are put together.  With the opposite of a matcher the order
counts at the roots: there is nobody to ask, and the opposite of that is no refusal.
-/

/-- What a matcher may look at besides the candidate: the chain that is asked, and the site. -/
structure Context where
  chain : Chain
  site : Site

namespace Context

/-- The same chain at another site. -/
def fork (context : Context) (site : Site) : Context where
  chain := context.chain
  site := site

/-- The same chain at the parent of the site, if there is one. -/
def parent? (context : Context) : Option Context :=
  context.site.parent?.map context.fork

end Context

namespace Matcher

variable {α : Type} {k : Nat}

/-- The verdict in a context, of a matcher that may be another one for another chain. -/
def judge (matcherIn : Chain → Matcher α) (context : Context) (candidate : α) : Verdict :=
  matcherIn context.chain context.site candidate

/-- At the parent means in the context of the parent. -/
theorem judge_parent (matcherIn : Chain → Matcher α) (context : Context) (candidate : α) :
    judge (fun chain => (matcherIn chain).parent) context candidate =
      match context.parent? with
      | some above => judge matcherIn above candidate
      | none => .of false := by
  rcases context with ⟨chain, site⟩
  cases site <;> rfl

/-- A number of parents up is in the context of the ancestor at that place of the walk. -/
theorem judge_parent_iterate (matcherIn : Chain → Matcher α) (context : Context) (candidate : α)
    (k : Nat) :
    judge (fun chain => parent^[k] (matcherIn chain)) context candidate =
      match context.site.walk[k]? with
      | some ancestor => judge matcherIn (context.fork ancestor) candidate
      | none => .of false := by
  induction k generalizing context with
  | zero =>
      rcases context with ⟨chain, site⟩
      cases site <;> rfl
  | succ k ih =>
      simp only [Function.iterate_succ_apply']
      rw [judge_parent fun chain => parent^[k] (matcherIn chain)]
      rcases context with ⟨chain, site⟩
      cases site with
      | root kind => rfl
      | child kind above => exact ih ⟨chain, above⟩

theorem parent_and (first second : Matcher α) :
    (first.and second).parent = first.parent.and second.parent := by
  funext site candidate
  cases site <;> rfl

theorem parent_or (first second : Matcher α) :
    (first.or second).parent = first.parent.or second.parent := by
  funext site candidate
  cases site <;> rfl

/-- The opposite of what a parent says is said if there is a parent, and only then. -/
theorem parent_negate_iff (matcher : Matcher α) (site : Site) (candidate : α) :
    matcher.negate.parent site candidate = matcher.parent.negate site candidate ↔
      site.parent?.isSome = true := by
  cases site with
  | root kind =>
      constructor
      · intro same
        exact absurd (congrArg Verdict.holds same) Bool.false_ne_true
      · nofun
  | child kind above => exact ⟨fun _ => rfl, fun _ => rfl⟩

/-- The places of a walk are those of the site and its proper ancestors. -/
theorem isSome_walk_getElem?_iff (site : Site) :
    site.walk[k]?.isSome = true ↔ k ≤ site.walk.tail.length := by
  rw [Option.isSome_iff_ne_none, Ne, List.getElem?_eq_none_iff, Nat.not_le]
  cases site with
  | root | child =>
      simp only [Site.walk_root, Site.walk_child, List.length_cons, List.tail_cons]
      exact Nat.lt_succ_iff

/--
A matcher that is asked a number of parents up gives its verdict in the context of the same chain at
that ancestor, and so it matches exactly if there are that many proper ancestors and it matches
there.  Asking at the parent may be exchanged with putting two matchers together, with the same
verdicts and the same probes; it may be exchanged with the opposite exactly at the sites that have a
parent, and at a root the opposite refuses as well when it is asked at the parent.
-/
theorem judged_at_ancestors (matcherIn otherIn : Chain → Matcher α) (context : Context)
    (candidate : α) :
    (∀ k, judge (fun chain => parent^[k] (matcherIn chain)) context candidate =
      match context.site.walk[k]? with
      | some ancestor => judge matcherIn (context.fork ancestor) candidate
      | none => .of false) ∧
    (∀ k, (judge (fun chain => parent^[k] (matcherIn chain)) context candidate).holds = true ↔
      k ≤ context.site.walk.tail.length ∧ ∃ ancestor, context.site.walk[k]? = some ancestor ∧
        (judge matcherIn (context.fork ancestor) candidate).holds = true) ∧
    judge (fun chain => ((matcherIn chain).and (otherIn chain)).parent) context candidate =
      judge (fun chain => (matcherIn chain).parent.and (otherIn chain).parent) context candidate ∧
    judge (fun chain => ((matcherIn chain).or (otherIn chain)).parent) context candidate =
      judge (fun chain => (matcherIn chain).parent.or (otherIn chain).parent) context candidate ∧
    (judge (fun chain => (matcherIn chain).negate.parent) context candidate =
        judge (fun chain => (matcherIn chain).parent.negate) context candidate ↔
      context.parent?.isSome = true) ∧
    (context.parent? = none →
      judge (fun chain => (matcherIn chain).negate.parent) context candidate = .of false) := by
  have above := judge_parent_iterate matcherIn context candidate
  refine ⟨above, ?answer, ?and, ?or, ?negate, ?root⟩
  case answer =>
    intro k
    rw [above, ← isSome_walk_getElem?_iff]
    cases context.site.walk[k]? with
    | none => exact ⟨nofun, nofun⟩
    | some ancestor =>
        constructor
        · intro holds
          exact ⟨rfl, ancestor, rfl, holds⟩
        · rintro ⟨-, _, same, holds⟩
          cases same
          exact holds
  case and => simp only [parent_and]
  case or => simp only [parent_or]
  case negate =>
    rw [Context.parent?, Option.isSome_map]
    exact parent_negate_iff (matcherIn context.chain) context.site candidate
  case root =>
    intro none
    rw [judge_parent fun chain => (matcherIn chain).negate, none]

end Matcher
end TestData
