import TestData.Site.Basic

namespace TestData

/-!
# Matchers

A matcher judges a candidate in the context of a site.  Its verdict also tells
which probes were passed on the way, in order; a probe is a matcher that exists to
be seen.  Combinators judge from the left and stop as soon as the answer is known,
so the probes of a matcher that was not needed are not in the verdict.
-/

/-- The answer of a matcher and the names of the probes that were passed. -/
structure Verdict where
  holds : Bool
  probes : List String := []
  deriving DecidableEq, Repr, Inhabited

namespace Verdict

/-- An answer that took no probe. -/
def of (holds : Bool) : Verdict where
  holds := holds

/-- The same probes with the opposite answer. -/
def negate (verdict : Verdict) : Verdict :=
  { verdict with holds := !verdict.holds }

/-- Go on to a second verdict only if the first one holds. -/
def andThen (first : Verdict) (second : Unit → Verdict) : Verdict :=
  if first.holds then
    let second := second ()
    ⟨second.holds, first.probes ++ second.probes⟩
  else first

/-- Go on to a second verdict only if the first one does not hold. -/
def orElse (first : Verdict) (second : Unit → Verdict) : Verdict :=
  if first.holds then first
  else
    let second := second ()
    ⟨second.holds, first.probes ++ second.probes⟩

@[simp]
theorem holds_of (answer : Bool) : (of answer).holds = answer := rfl

@[simp]
theorem holds_negate (verdict : Verdict) : verdict.negate.holds = !verdict.holds := rfl

@[simp]
theorem holds_andThen (first : Verdict) (second : Unit → Verdict) :
    (first.andThen second).holds = (first.holds && (second ()).holds) := by
  unfold andThen
  split <;> simp_all

@[simp]
theorem holds_orElse (first : Verdict) (second : Unit → Verdict) :
    (first.orElse second).holds = (first.holds || (second ()).holds) := by
  unfold orElse
  split <;> simp_all

end Verdict

/-- A judgement of candidates in the context of a site. -/
def Matcher (α : Type) : Type :=
  Site → α → Verdict

namespace Matcher

variable {α β : Type}

/-- The matcher of a plain predicate. -/
def ofPredicate (predicate : α → Bool) : Matcher α :=
  fun _ candidate => .of (predicate candidate)

/-- Matches everything. -/
def any : Matcher α :=
  ofPredicate fun _ => true

/-- Matches what the given matcher does not. -/
def negate (matcher : Matcher α) : Matcher α :=
  fun site candidate => (matcher site candidate).negate

/-- Matches what both matchers do; the second is asked only if the first matches. -/
def and (first second : Matcher α) : Matcher α :=
  fun site candidate => (first site candidate).andThen fun _ => second site candidate

/-- Matches what either matcher does; the second is asked only if the first does not match. -/
def or (first second : Matcher α) : Matcher α :=
  fun site candidate => (first site candidate).orElse fun _ => second site candidate

/-- Always gives the same answer and leaves its name in the verdict. -/
def probe (name : String) (answer : Bool) : Matcher α :=
  fun _ _ => ⟨answer, [name]⟩

/-- Judges what a function makes of the candidate. -/
def mapped (view : α → β) (matcher : Matcher β) : Matcher α :=
  fun site candidate => matcher site (view candidate)

/-- Judges what a function makes of the candidate, and refuses if it makes nothing. -/
def narrowed (view : α → Option β) (matcher : Matcher β) : Matcher α :=
  fun site candidate =>
    match view candidate with
    | some narrow => matcher site narrow
    | none => .of false

/-- Matches what is equal to the expected candidate. -/
def equalTo [BEq α] (expected : α) : Matcher α :=
  ofPredicate fun candidate => candidate == expected

end Matcher
end TestData
