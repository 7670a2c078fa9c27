import TestData.Type.Bindings

namespace TestData

/-!
# More depth keeps the result

Walks over types are given a depth, and running out of it is their only failure.  What
such a walk gives within some depth it gives within every greater one; and a walk that
ends gives one and the same result from some depth on.
-/

/-- What the computation gives within a depth it gives within every greater one. -/
def Steady {α : Type} (computation : Nat → Bounded α) : Prop :=
  ∀ depth deeper result, depth ≤ deeper →
    computation depth = .ok result → computation deeper = .ok result

namespace Steady

variable {α β : Type}

theorem const (bounded : Bounded α) : Steady fun _ => bounded :=
  fun _ _ _ _ given => given

theorem bind {first : Nat → Bounded α} {next : Nat → α → Bounded β} (begins : Steady first)
    (goesOn : ∀ result, Steady fun depth => next depth result) :
    Steady fun depth => first depth >>= next depth := by
  intro depth deeper result within given
  rcases Bounded.of_bind_eq_ok given with ⟨between, begun, given⟩
  dsimp only
  rw [begins depth deeper between within begun]
  exact goesOn between depth deeper result within given

end Steady

/-! ## Results from some depth on -/

/-- From some depth on the computation gives the result. -/
def Eventually {α : Type} (computation : Nat → Bounded α) (result : α) : Prop :=
  ∃ enough, ∀ depth, enough ≤ depth → computation depth = .ok result

namespace Eventually

variable {α β : Type}

theorem const (result : α) : Eventually (fun _ => .ok result) result :=
  ⟨0, fun _ _ => rfl⟩

theorem bind {first : Nat → Bounded α} {next : Nat → α → Bounded β} {between : α} {result : β}
    (begins : Eventually first between)
    (goesOn : Eventually (fun depth => next depth between) result) :
    Eventually (fun depth => first depth >>= next depth) result := by
  rcases begins with ⟨enough, begins⟩
  rcases goesOn with ⟨more, goesOn⟩
  refine ⟨max enough more, fun depth deep => ?_⟩
  have begun := begins depth (Nat.le_trans (Nat.le_max_left _ _) deep)
  have gone := goesOn depth (Nat.le_trans (Nat.le_max_right _ _) deep)
  dsimp only
  rw [begun]
  exact gone

/-- A computation that does something one level deeper. -/
theorem deeper {computation inner : Nat → Bounded α} {result : α}
    (unfolds : ∀ depth, computation (depth + 1) = inner depth) (given : Eventually inner result) :
    Eventually computation result := by
  rcases given with ⟨enough, given⟩
  refine ⟨enough + 1, fun depth deep => ?_⟩
  cases depth with
  | zero => omega
  | succ depth =>
      rw [unfolds]
      exact given depth (by omega)

/-- There is one result at most. -/
theorem unique {computation : Nat → Bounded α} {first second : α}
    (one : Eventually computation first) (other : Eventually computation second) :
    first = second := by
  rcases one with ⟨enough, one⟩
  rcases other with ⟨more, other⟩
  have found := one (max enough more) (Nat.le_max_left _ _)
  rw [other (max enough more) (Nat.le_max_right _ _)] at found
  exact (Except.ok.inj found).symm

end Eventually

/-! ## Walks over types -/

namespace Bindings

/-- A walk along a list gives what it gave if each of its steps does. -/
theorem foldlM_eq_ok {α β : Type} {step other : β → α → Bounded β}
    (keeps : ∀ start item result, step start item = .ok result → other start item = .ok result)
    {items : List α} {start result : β} (given : items.foldlM step start = .ok result) :
    items.foldlM other start = .ok result := by
  induction items generalizing start with
  | nil => exact given
  | cons item rest ih =>
      rw [List.foldlM_cons] at given ⊢
      rcases Bounded.of_bind_eq_ok given with ⟨between, first, given⟩
      rw [keeps start item between first]
      exact ih given

theorem steady_collect (type : TypeExpr) (bindings : Bindings) :
    Steady fun depth => collect depth type bindings := by
  intro depth
  induction depth generalizing type bindings with
  | zero =>
      intro deeper result within given
      cases given
  | succ depth ih =>
      intro deeper result within given
      obtain ⟨deeper, rfl⟩ : ∃ less, deeper = less + 1 := ⟨deeper - 1, by omega⟩
      have below : depth ≤ deeper := Nat.le_of_succ_le_succ within
      have above : ∀ (c : Class) (bindings : Bindings),
          c.supertypes.foldlM (fun b t => collect depth (b.resolve t) b) bindings = .ok result →
          c.supertypes.foldlM (fun b t => collect deeper (b.resolve t) b) bindings = .ok result :=
        fun c bindings => foldlM_eq_ok fun start item between =>
          ih (start.resolve item) start deeper between below
      cases type with
      | plain c => exact above c bindings given
      | parameterized raw arguments => exact above raw _ given
      | wildcard upper lower =>
          dsimp only [collect] at given ⊢
          cases bound : TypeExpr.bound? upper lower with
          | none =>
              rw [bound] at given
              exact given
          | some front =>
              rw [bound] at given
              exact ih front bindings deeper result below given
      | var symbol bounds => exact given
      | genericArray component => exact given

theorem steady_ofType (type : TypeExpr) : Steady fun depth => ofType depth type :=
  steady_collect type empty

end Bindings

theorem TypeExpr.steady_asSupertype (type : TypeExpr) (target : Class) :
    Steady fun depth => type.asSupertype depth target := by
  unfold asSupertype
  cases type.rawType with
  | none => exact .const _
  | some raw =>
      dsimp only
      split
      · exact .const _
      · split
        · exact .const _
        · split
          · exact .const _
          · exact (Bindings.steady_ofType type).bind fun bindings => .const _

namespace Bindings

mutual

theorem steady_unify (formal actual : TypeExpr) (bindings : Bindings) :
    Steady fun depth => unify depth formal actual bindings := by
  cases formal with
  | plain c => exact .const _
  | var symbol bounds => exact .const _
  | parameterized raw formals =>
      unfold unify
      refine (actual.steady_asSupertype raw).bind fun view => ?_
      split
      · exact steady_unifyAll formals _ bindings
      · exact .const _
  | wildcard upper lower =>
      cases actual with
      | wildcard upperActuals lowerActuals =>
          unfold unify
          exact (steady_unifyAll upper upperActuals bindings).bind
            fun between => steady_unifyAll lower lowerActuals between
      | plain | parameterized | var | genericArray => exact .const _
  | genericArray component =>
      cases actual with
      | genericArray actual => exact steady_unify component actual bindings
      | plain c =>
          unfold unify
          cases c.component? with
          | none => exact .const _
          | some actual => exact steady_unify component (.plain actual) bindings
      | parameterized | var | wildcard => exact .const _

theorem steady_unifyAll (formals actuals : List TypeExpr) (bindings : Bindings) :
    Steady fun depth => unifyAll depth formals actuals bindings := by
  cases formals with
  | nil => exact .const _
  | cons formal formals =>
      cases actuals with
      | nil => exact .const _
      | cons actual actuals =>
          unfold unifyAll
          exact (steady_unify formal actual bindings).bind
            fun between => steady_unifyAll formals actuals between

end

theorem steady_bind (bindings : Bindings) (formal actual : TypeExpr) :
    Steady fun depth => bindings.bind depth formal actual :=
  steady_unify formal actual bindings

end Bindings
end TestData
