import TestData.Proofs.Composition

namespace TestData

/-!
# More depth keeps what is given

The depth only keeps nested requests and walks over types from going on forever.  What
a request is given within some depth it is given within every greater one, with the same
store left behind.  Nothing that is given depends on the trace, so it may be another one.
-/

namespace Store.Retraced

theorem refl (store : Store) : store.Retraced store :=
  ⟨store.trace, rfl⟩

theorem trans {store between other : Store} (first : store.Retraced between)
    (second : between.Retraced other) : store.Retraced other := by
  rcases first with ⟨early, rfl⟩
  rcases second with ⟨late, rfl⟩
  exact ⟨late, rfl⟩

theorem symm {store other : Store} (retraced : store.Retraced other) : other.Retraced store := by
  rcases retraced with ⟨trace, rfl⟩
  exact ⟨store.trace, rfl⟩

end Store.Retraced

namespace Run

variable {α β : Type} {computation between other : Run α}

/-- Whatever the computation gives, the other one gives too. -/
def Yields (computation other : Run α) : Prop :=
  ∀ store result after, computation store = .ok result after → other store = .ok result after

/--
Whatever the computation gives, the other one gives too, and it leaves the same behind;
what was traced before and what is traced then may differ.
-/
def GivenBy (computation other : Run α) : Prop :=
  ∀ store retraced result after, store.Retraced retraced → computation store = .ok result after →
    ∃ last, other retraced = .ok result last ∧ after.Retraced last

theorem Yields.refl (computation : Run α) : computation.Yields computation :=
  fun _ _ _ given => given

theorem yields_of_fail (cause : StubError) : (Run.fail cause : Run α).Yields other :=
  fun _ _ _ given => nomatch given

theorem Yields.ite {condition : Prop} [Decidable condition] {second alternative : Run α}
    (holds : computation.Yields other) (fails : second.Yields alternative) :
    (if condition then computation else second).Yields
      (if condition then other else alternative) := by
  split
  · exact holds
  · exact fails

theorem Yields.after {next later : α → Run β} (computation : Run α)
    (goesOn : ∀ result, (next result).Yields (later result)) :
    (computation >>= next).Yields (computation >>= later) := by
  intro store result after given
  cases begun : computation store with
  | error failure last =>
      rw [Run.bind_of_error begun] at given
      cases given
  | ok middle mid =>
      rw [Run.bind_of_ok begun] at given ⊢
      exact goesOn middle mid result after given

theorem Yields.givenBy (yields : computation.Yields between) (given : between.GivenBy other) :
    computation.GivenBy other :=
  fun store retraced result after same outcome =>
    given store retraced result after same (yields store result after outcome)

theorem GivenBy.bind {next later : α → Run β} (first : computation.GivenBy other)
    (second : ∀ result, (next result).GivenBy (later result)) :
    (computation >>= next).GivenBy (other >>= later) := by
  intro store retraced result after same given
  cases begun : computation store with
  | error failure last =>
      rw [Run.bind_of_error begun] at given
      cases given
  | ok middle mid =>
      rw [Run.bind_of_ok begun] at given
      obtain ⟨reached, here, there⟩ := first store retraced middle mid same begun
      rw [Run.bind_of_ok here]
      exact second middle mid reached result after there given

theorem givenBy_ofStep {step : Step α} (blind : step.Blind) :
    (Run.ofStep step).GivenBy (Run.ofStep step) := by
  rintro store retraced result after same ⟨⟩
  rcases blind store retraced same with ⟨alike, left⟩
  exact ⟨_, by rw [Run.ofStep_apply, alike], left⟩

theorem givenBy_ofBounded_bind {bounded greater : Bounded α} {next later : α → Run β}
    (goesOn : ∀ result, bounded = .ok result →
      ∃ found, greater = .ok found ∧ (next result).GivenBy (later found)) :
    (Run.ofBounded bounded >>= next).GivenBy (Run.ofBounded greater >>= later) := by
  cases bounded with
  | error exhausted => exact fun _ _ _ _ _ given => nomatch given
  | ok made =>
      obtain ⟨found, given, follows⟩ := goesOn made rfl
      rw [given]
      exact follows

theorem givenBy_ofBounded {bounded greater : Bounded α}
    (keeps : ∀ result, bounded = .ok result → greater = .ok result) :
    (Run.ofBounded bounded).GivenBy (Run.ofBounded greater) := by
  intro store retraced result after same given
  cases bounded with
  | error exhausted => cases given
  | ok made =>
      cases given
      rw [keeps result rfl]
      exact ⟨retraced, rfl, same⟩

end Run

namespace Host

/-- The other host is that of a chain of the same length; it goes deeper and answers no less. -/
structure ExtendedBy (host other : Host) : Prop where
  length : other.length = host.length
  depth : host.depth ≤ other.depth
  resolve (wanted : Request) : (host.resolve wanted).GivenBy (other.resolve wanted)

theorem ExtendedBy.request {host other : Host} (extended : host.ExtendedBy other)
    (wanted : Request) : (host.request wanted).GivenBy (other.request wanted) := by
  refine (extended.resolve wanted).bind fun answer => ?_
  cases answer with
  | some value => exact Run.givenBy_ofStep (.pure value)
  | none => exact fun _ _ _ _ _ given => nomatch given

end Host

/-- Piece by piece, what is given with one host is given with every host that extends it. -/
theorem Composed.givenBy {origin : Site} {α : Type} {computation : Host → Run α}
    (composed : Composed origin computation) {host other : Host}
    (extended : host.ExtendedBy other) : (computation host).GivenBy (computation other) := by
  induction composed with
  | step blind =>
      dsimp only
      rw [extended.length]
      exact Run.givenBy_ofStep (blind host.length)
  | bounded steady =>
      exact Run.givenBy_ofBounded fun result given =>
        steady host.depth other.depth result extended.depth given
  | fail here => exact fun _ _ _ _ _ given => nomatch given
  | resolve here => exact extended.resolve _
  | request here => exact extended.request _
  | bind begins goesOn ihFirst ihNext => exact ihFirst.bind ihNext

namespace Chain

/-- By induction on the depth: the hosts behind the chain extend each other. -/
theorem hostWithin_extendedBy {chain : Chain} (own : chain.Local) {depth deeper : Nat}
    (within : depth ≤ deeper) : (chain.hostWithin depth).ExtendedBy (chain.hostWithin deeper) := by
  induction depth generalizing deeper with
  | zero => exact ⟨rfl, within, fun _ _ _ _ _ _ given => nomatch given⟩
  | succ depth ih =>
      obtain ⟨deeper, rfl⟩ : ∃ less, deeper = less + 1 := ⟨deeper - 1, by omega⟩
      refine ⟨rfl, within, fun wanted => ?_⟩
      exact (Composed.resolveFor own wanted).givenBy (ih (Nat.le_of_succ_le_succ within))

/-- Within some depth the request is given the value; the store left behind is this one but for the trace. -/
def Gives (chain : Chain) (store : Store) (wanted : Request) (value : Value) (left : Store) :
    Prop :=
  ∃ depth after, (chain.hostWithin depth).request wanted store = .ok value after ∧
    after.Retraced left

/-- Whatever the depth, a request is given but one value. -/
theorem Gives.unique {chain : Chain} (own : chain.Local) {store left last : Store}
    {wanted : Request} {value other : Value} (given : chain.Gives store wanted value left)
    (again : chain.Gives store wanted other last) : other = value ∧ left.Retraced last := by
  obtain ⟨depth, after, outcome, retraced⟩ := given
  obtain ⟨deeper, afterwards, outcomeAgain, retracedAgain⟩ := again
  have shallow := hostWithin_extendedBy own (Nat.le_max_left depth deeper)
  have deep := hostWithin_extendedBy own (Nat.le_max_right depth deeper)
  obtain ⟨reached, first, same⟩ := shallow.request wanted store store value after (.refl _) outcome
  obtain ⟨found, second, sameAgain⟩ :=
    deep.request wanted store store other afterwards (.refl _) outcomeAgain
  cases first.symm.trans second
  exact ⟨rfl, retraced.symm.trans (same.trans (sameAgain.symm.trans retracedAgain))⟩

end Chain
end TestData
