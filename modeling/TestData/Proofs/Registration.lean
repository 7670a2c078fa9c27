import TestData.Proofs.Transparency

namespace TestData

/-!
# Strategies that are registered for a type

Constants, suppliers and implementations are registered for one type.  Of a request the wildcards in
front are replaced by their bounds before the two are compared; the registered type is compared as
it is.  A type without a wildcard in front is therefore served for itself and for all wildcards
that come down to it, and a wildcard is registered in vain: no request comes down to it, not even
the one for the very same type.
-/

namespace TypeExpr

variable {type front a b request registered : TypeExpr}

theorem isWildcard_iff_key :
    type.isWildcard = true ↔ ∃ upper lower, type.key = .wildcard upper lower := by
  cases type with
  | wildcard upper lower => exact ⟨fun _ => ⟨_, _, rfl⟩, fun _ => rfl⟩
  | plain | parameterized | var | genericArray => exact ⟨nofun, nofun⟩

theorem isWildcard_eq_of_beq (same : (a == b) = true) : a.isWildcard = b.isWildcard := by
  apply Bool.eq_iff_iff.mpr
  rw [isWildcard_iff_key, isWildcard_iff_key, beq_iff_key_eq.mp same]

theorem beq_refl (type : TypeExpr) : (type == type) = true :=
  beq_iff_key_eq.mpr rfl

/-- Two types are equal as they stand, or with the wildcards in front replaced by their bounds. -/
def EqualInFront (a b : TypeExpr) : Prop :=
  (a == b) = true ∨ ∃ c d, a.unwrap = some c ∧ b.unwrap = some d ∧ (c == d) = true

theorem unwrapsTo_iff_exists :
    request.unwrapsTo registered = true ↔
      ∃ front, request.unwrap = some front ∧ (front == registered) = true := by
  unfold unwrapsTo
  cases request.unwrap with
  | none => exact ⟨nofun, nofun⟩
  | some front =>
      constructor
      · intro same
        exact ⟨front, rfl, same⟩
      · rintro ⟨found, unwraps, same⟩
        cases unwraps
        exact same

/-- A request comes down to a type if the two are equal in front and the type is no wildcard. -/
theorem unwrapsTo_iff :
    request.unwrapsTo registered = true ↔
      registered.isWildcard = false ∧ request.EqualInFront registered := by
  rw [unwrapsTo_iff_exists]
  constructor
  · rintro ⟨front, unwraps, same⟩
    have plain : registered.isWildcard = false :=
      (isWildcard_eq_of_beq same).symm.trans (isWildcard_of_unwrap unwraps)
    exact ⟨plain, .inr ⟨front, registered, unwraps, unwrap_of_not_wildcard plain, same⟩⟩
  · rintro ⟨plain, same | ⟨front, other, unwraps, itself, same⟩⟩
    · -- A request that equals the type as it stands is no wildcard either.
      have unwraps := unwrap_of_not_wildcard ((isWildcard_eq_of_beq same).trans plain)
      exact ⟨request, unwraps, same⟩
    · rw [unwrap_of_not_wildcard plain] at itself
      cases itself
      exact ⟨front, unwraps, same⟩

end TypeExpr

namespace Strategy

variable {s : Strategy} {registered : TypeExpr} {serve : Host → Site → Run Value}

/-- A strategy that is registered for a type, and what it is to do about requests for the type. -/
inductive RegisteredFor (registered : TypeExpr) : Strategy → (Host → Site → Run Value) → Prop where
  | constant (value : Value) :
      RegisteredFor registered (.constant registered value) fun _ _ => return value
  | supplied (cell : Cell) (supplier : Site → UInt64 → Action) :
      RegisteredFor registered (.supplied cell registered supplier) fun host site => do
        (supplier site (← Store.nextNumber cell)).run host
  | implementation (substitute : TypeExpr) :
      RegisteredFor registered (.implementation registered substitute) fun host site =>
        host.request ⟨substitute, site⟩

theorem RegisteredFor.accepts_eq (entry : RegisteredFor registered s serve) (site : Site)
    (request : TypeExpr) :
    s.accepts site request = pure (request.unwrapsTo registered) := by
  cases entry <;> rfl

/-- What is accepted is served, and anything else is given up. -/
theorem RegisteredFor.produce_eq (entry : RegisteredFor registered s serve) (host : Host)
    (site : Site) (request : TypeExpr) :
    s.produce host site request =
      if request.unwrapsTo registered then serve host site else giveUp site request := by
  cases entry <;> rfl

/--
A strategy that is registered for a type accepts the requests that are equal to the type in front,
and gives them what it was registered with, if the type is no wildcard.  A wildcard is registered
in vain.  So the type itself is served if and only if it is no wildcard.
-/
theorem registered_served_iff (entry : RegisteredFor registered s serve) :
    (∀ site request store, (s.accepts site request store).1 = true ↔
      registered.isWildcard = false ∧ request.EqualInFront registered) ∧
    (∀ site store, (s.accepts site registered store).1 = true ↔ registered.isWildcard = false) ∧
    ((∀ site request store, (s.accepts site request store).1 = true ↔
      request.EqualInFront registered) ↔ registered.isWildcard = false) ∧
    ∀ host site request store, s.produce host site request store =
      if (s.accepts site request store).1 then serve host site store
      else .error (.error (.unresolvable request site)) store := by
  have accepted : ∀ site request store, (s.accepts site request store).1 = true ↔
      registered.isWildcard = false ∧ request.EqualInFront registered := by
    intro site request store
    rw [entry.accepts_eq]
    exact TypeExpr.unwrapsTo_iff
  have itself : registered.EqualInFront registered := .inl registered.beq_refl
  refine ⟨accepted, ?itself, ?asRegistered, ?served⟩
  case itself =>
    intro site store
    exact (accepted site registered store).trans (and_iff_left itself)
  case asRegistered =>
    constructor
    · intro all
      have served := (all .unknown registered {}).mpr itself
      exact ((accepted .unknown registered {}).mp served).1
    · intro plain site request store
      exact (accepted site request store).trans (and_iff_right plain)
  case served =>
    intro host site request store
    rw [entry.produce_eq, entry.accepts_eq]
    exact apply_ite (fun run : Run Value => run store) _ _ _

/-- A letter is served for a wildcard; what is registered for the wildcard is never served. -/
theorem letters_served_and_wildcard_refused :
    let letter : TypeExpr := .plain (.named "Letter")
    let anyLetter : TypeExpr := .extending letter
    let dear : Value := .object 0 (.text "Dear")
    let host := (Chain.mk []).host
    ((constant letter dear).accepts .unknown anyLetter {}).1 = true ∧
    (constant letter dear).produce host .unknown anyLetter {} = .ok dear {} ∧
    anyLetter.EqualInFront anyLetter ∧
    ((constant anyLetter dear).accepts .unknown anyLetter {}).1 = false ∧
    (constant anyLetter dear).produce host .unknown anyLetter {} =
      .error (.error (.unresolvable anyLetter .unknown)) {} := by
  intro letter anyLetter dear host
  rcases registered_served_iff (RegisteredFor.constant dear : RegisteredFor letter _ _) with
    ⟨accepted, -, -, served⟩
  rcases registered_served_iff (RegisteredFor.constant dear : RegisteredFor anyLetter _ _) with
    ⟨-, itself, -, refused⟩
  have equal : anyLetter.EqualInFront letter := .inr ⟨letter, letter, rfl, rfl, letter.beq_refl⟩
  have accepts := (accepted .unknown anyLetter {}).mpr ⟨rfl, equal⟩
  have declines : ((constant anyLetter dear).accepts .unknown anyLetter {}).1 = false :=
    Bool.eq_false_iff.mpr fun accepts => nomatch (itself .unknown {}).mp accepts
  refine ⟨accepts, ?_, .inl anyLetter.beq_refl, declines, ?_⟩
  · rw [served, if_pos accepts]
    rfl
  · rw [refused, if_neg (Bool.eq_false_iff.mp declines)]

end Strategy
end TestData
