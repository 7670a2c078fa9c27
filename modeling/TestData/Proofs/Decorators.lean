import Mathlib.Data.List.Forall2
import TestData.Chain.Basic

namespace TestData

/-!
# Stacks of decorators

A strategy can be decorated in three ways: a gate restricts what it accepts, an enhancer works on
what it makes, a memory hands out again what it has made.  Only gates take part in accepting, and
only the other two in making, so in a stack of decorators it does not matter where the gates stand
among the others.  All of them together are one gate, that is asked when the strategy itself has
accepted the request.
-/

/-- What can be put around a strategy. -/
inductive Decorator where
  | gate (condition : Matcher TypeExpr)
  | enhance (enhancer : Enhancer)
  | memo (cell : Cell) (discriminator : Discriminator)

namespace Decorator

/-- A strategy with a decorator around it. -/
def wrap (inner : Strategy) : Decorator → Strategy
  | .gate condition => .conditional inner condition
  | .enhance enhancer => .enhancing inner enhancer
  | .memo cell discriminator => .memoizing cell inner discriminator

def condition? : Decorator → Option (Matcher TypeExpr)
  | .gate condition => some condition
  | _ => none

def enhancer? : Decorator → Option Enhancer
  | .enhance enhancer => some enhancer
  | _ => none

def isMemo : Decorator → Bool
  | .memo .. => true
  | _ => false

/-- The conditions of the gates, in the order in which they were put around. -/
def gates (stack : List Decorator) : List (Matcher TypeExpr) :=
  stack.filterMap condition?

/-- The enhancers, in the order in which they were put around. -/
def enhancers (stack : List Decorator) : List Enhancer :=
  stack.filterMap enhancer?

/-- The stack without its gates. -/
def ungated (stack : List Decorator) : List Decorator :=
  stack.filter fun d => d.condition?.isNone

variable {d : Decorator}

@[simp]
theorem gates_append (front rest : List Decorator) :
    gates (front ++ rest) = gates front ++ gates rest :=
  List.filterMap_append

@[simp]
theorem ungated_append (front rest : List Decorator) :
    ungated (front ++ rest) = ungated front ++ ungated rest :=
  List.filter_append front rest

@[simp]
theorem gates_cons_gate (condition : Matcher TypeExpr) (rest : List Decorator) :
    gates (.gate condition :: rest) = condition :: gates rest := rfl

@[simp]
theorem ungated_cons_gate (condition : Matcher TypeExpr) (rest : List Decorator) :
    ungated (.gate condition :: rest) = ungated rest := rfl

theorem gates_cons_other (noGate : d.condition? = none) (rest : List Decorator) :
    gates (d :: rest) = gates rest :=
  List.filterMap_cons_none noGate

theorem ungated_cons_other (noGate : d.condition? = none) (rest : List Decorator) :
    ungated (d :: rest) = d :: ungated rest :=
  List.filter_cons_of_pos (Option.isNone_iff_eq_none.mpr noGate)

@[simp]
theorem gates_ungated (stack : List Decorator) : gates (ungated stack) = [] := by
  simp [gates, ungated]

@[simp]
theorem ungated_ungated (stack : List Decorator) : ungated (ungated stack) = ungated stack := by
  simp [ungated]

end Decorator

open Decorator

/-! ## Asking one condition after the other -/

namespace Step

/-- Go on to the second step only if the first one says yes. -/
def andAlso (first second : Step Bool) : Step Bool := do
  if ← first then second else return false

theorem true_andAlso (second : Step Bool) : (pure true : Step Bool).andAlso second = second := rfl

theorem andAlso_true (first : Step Bool) : first.andAlso (pure true) = first := by
  have same : (fun answer : Bool => if answer then (pure true : Step Bool) else pure false) =
      pure := by
    funext answer
    cases answer <;> rfl
  unfold andAlso
  rw [same, bind_pure]

theorem andAlso_assoc (first second third : Step Bool) :
    (first.andAlso second).andAlso third = first.andAlso (second.andAlso third) := by
  unfold andAlso
  rw [bind_assoc]
  congr
  funext answer
  cases answer <;> rfl

/-- Both say yes, if they do so from whatever store. -/
theorem andAlso_fst {second : Step Bool} {answer : Bool}
    (fixed : ∀ store, (second store).1 = answer) (first : Step Bool) (store : Store) :
    (first.andAlso second store).1 = ((first store).1 && answer) := by
  simp only [andAlso, bind, StateT.bind]
  rcases first store with ⟨_ | _, asked⟩
  · rfl
  · exact fixed asked

end Step

namespace Matcher

variable {α : Type}

/-- Ask matchers one after the other until one of them refuses. -/
def askInTurn (site : Site) (candidate : α) : List (Matcher α) → Step Bool
  | [] => return true
  | first :: rest => (Store.heed (first site candidate)).andAlso (askInTurn site candidate rest)

/-- Matches what all the matchers do; each is asked only if those before it match. -/
def all (matchers : List (Matcher α)) : Matcher α :=
  matchers.foldr Matcher.and Matcher.any

theorem holds_all (site : Site) (candidate : α) (matchers : List (Matcher α)) :
    (all matchers site candidate).holds = matchers.all fun m => (m site candidate).holds := by
  induction matchers with
  | nil => rfl
  | cons first rest ih =>
      show ((first.and (all rest)) site candidate).holds = _
      rw [Matcher.and, Verdict.holds_andThen, ih, List.all_cons]

/-- To heed two matchers as one is to heed the second one if the first one matches. -/
theorem heed_and (first second : Matcher α) (site : Site) (candidate : α) :
    Store.heed (first.and second site candidate) =
      (Store.heed (first site candidate)).andAlso (Store.heed (second site candidate)) := by
  funext store
  cases holds : (first site candidate).holds with
  | true =>
      simp only [Step.andAlso, bind, StateT.bind, Store.heed, Matcher.and, Verdict.andThen, holds,
        if_true, List.map_append, List.reverse_append, List.append_assoc]
  | false =>
      simp only [Step.andAlso, bind, StateT.bind, Store.heed, Matcher.and, Verdict.andThen, holds,
        Bool.false_eq_true, if_false]
      rfl

/-- All matchers as one are heeded as they are asked one after the other. -/
theorem heed_all (site : Site) (candidate : α) (matchers : List (Matcher α)) :
    Store.heed (all matchers site candidate) = askInTurn site candidate matchers := by
  induction matchers with
  | nil => rfl
  | cons first rest ih =>
      show Store.heed (first.and (all rest) site candidate) = _
      rw [heed_and, ih, askInTurn]

theorem askInTurn_fst (site : Site) (candidate : α) (matchers : List (Matcher α))
    (store : Store) :
    (askInTurn site candidate matchers store).1 =
      matchers.all fun m => (m site candidate).holds := by
  rw [← heed_all, ← holds_all]
  rfl

theorem askInTurn_append (site : Site) (candidate : α) (front rest : List (Matcher α)) :
    askInTurn site candidate (front ++ rest) =
      (askInTurn site candidate front).andAlso (askInTurn site candidate rest) := by
  induction front with
  | nil => exact (Step.true_andAlso _).symm
  | cons first front ih => rw [List.cons_append, askInTurn, askInTurn, ih, Step.andAlso_assoc]

/-- Two matchers that are asked one after the other may as well be asked as one. -/
theorem askInTurn_and (site : Site) (candidate : α) (first second : Matcher α)
    (rest : List (Matcher α)) :
    askInTurn site candidate (first.and second :: rest) =
      askInTurn site candidate (first :: second :: rest) := by
  simp only [askInTurn, heed_and, Step.andAlso_assoc]

end Matcher

/-- Going through a list with a computation fails if some step does when those before it succeed. -/
theorem Run.foldlM_error_iff {α ι : Type} {next : α → ι → Run α} {items : List ι} {start : α}
    {store after : Store} {failure : Failure} :
    items.foldlM next start store = .error failure after ↔
      ∃ earlier item later result between, items = earlier ++ item :: later ∧
        earlier.foldlM next start store = .ok result between ∧
        next result item between = .error failure after := by
  induction items generalizing start store with
  | nil =>
      constructor
      · intro outcome
        cases outcome
      · rintro ⟨earlier, item, later, result, between, split, -, -⟩
        cases earlier <;> cases split
  | cons first rest ih =>
      rw [List.foldlM_cons]
      cases here : next start first store with
      | error cause stopped =>
          rw [Run.bind_of_error here]
          constructor
          · intro same
            cases same
            exact ⟨[], first, rest, start, store, rfl, rfl, here⟩
          · rintro ⟨earlier, item, later, result, between, split, given, failed⟩
            cases earlier with
            | nil =>
                cases split
                cases given
                exact here.symm.trans failed
            | cons head earlier =>
                cases split
                rw [List.foldlM_cons, Run.bind_of_error here] at given
                cases given
      | ok value middle =>
          rw [Run.bind_of_ok here, ih]
          constructor
          · rintro ⟨earlier, item, later, result, between, rfl, given, failed⟩
            refine ⟨first :: earlier, item, later, result, between, rfl, ?_, failed⟩
            rw [List.foldlM_cons, Run.bind_of_ok here]
            exact given
          · rintro ⟨earlier, item, later, result, between, split, given, failed⟩
            cases earlier with
            | nil =>
                cases split
                cases given
                cases here.symm.trans failed
            | cons head earlier =>
                cases split
                rw [List.foldlM_cons, Run.bind_of_ok here] at given
                exact ⟨earlier, item, later, result, between, rfl, given, failed⟩

/-! ## Interchangeable strategies -/

/-- The strategies accept the same requests and make the same of them, with the same effects. -/
structure Strategy.Interchangeable (s t : Strategy) : Prop where
  name : s.name = t.name
  accepts : s.accepts = t.accepts
  produce (host : Host) : s.produce host = t.produce host

namespace Chain

variable {strategies others : List Strategy}

/-- The first that accepts is interchangeable as well, and found with the same effects. -/
theorem firstAccepting_interchangeable
    (alike : List.Forall₂ Strategy.Interchangeable strategies others) (wanted : Request)
    (store : Store) :
    ∃ picked other after, firstAccepting strategies wanted store = (picked, after) ∧
      firstAccepting others wanted store = (other, after) ∧
      Option.Rel Strategy.Interchangeable picked other := by
  induction alike generalizing store with
  | nil => exact ⟨none, none, store, rfl, rfl, .none⟩
  | @cons s t strategies others same _ ih =>
      simp only [firstAccepting, bind, StateT.bind, same.accepts]
      rcases t.accepts wanted.site wanted.type store with ⟨_ | _, asked⟩
      · exact ih asked
      · exact ⟨some s, some t, asked, rfl, rfl, .some same⟩

/-- Chains of interchangeable strategies serve all requests alike, nested ones as well. -/
theorem resolveWithin_interchangeable
    (alike : List.Forall₂ Strategy.Interchangeable strategies others) (depth : Nat) :
    Chain.resolveWithin ⟨strategies⟩ depth = Chain.resolveWithin ⟨others⟩ depth := by
  induction depth with
  | zero => rfl
  | succ depth ih =>
      funext wanted store
      rcases firstAccepting_interchangeable alike wanted
          (Store.record (.requested wanted.type wanted.site) store).2 with
        ⟨picked, other, after, found, alsoFound, same⟩
      rw [resolveWithin, resolveWithin, ih, alike.length_eq]
      cases same with
      | none => rw [resolveFor_of_declined found, resolveFor_of_declined alsoFound]
      | some same => rw [resolveFor_of_found found, resolveFor_of_found alsoFound, same.produce]

end Chain

/-! ## Stacks -/

/-- A strategy with a stack of decorators around it, the first of them innermost. -/
def Strategy.decorated (s : Strategy) (stack : List Decorator) : Strategy :=
  stack.foldl Decorator.wrap s

namespace Strategy

variable {s t : Strategy} {stack other : List Decorator}

theorem decorated_cons (s : Strategy) (d : Decorator) (stack : List Decorator) :
    s.decorated (d :: stack) = (d.wrap s).decorated stack := rfl

theorem name_decorated (s : Strategy) (stack : List Decorator) :
    (s.decorated stack).name = s.name := by
  induction stack generalizing s with
  | nil => rfl
  | cons d stack ih =>
      rw [decorated_cons, ih]
      cases d <;> rfl

/-- First the strategy is asked, and then the gates in the order in which they were put around. -/
theorem accepts_decorated (s : Strategy) (stack : List Decorator) (site : Site) (type : TypeExpr) :
    (s.decorated stack).accepts site type =
      (s.accepts site type).andAlso (Matcher.askInTurn site type (gates stack)) := by
  induction stack generalizing s with
  | nil => exact (Step.andAlso_true _).symm
  | cons d stack ih =>
      rw [decorated_cons, ih]
      cases d with
      | enhance | memo => rfl
      | gate condition =>
          -- The gate is the outermost of what the others are put around, so it is asked before them.
          show ((s.accepts site type).andAlso (Store.heed (condition site type))).andAlso _ =
            (s.accepts site type).andAlso
              ((Store.heed (condition site type)).andAlso (Matcher.askInTurn site type _))
          rw [Step.andAlso_assoc]
          rfl

/-- What is made does not depend on the gates. -/
theorem produce_decorated_congr {host : Host} (same : s.produce host = t.produce host)
    (stack : List Decorator) :
    (s.decorated stack).produce host = (t.decorated stack).produce host := by
  induction stack generalizing s t with
  | nil => exact same
  | cons d stack ih =>
      apply ih
      funext site type
      cases d <;> simp only [Decorator.wrap, produce, same]

/-- Gates take no part in making. -/
theorem produce_ungated (s : Strategy) (stack : List Decorator) (host : Host) :
    (s.decorated stack).produce host = (s.decorated (ungated stack)).produce host := by
  induction stack generalizing s with
  | nil => rfl
  | cons d stack ih =>
      rw [decorated_cons, ih]
      cases d with
      | enhance | memo => rfl
      | gate condition =>
          have inner : ((Decorator.gate condition).wrap s).produce host = s.produce host := rfl
          exact produce_decorated_congr inner (ungated stack)

/-! ## Moving gates -/

/-- What counts of a stack is how its gates answer in turn, and the other decorators in order. -/
theorem interchangeable_of_stacks
    (asked : ∀ site type, Matcher.askInTurn site type (gates stack) =
      Matcher.askInTurn site type (gates other))
    (others : ungated stack = ungated other) (s : Strategy) :
    (s.decorated stack).Interchangeable (s.decorated other) where
  name := (name_decorated s stack).trans (name_decorated s other).symm
  accepts := by
    funext site type
    rw [accepts_decorated, accepts_decorated, asked]
  produce host := by rw [produce_ungated, others, ← produce_ungated]

/-- A gate may be put around before or after a decorator that is no gate. -/
theorem gate_moved {d : Decorator} (noGate : d.condition? = none) (condition : Matcher TypeExpr)
    (s : Strategy) (front rest : List Decorator) :
    (s.decorated (front ++ .gate condition :: d :: rest)).Interchangeable
      (s.decorated (front ++ d :: .gate condition :: rest)) := by
  apply interchangeable_of_stacks
  · intro site type
    simp only [gates_append, gates_cons_gate, gates_cons_other noGate]
  · simp only [ungated_append, ungated_cons_gate, ungated_cons_other noGate]

/-- Two adjacent gates may be made one. -/
theorem gates_fused (first second : Matcher TypeExpr) (s : Strategy) (front rest : List Decorator) :
    (s.decorated (front ++ .gate first :: .gate second :: rest)).Interchangeable
      (s.decorated (front ++ .gate (first.and second) :: rest)) := by
  apply interchangeable_of_stacks
  · intro site type
    simp only [gates_append, gates_cons_gate]
    rw [Matcher.askInTurn_append, Matcher.askInTurn_append, Matcher.askInTurn_and]
  · simp only [ungated_append, ungated_cons_gate]

/-- All gates as one may be put around last. -/
theorem gates_last (s : Strategy) (stack : List Decorator) :
    (s.decorated stack).Interchangeable
      (.conditional (s.decorated (ungated stack)) (Matcher.all (gates stack))) := by
  -- The right side is a stack as well, with one gate, so both sides are compared as stacks.
  have last : s.decorated (ungated stack ++ [.gate (Matcher.all (gates stack))]) =
      .conditional (s.decorated (ungated stack)) (Matcher.all (gates stack)) :=
    List.foldl_append
  rw [← last]
  apply interchangeable_of_stacks
  · intro site type
    have only : gates (ungated stack ++ [.gate (Matcher.all (gates stack))]) =
        [Matcher.all (gates stack)] := by
      rw [gates_append, gates_ungated]
      rfl
    rw [only, Matcher.askInTurn, Matcher.heed_all]
    exact (Step.andAlso_true _).symm
  · rw [ungated_append, ungated_ungated]
    exact (List.append_nil _).symm

/-! ## Stacks without a memory -/

/-- Without a memory the strategy makes its stub, and the enhancers work on it in turn. -/
theorem produce_without_memo (free : ∀ d ∈ stack, d.isMemo = false) (s : Strategy) (host : Host)
    (site : Site) (type : TypeExpr) :
    (s.decorated stack).produce host site type = (do
      let value ← s.produce host site type
      (enhancers stack).foldlM (fun value e => e.enhance host site type value) value) := by
  induction stack generalizing s with
  | nil => exact (bind_pure _).symm
  | cons d stack ih =>
      rcases List.forall_mem_cons.mp free with ⟨first, behind⟩
      rw [decorated_cons, ih behind]
      cases d with
      | gate condition => rfl
      | enhance enhancer => exact bind_assoc _ _ _
      | memo cell discriminator => cases first

/-- The first that fails is where it ends: the strategy itself, or one of the enhancers. -/
theorem produce_without_memo_error_iff (free : ∀ d ∈ stack, d.isMemo = false) {host : Host}
    {site : Site} {type : TypeExpr} {store after : Store} {failure : Failure} :
    (s.decorated stack).produce host site type store = .error failure after ↔
      s.produce host site type store = .error failure after ∨
      ∃ start made earlier enhancer later value between,
        s.produce host site type store = .ok start made ∧
        enhancers stack = earlier ++ enhancer :: later ∧
        earlier.foldlM (fun value e => e.enhance host site type value) start made =
          .ok value between ∧
        enhancer.enhance host site type value between = .error failure after := by
  rw [produce_without_memo free]
  cases first : s.produce host site type store with
  | error cause stopped =>
      rw [Run.bind_of_error first]
      constructor
      · exact .inl
      · rintro (same | ⟨start, made, _, _, _, _, _, given, -⟩)
        · exact same
        · cases given
  | ok start made =>
      rw [Run.bind_of_ok first, Run.foldlM_error_iff]
      constructor
      · rintro ⟨earlier, enhancer, later, value, between, split, given, failed⟩
        exact .inr
          ⟨start, made, earlier, enhancer, later, value, between, rfl, split, given, failed⟩
      · rintro (failed | ⟨_, _, earlier, enhancer, later, value, between, same, stopped⟩)
        · cases failed
        · cases same
          exact ⟨earlier, enhancer, later, value, between, stopped⟩

/-! ## The normal form -/

/--
A decorated strategy accepts what the strategy itself and then all gates accept, asked in the order
in which they were put around.  In making, gates take no part: all of them together may be put
around last as one gate, each may change places with a neighbour that is no gate, and two neighbours
may be made one.  Without a memory a stub is made by the strategy itself and then by the enhancers
in their order, up to the first that fails.
-/
theorem decorator_normal_form (s : Strategy) (stack : List Decorator) :
    (∀ site type, (s.decorated stack).accepts site type =
      (s.accepts site type).andAlso (Matcher.askInTurn site type (gates stack))) ∧
    (∀ site type store, ((s.decorated stack).accepts site type store).1 = true ↔
      (s.accepts site type store).1 = true ∧
        ∀ condition ∈ gates stack, (condition site type).holds = true) ∧
    (∀ host, (s.decorated stack).produce host = (s.decorated (ungated stack)).produce host) ∧
    (s.decorated stack).Interchangeable
      (.conditional (s.decorated (ungated stack)) (Matcher.all (gates stack))) ∧
    (∀ front condition d rest, d.condition? = none →
      stack = front ++ .gate condition :: d :: rest →
      (s.decorated stack).Interchangeable (s.decorated (front ++ d :: .gate condition :: rest))) ∧
    (∀ front first second rest, stack = front ++ .gate first :: .gate second :: rest →
      (s.decorated stack).Interchangeable
        (s.decorated (front ++ .gate (first.and second) :: rest))) ∧
    ((∀ d ∈ stack, d.isMemo = false) → ∀ host site type,
      (s.decorated stack).produce host site type = (do
        let value ← s.produce host site type
        (enhancers stack).foldlM (fun value e => e.enhance host site type value) value) ∧
      ∀ store failure after,
        (s.decorated stack).produce host site type store = .error failure after ↔
          s.produce host site type store = .error failure after ∨
          ∃ start made earlier enhancer later value between,
            s.produce host site type store = .ok start made ∧
            enhancers stack = earlier ++ enhancer :: later ∧
            earlier.foldlM (fun value e => e.enhance host site type value) start made =
              .ok value between ∧
            enhancer.enhance host site type value between = .error failure after) := by
  refine ⟨accepts_decorated s stack, ?_, produce_ungated s stack, gates_last s stack, ?_, ?_, ?_⟩
  · intro site type store
    rw [accepts_decorated, Step.andAlso_fst (Matcher.askInTurn_fst site type (gates stack)),
      Bool.and_eq_true, List.all_eq_true]
  · rintro front condition d rest noGate rfl
    exact gate_moved noGate condition s front rest
  · rintro front first second rest rfl
    exact gates_fused first second s front rest
  · intro free host site type
    exact ⟨produce_without_memo free s host site type,
      fun store failure after => produce_without_memo_error_iff free⟩

/-- A letter that is stamped between two gates might as well be stamped in front of one. -/
theorem letter_stamped_between_gates :
    let letter : TypeExpr := .plain (.named "Letter")
    let text : Strategy := .constant letter (.object 0 (.text "Dear reader"))
    let closed : Matcher TypeExpr := .probe "closed" true
    let paid : Matcher TypeExpr := .probe "paid" true
    let stamp : Enhancer := .custom fun _ _ value => .giveNew (.made "Letter" "stamp" [value])
    let stack : List Decorator := [.gate closed, .enhance stamp, .gate paid]
    let post : Host := ⟨fun _ => return none, 0, 0⟩
    (((text.decorated stack).accepts .unknown letter {}).1 = true ∧
      ((text.decorated stack).accepts .unknown letter {}).2.probes = ["closed", "paid"]) ∧
    (text.decorated stack).produce post .unknown letter { nextIdentity := 1 } =
      .ok (.object 1 (.made "Letter" "stamp" [.object 0 (.text "Dear reader")]))
        { nextIdentity := 2 } ∧
    (text.decorated stack).Interchangeable
      (text.decorated [.enhance stamp, .gate closed, .gate paid]) ∧
    (text.decorated [.enhance stamp, .gate closed, .gate paid]).Interchangeable
      (text.decorated [.enhance stamp, .gate (closed.and paid)]) := by
  intro letter text closed paid stamp stack post
  rcases decorator_normal_form text stack with ⟨asked, accepted, -, -, moved, -, made⟩
  rcases decorator_normal_form text [.enhance stamp, .gate closed, .gate paid] with
    ⟨-, -, -, -, -, fused, -⟩
  refine ⟨⟨?_, ?_⟩, ?_, ?_, ?_⟩
  · apply (accepted .unknown letter {}).mpr
    exact ⟨by decide, by simp [stack, gates, condition?, closed, paid, Matcher.probe]⟩
  · rw [asked]
    decide
  · have free : ∀ d ∈ stack, d.isMemo = false := by simp [stack, isMemo]
    rw [(made free post .unknown letter).1]
    rfl
  · exact moved [] closed (.enhance stamp) [.gate paid] rfl rfl
  · exact fused [.enhance stamp] closed paid [] rfl

end Strategy

/-- A chain serves all requests alike if the gates of each of its strategies are put around last. -/
theorem Chain.resolveWithin_gates_last (decorations : List (Strategy × List Decorator)) (depth : Nat) :
    Chain.resolveWithin ⟨decorations.map fun p => p.1.decorated p.2⟩ depth =
      Chain.resolveWithin ⟨decorations.map fun p =>
        .conditional (p.1.decorated (ungated p.2)) (Matcher.all (gates p.2))⟩ depth := by
  apply Chain.resolveWithin_interchangeable
  rw [List.forall₂_map_left_iff, List.forall₂_map_right_iff, List.forall₂_same]
  exact fun p _ => Strategy.gates_last p.1 p.2

end TestData
