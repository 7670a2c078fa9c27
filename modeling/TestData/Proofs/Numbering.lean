import TestData.Proofs.Memo
import TestData.Proofs.Operations

namespace TestData

/-!
# Sequence numbers over whole runs

A supplied strategy takes its number before it lets its supplier work.  Whatever the
supplier does then, be it to fail or to come back to the same strategy, the number is
gone.  So the numbers of a cell can be told from the events of a run: each stretch of a
run adds numbers that follow on one another, from the one that was up on, and leaves the
next one up.  Numbers are machine words and wrap around.
-/

/-- Numbers that follow on one another, from a first one on. -/
def consecutive (first : UInt64) (count : Nat) : List UInt64 :=
  (List.range count).map fun index => first + UInt64.ofNat index

@[simp]
theorem consecutive_zero (first : UInt64) : consecutive first 0 = [] := rfl

theorem consecutive_add (first : UInt64) (count more : Nat) :
    consecutive first (count + more) =
      consecutive first count ++ consecutive (first + UInt64.ofNat count) more := by
  simp only [consecutive, List.range_add, List.map_append, List.map_map]
  congr 1
  apply List.map_congr_left
  intro index _
  simp only [Function.comp_apply, UInt64.ofNat_add, UInt64.add_assoc]

@[simp]
theorem consecutive_one (first : UInt64) : consecutive first 1 = [first] := by
  simp [consecutive]

/-- The number that an event handed out from the cell. -/
def Event.numberFrom? (cell : Cell) : Event → Option UInt64
  | .supplied other number => if other = cell then some number else none
  | .probed _ | .requested .. | .selected .. | .computed .. | .recalled .. => none

namespace Store

/-- The numbers handed out from a cell so far, in order. -/
def numbers (store : Store) (cell : Cell) : List UInt64 :=
  store.events.filterMap (Event.numberFrom? cell)

/-- The number of a cell that is up. -/
def upcoming (store : Store) (cell : Cell) : UInt64 :=
  (store.counters.find? cell).getD 0

theorem numbers_of_trace {before after : Store} {cell : Cell} {news : List Event}
    (trace : after.trace = news ++ before.trace) :
    after.numbers cell = before.numbers cell ++ news.reverse.filterMap (Event.numberFrom? cell) := by
  rw [numbers, events, trace, List.reverse_append, List.filterMap_append]
  rfl

/-- In between, this many numbers were handed out from the cell, the one that was up first. -/
structure Counts (cell : Cell) (before after : Store) (count : Nat) : Prop where
  numbers : after.numbers cell = before.numbers cell ++ consecutive (before.upcoming cell) count
  upcoming : after.upcoming cell = before.upcoming cell + UInt64.ofNat count

namespace Counts

variable {cell : Cell} {before between after : Store} {few more : Nat}

theorem trans (first : Counts cell before between few) (second : Counts cell between after more) :
    Counts cell before after (few + more) where
  numbers := by
    rw [second.numbers, first.numbers, first.upcoming, consecutive_add, List.append_assoc]
  upcoming := by
    rw [second.upcoming, first.upcoming, UInt64.ofNat_add, UInt64.add_assoc]

/-- Other events and other counters are of no account. -/
theorem none_of_news (news : List Event) (trace : after.trace = news ++ before.trace)
    (others : ∀ event ∈ news, event.numberFrom? cell = none)
    (counters : after.counters.find? cell = before.counters.find? cell) :
    Counts cell before after 0 where
  numbers := by
    have none : news.reverse.filterMap (Event.numberFrom? cell) = [] :=
      List.filterMap_eq_nil_iff.mpr fun event member => others event (List.mem_reverse.mp member)
    rw [numbers_of_trace trace, none, consecutive_zero]
  upcoming := by
    rw [Store.upcoming, counters]
    exact (UInt64.add_zero _).symm

theorem refl (cell : Cell) (store : Store) : Counts cell store store 0 :=
  none_of_news [] rfl (fun _ member => nomatch member) rfl

theorem record {event : Event} (other : event.numberFrom? cell = none) (store : Store) :
    Counts cell store (Store.record event store).2 0 :=
  none_of_news [event] rfl (fun _ member => List.mem_singleton.mp member ▸ other) rfl

theorem search {cells : Cell → Prop} (searched : Searched cells before after) :
    Counts cell before after 0 := by
  rcases searched.trace with ⟨names, trace⟩
  refine none_of_news _ trace (fun event member => ?_) (by rw [searched.rest])
  rcases List.mem_map.mp member with ⟨name, -, rfl⟩
  rfl

/-- A number that is handed out is the one that was up, and the next one is up then. -/
theorem nextNumber (cell : Cell) (store : Store) :
    Counts cell store (Store.nextNumber cell store).2 1 where
  numbers := by
    have trace : (Store.nextNumber cell store).2.trace
        = [.supplied cell (store.upcoming cell)] ++ store.trace := rfl
    rw [numbers_of_trace trace, consecutive_one]
    simp [Event.numberFrom?]
  upcoming := by
    rw [Store.upcoming, Store.nextNumber, Table.find?_insert_self]
    rfl

/-- Numbers of other cells are counted apart. -/
theorem nextNumber_of_ne {other : Cell} (different : other ≠ cell) (store : Store) :
    Counts cell store (Store.nextNumber other store).2 0 := by
  refine none_of_news [.supplied other (store.upcoming other)] rfl (fun event member => ?_) ?_
  · cases List.mem_singleton.mp member
    exact if_neg different
  · exact store.counters.find?_insert_of_ne _ different.symm

/-- A single move hands out a number from the cell or none. -/
theorem of_move {cells : Cell → Prop} (move : Move cells before after) :
    ∃ count, Counts cell before after count := by
  cases move with
  | search searched => exact ⟨0, search searched⟩
  | create | note | memo => exact ⟨0, none_of_news [] rfl (fun _ member => nomatch member) rfl⟩
  | request | compute | recalled => exact ⟨0, record rfl before⟩
  | @number other own =>
      by_cases same : other = cell
      · subst same
        exact ⟨1, nextNumber other before⟩
      · exact ⟨0, nextNumber_of_ne same before⟩
  | @constructor _ own name _ searched unknown search choice =>
      have settled : Counts cell before searched 0 := (record rfl before).trans (.search search)
      exact ⟨_, settled.numbers, settled.upcoming⟩
  | @method _ own name _ searched unknown search choice =>
      have settled : Counts cell before searched 0 := (record rfl before).trans (.search search)
      exact ⟨_, settled.numbers, settled.upcoming⟩

/-- So does a sequence of moves, one number after the other. -/
theorem of_moves {cells : Cell → Prop} (moves : Moves cells before after) :
    ∃ count, Counts cell before after count := by
  induction moves with
  | refl => exact ⟨0, .refl cell before⟩
  | tail _ move ih =>
      rcases ih with ⟨few, first⟩
      rcases of_move move with ⟨more, last⟩
      exact ⟨few + more, first.trans last⟩

end Counts
end Store

open StubCall

namespace Strategy

variable {cell : Cell} {expected type : TypeExpr} {supplier : Site → UInt64 → Action}
  {host : Host} {site : Site} {before : Store}

/-- A call takes its number first and then leaves it to the supplier what to do with it. -/
theorem produce_supplied (matching : type.unwrapsTo expected = true) :
    (supplied cell expected supplier).produce host site type before =
      (supplier site (before.upcoming cell)).run host (Store.nextNumber cell before).2 := by
  rw [produce, if_pos matching]
  rfl

theorem produce_supplied_of_other (other : type.unwrapsTo expected = false) :
    (supplied cell expected supplier).produce host site type before =
      .error (.error (.unresolvable type site)) before := by
  rw [produce, if_neg (Bool.eq_false_iff.mp other)]
  rfl

end Strategy

/--
What holds of the numbers of a supplied strategy in every run, whatever the chains are
through which its calls and the calls nested in them go.  The strategy may be part of
several chains, serve several elements of a collection, and be asked for by its own
supplier; it goes by its cell.
-/
structure GaplessNumbering (cell : Cell) (expected : TypeExpr)
    (supplier : Site → UInt64 → Action) : Prop where
  /-- The calls of a run are given the numbers from zero on, in the order in which they start. -/
  fromZero (calls : List StubCall) {start : Store} :
    start.numbers cell = [] → start.upcoming cell = 0 →
      ∃ count, (runAll calls start).numbers cell = (List.range count).map UInt64.ofNat
  /-- A run that begins later goes on with the number that is up. -/
  goesOn (calls : List StubCall) (start : Store) :
    ∃ count, (runAll calls start).numbers cell
        = start.numbers cell ++ consecutive (start.upcoming cell) count ∧
      (runAll calls start).upcoming cell = start.upcoming cell + UInt64.ofNat count
  /-- A call begins with taking the number that is up, and this is the number its supplier gets. -/
  receives {type : TypeExpr} (host : Host) (site : Site) (before : Store) :
    type.unwrapsTo expected = true → ∃ taken : Store,
      taken.numbers cell = before.numbers cell ++ [before.upcoming cell] ∧
      taken.upcoming cell = before.upcoming cell + 1 ∧
      (Strategy.supplied cell expected supplier).produce host site type before =
        (supplier site (before.upcoming cell)).run host taken
  /-- Calls that are started by the supplier are given the numbers behind that of the call
  they are nested in.  However the call ends, its own number is used up. -/
  nested {type : TypeExpr} (chain : Chain) (depth : Nat) (site : Site) (before : Store) :
    type.unwrapsTo expected = true →
      let after := Run.left ((Strategy.supplied cell expected supplier).produce
        (chain.hostWithin depth) site type before)
      ∃ inside, after.numbers cell = before.numbers cell ++
          before.upcoming cell :: consecutive (before.upcoming cell + 1) inside ∧
        after.upcoming cell = before.upcoming cell + 1 + UInt64.ofNat inside
  /-- A call for a type that does not match is refused, and leaves the store as it was. -/
  rejected {type : TypeExpr} (host : Host) (site : Site) (before : Store) :
    type.unwrapsTo expected = false →
      (Strategy.supplied cell expected supplier).produce host site type before =
        .error (.error (.unresolvable type site)) before
  /-- So does the question whether a type matches. -/
  asked (type : TypeExpr) (site : Site) (before : Store) :
    (Strategy.supplied cell expected supplier).accepts site type before =
      (type.unwrapsTo expected, before)

/-- The numbers of every supplied strategy are without gap and repetition. -/
theorem supplied_numbering (cell : Cell) (expected : TypeExpr)
    (supplier : Site → UInt64 → Action) : GaplessNumbering cell expected supplier where
  fromZero calls start unnumbered unused := by
    rcases Store.Counts.of_moves (moves_runAll calls start) with ⟨count, counts⟩
    refine ⟨count, ?_⟩
    rw [counts.numbers, unnumbered, unused, List.nil_append, consecutive]
    simp
  goesOn calls start := by
    rcases Store.Counts.of_moves (moves_runAll calls start) with ⟨count, counts⟩
    exact ⟨count, counts.numbers, counts.upcoming⟩
  receives host site before matching := by
    have first := Store.Counts.nextNumber cell before
    refine ⟨_, ?_, first.upcoming, Strategy.produce_supplied matching⟩
    rw [first.numbers, consecutive_one]
  nested {type} chain depth site before matching := by
    intro after
    have first := Store.Counts.nextNumber cell before
    have runs : Operates (.keepingTo fun _ => True) fun host =>
        (supplier site (before.upcoming cell)).run host :=
      .action (Action.keepsTo_keepingTo _ _)
    have moves := runs.moves (fun _ => trivial) (chain.hostWithin depth)
      (fun wanted _ store => Chain.moves_resolveWithin chain.ownedBy_all depth wanted store)
      (Store.nextNumber cell before).2
    rw [← Strategy.produce_supplied matching] at moves
    rcases Store.Counts.of_moves moves with ⟨inside, counts⟩
    refine ⟨inside, ?_, ?_⟩
    · rw [counts.numbers, first.numbers, first.upcoming, consecutive_one, List.append_assoc]
      rfl
    · rw [counts.upcoming, first.upcoming]
      rfl
  rejected host site before other := Strategy.produce_supplied_of_other other
  asked type site before := rfl

/--
A supplier that asks for its own type until the second number: the outer call gets the
number zero, and the one nested in it fails with number one.
-/
example :
    let reentrant : Supplier := fun site number =>
      if number = 0 then .require ⟨.plain Class.unit, site.memoizing⟩ .give else .fail .io
    let numbering : Strategy := .supplied ⟨0⟩ (.plain Class.unit) reentrant
    let call : StubCall := .of numbering ⟨[numbering]⟩ 2 ⟨.plain Class.unit, .unknown⟩
    (runAll [call, call] {}).numbers ⟨0⟩ = [0, 1, 2] := by
  rfl

end TestData
