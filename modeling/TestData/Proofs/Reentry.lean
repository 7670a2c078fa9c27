import TestData.Proofs.Moves

namespace TestData

/-!
# Selections under way

Strategies that call constructors or factory methods settle on one member for each class
name.  The selector that picks the member sees the whole context of the request, so it may
ask for stubs while it selects, and they may be served by the very strategy whose selector
is at work.  There is no entry yet then.  So the selector is run anew, and the entry it
comes to is overwritten when the selection it came back from ends.

A run with such selectors goes from moment to moment.  A moment is a store together with the
selections that are under way, the innermost first.  A selection starts where there is no
entry and finishes by keeping its answer, whatever entry was made meanwhile.  Two things are
invariant: an entry for which no selection is under way lasts, and as long as no selector
comes back to its own slot, it is run once for each entry.
-/

/-- The kinds of members by which strategies make stubs. -/
inductive MemberKind where
  | constructor
  | method
  deriving DecidableEq

namespace MemberKind

/-- The members of a kind. -/
abbrev Member : MemberKind → Type
  | .constructor => Constructor
  | .method => Method

/-- The entries for members of a kind. -/
def table : (kind : MemberKind) → Store → Table (Cell × String) (Option kind.Member)
  | .constructor => Store.constructors
  | .method => Store.methods

end MemberKind

/-- The place of an entry: the strategy's cell for members of a kind, and a class name. -/
structure Slot where
  kind : MemberKind
  cell : Cell
  name : String
  deriving DecidableEq

namespace Slot

/-- The key of the entry in its table. -/
def key (slot : Slot) : Cell × String :=
  (slot.cell, slot.name)

/-- What was settled on for the slot, if anything was. -/
def settled? (slot : Slot) (store : Store) : Option (Option slot.kind.Member) :=
  (slot.kind.table store).find? slot.key

/-- The store with a member, or the lack of one, kept for the slot. -/
def keep : (slot : Slot) → Option slot.kind.Member → Store → Store
  | ⟨.constructor, cell, name⟩, choice, store =>
      { store with constructors := store.constructors.insert (cell, name) choice }
  | ⟨.method, cell, name⟩, choice, store =>
      { store with methods := store.methods.insert (cell, name) choice }

/-- The store in which the selector of the slot sets to work. -/
def start (slot : Slot) (store : Store) : Store :=
  (Store.record (.selected slot.cell slot.name) store).2

variable {slot other : Slot} {store : Store}

@[simp]
theorem settled?_start (slot other : Slot) (store : Store) :
    slot.settled? (other.start store) = slot.settled? store := by
  rcases slot with ⟨_ | _, cell, name⟩ <;> rfl

@[simp]
theorem settled?_keep (slot : Slot) (choice : Option slot.kind.Member) (store : Store) :
    slot.settled? (slot.keep choice store) = some choice := by
  rcases slot with ⟨_ | _, cell, name⟩
  · exact store.constructors.find?_insert_self (cell, name) choice
  · exact store.methods.find?_insert_self (cell, name) choice

theorem settled?_keep_of_ne (different : slot ≠ other) (choice : Option other.kind.Member)
    (store : Store) : slot.settled? (other.keep choice store) = slot.settled? store := by
  rcases slot with ⟨_ | _, cell, name⟩ <;> rcases other with ⟨_ | _, there, named⟩
  · exact store.constructors.find?_insert_of_ne choice fun same => different (by cases same; rfl)
  · rfl
  · rfl
  · exact store.methods.find?_insert_of_ne choice fun same => different (by cases same; rfl)

theorem settled?_congr {before after : Store}
    (tables : ∀ kind : MemberKind, kind.table after = kind.table before) (slot : Slot) :
    slot.settled? after = slot.settled? before := by
  rw [settled?, settled?, tables]

@[simp]
theorem trace_keep (slot : Slot) (choice : Option slot.kind.Member) (store : Store) :
    (slot.keep choice store).trace = store.trace := by
  rcases slot with ⟨_ | _, cell, name⟩ <;> rfl

end Slot

/-! ## Runs with selections under way -/

namespace Store

/-- No entry was made and no selector was run, whatever else happened. -/
structure Still (before after : Store) : Prop where
  tables (kind : MemberKind) : kind.table after = kind.table before
  trace : ∃ news : List Event, after.trace = news ++ before.trace ∧
    ∀ event ∈ news, ∀ cell name, event ≠ .selected cell name

variable {cells : Cell → Prop} {before after : Store}

theorem Searched.still (searched : Searched cells before after) : Still before after where
  tables kind := by
    rw [searched.rest]
    cases kind <;> rfl
  trace := by
    rcases searched.trace with ⟨names, trace⟩
    refine ⟨_, trace, fun event member cell name => ?_⟩
    rcases List.mem_map.mp member with ⟨probe, -, rfl⟩
    exact Event.noConfusion

/-- Another kind of event was traced, and no entry was made. -/
theorem Still.traced {event : Event} (other : ∀ cell name, event ≠ .selected cell name)
    (trace : after.trace = event :: before.trace)
    (tables : ∀ kind : MemberKind, kind.table after = kind.table before) : Still before after :=
  ⟨tables, [event], trace, fun _ member => List.mem_singleton.mp member ▸ other⟩

/-- Of the moves only those that settle on a member make an entry: where there was none, and
after a search. -/
theorem Move.still_or_selects (move : Move cells before after) :
    Still before after ∨
      ∃ (slot : Slot) (choice : Option slot.kind.Member) (searched : Store),
        slot.settled? before = none ∧ Still (slot.start before) searched ∧
          after = slot.keep choice searched := by
  cases move with
  | search searched => exact .inl searched.still
  | create | note | memo =>
      refine .inl ⟨fun kind => ?_, [], rfl, fun _ member => nomatch member⟩
      cases kind <;> rfl
  | request | number | compute | recalled =>
      refine .inl (.traced (fun _ _ => Event.noConfusion) rfl fun kind => ?_)
      cases kind <;> rfl
  | @constructor cell own name store searched unknown search choice =>
      exact .inr ⟨⟨.constructor, cell, name⟩, choice, searched, unknown, search.still, rfl⟩
  | @method cell own name store searched unknown search choice =>
      exact .inr ⟨⟨.method, cell, name⟩, choice, searched, unknown, search.still, rfl⟩

end Store

/-- A store, and the selections under way, the innermost first. -/
structure Moment where
  underWay : List Slot
  store : Store

namespace Moment

/-- What may happen next, where selectors come back to their own slots only if these allow it. -/
inductive Next (returns : Slot → Prop) : Moment → Moment → Prop where
  | still {underWay : List Slot} {before after : Store} (still : before.Still after) :
      Next returns ⟨underWay, before⟩ ⟨underWay, after⟩
  | start {underWay : List Slot} {slot : Slot} {store : Store}
      (vacant : slot.settled? store = none) (allowed : slot ∈ underWay → returns slot) :
      Next returns ⟨underWay, store⟩ ⟨slot :: underWay, slot.start store⟩
  | finish {underWay : List Slot} {slot : Slot} (choice : Option slot.kind.Member)
      (store : Store) : Next returns ⟨slot :: underWay, store⟩ ⟨underWay, slot.keep choice store⟩

/-- A run between two moments. -/
abbrev Leads (returns : Slot → Prop) : Moment → Moment → Prop :=
  Relation.ReflTransGen (Next returns)

variable {returns : Slot → Prop} {underWay : List Slot} {before after : Store}

/-- A selection, and in between whatever its selector does. -/
theorem leads_selection {slot : Slot} {selected : Store} (vacant : slot.settled? before = none)
    (allowed : slot ∈ underWay → returns slot)
    (selector : Leads returns ⟨slot :: underWay, slot.start before⟩ ⟨slot :: underWay, selected⟩)
    (choice : Option slot.kind.Member) :
    Leads returns ⟨underWay, before⟩ ⟨underWay, slot.keep choice selected⟩ :=
  ((Relation.ReflTransGen.single (.start vacant allowed)).trans selector).tail
    (.finish choice selected)

/-- Moves of strategies whose selectors ask nobody are a run. -/
theorem leads_of_moves {cells : Cell → Prop} (moves : Store.Moves cells before after)
    (allowed : ∀ slot ∈ underWay, returns slot) :
    Leads returns ⟨underWay, before⟩ ⟨underWay, after⟩ := by
  induction moves with
  | refl => exact .refl
  | tail _ move ih =>
      rcases move.still_or_selects with still | ⟨slot, choice, searched, vacant, search, rfl⟩
      · exact ih.tail (.still still)
      · exact ih.trans (leads_selection vacant (allowed slot) (.single (.still search)) choice)

/-! ## Entries last -/

/-- There is an entry for the slot, and no selection for it is under way. -/
structure Decided (slot : Slot) (choice : Option slot.kind.Member) (moment : Moment) : Prop where
  idle : slot ∉ moment.underWay
  entry : slot.settled? moment.store = some choice

variable {slot : Slot} {choice : Option slot.kind.Member} {moment later : Moment}

/-- No selection for the slot starts, since there is an entry, and so none finishes. -/
theorem Decided.next (decided : Decided slot choice moment) (step : Next returns moment later) :
    Decided slot choice later := by
  rcases decided with ⟨idle, entry⟩
  cases step with
  | still still => exact ⟨idle, (slot.settled?_congr still.tables).trans entry⟩
  | @start underWay other store vacant allowed =>
      have apart : slot ≠ other := by
        rintro rfl
        rw [vacant] at entry
        cases entry
      exact ⟨List.not_mem_cons_of_ne_of_not_mem apart idle,
        (slot.settled?_start other store).trans entry⟩
  | @finish underWay other choice store =>
      have apart : slot ≠ other := List.ne_of_not_mem_cons idle
      exact ⟨List.not_mem_of_not_mem_cons idle,
        (Slot.settled?_keep_of_ne apart choice store).trans entry⟩

theorem Decided.leads (decided : Decided slot choice moment) (run : Leads returns moment later) :
    Decided slot choice later := by
  induction run with
  | refl => exact decided
  | tail _ step ih => exact ih.next step

end Moment

/-! ## Counting selections -/

/-- The event tells that the selector of the cell was run for the class name. -/
def Event.selects (key : Cell × String) : Event → Bool
  | .selected cell name => decide ((cell, name) = key)
  | .probed _ | .requested .. | .supplied .. | .computed .. | .recalled .. => false

namespace Store

/-- How often the selector of a cell was run for a class name. -/
def selections (store : Store) (key : Cell × String) : Nat :=
  store.trace.countP (Event.selects key)

/-- The number of entries for a class name; a cell has entries for one kind of members only. -/
def entries (store : Store) (key : Cell × String) : Nat :=
  (store.constructors.find? key).toList.length + (store.methods.find? key).toList.length

variable {key : Cell × String} {before after store : Store} {slot : Slot}

theorem Still.selections (still : Still before after) :
    after.selections key = before.selections key := by
  rcases still.trace with ⟨news, trace, others⟩
  have none : news.countP (Event.selects key) = 0 := by
    refine List.countP_eq_zero.mpr fun event member => ?_
    cases event with
    | selected cell name => exact absurd rfl (others _ member cell name)
    | probed | requested | supplied | computed | recalled => exact Bool.false_ne_true
  rw [Store.selections, Store.selections, trace, List.countP_append, none, Nat.zero_add]

theorem Still.entries (still : Still before after) : after.entries key = before.entries key := by
  have constructors : after.constructors = before.constructors := still.tables .constructor
  have methods : after.methods = before.methods := still.tables .method
  rw [Store.entries, Store.entries, constructors, methods]

theorem selections_start (slot : Slot) (store : Store) (key : Cell × String) :
    (slot.start store).selections key =
      store.selections key + if slot.key = key then 1 else 0 := by
  by_cases same : slot.key = key
  · rw [if_pos same]
    exact List.countP_cons_of_pos (decide_eq_true same)
  · rw [if_neg same]
    exact List.countP_cons_of_neg (mt of_decide_eq_true same)

theorem selections_keep (slot : Slot) (choice : Option slot.kind.Member) (store : Store)
    (key : Cell × String) :
    (slot.keep choice store).selections key = store.selections key := by
  rw [selections, slot.trace_keep, selections]

/-- The first entry of a slot counts. -/
theorem entries_keep (vacant : slot.key = key → slot.settled? store = none)
    (choice : Option slot.kind.Member) :
    (slot.keep choice store).entries key =
      store.entries key + if slot.key = key then 1 else 0 := by
  by_cases same : slot.key = key
  · have unknown := vacant same
    subst same
    rcases slot with ⟨_ | _, cell, name⟩
    · have none : store.constructors.find? (cell, name) = Option.none := unknown
      simp [entries, Slot.key, Slot.keep, none, Nat.add_comm]
    · have none : store.methods.find? (cell, name) = Option.none := unknown
      simp [entries, Slot.key, Slot.keep, none]
  · rw [if_neg same, Nat.add_zero]
    rcases slot with ⟨_ | _, cell, name⟩
    · have other := store.constructors.find?_insert_of_ne choice (Ne.symm same)
      exact congrArg (·.toList.length + _) other
    · have other := store.methods.find?_insert_of_ne choice (Ne.symm same)
      exact congrArg (_ + ·.toList.length) other

end Store

namespace Moment

/-- How many of the selections under way are for the key. -/
def selecting (underWay : List Slot) (key : Cell × String) : Nat :=
  underWay.countP fun slot => slot.key = key

theorem selecting_cons (slot : Slot) (underWay : List Slot) (key : Cell × String) :
    selecting (slot :: underWay) key =
      selecting underWay key + if slot.key = key then 1 else 0 := by
  rw [selecting, List.countP_cons, selecting]
  simp only [decide_eq_true_eq]

/--
The selector of the key was run once for each entry made since the start and for each selection
under way, and those that are under way have no entry yet.
-/
structure Accounted (start : Store) (key : Cell × String) (moment : Moment) : Prop where
  vacant {slot : Slot} :
    slot ∈ moment.underWay → slot.key = key → slot.settled? moment.store = none
  alone {slot : Slot} : slot.key = key → moment.underWay.count slot ≤ 1
  balance : moment.store.selections key + start.entries key =
    start.selections key + moment.store.entries key + selecting moment.underWay key

variable {returns : Slot → Prop} {start : Store} {key : Cell × String} {moment later : Moment}

theorem Accounted.refl (start : Store) (key : Cell × String) : Accounted start key ⟨[], start⟩ where
  vacant member := nomatch member
  alone _ := Nat.zero_le 1
  balance := rfl

/-- The accounts stay in balance while the selectors of the key do not come back to it. -/
theorem Accounted.next (accounted : Accounted start key moment)
    (once : ∀ slot : Slot, slot.key = key → ¬ returns slot) (step : Next returns moment later) :
    Accounted start key later := by
  rcases accounted with ⟨vacant, alone, balance⟩
  cases step with
  | still still =>
      refine ⟨fun member same => ?_, alone, ?_⟩
      · rw [Slot.settled?_congr still.tables]
        exact vacant member same
      · rw [still.selections, still.entries]
        exact balance
  | @start underWay other store unknown allowed =>
      refine ⟨fun member same => ?_, fun {slot} same => ?_, ?_⟩
      · rw [Slot.settled?_start]
        rcases List.mem_cons.mp member with rfl | inside
        · exact unknown
        · exact vacant inside same
      · by_cases here : other = slot
        · subst here
          have outside : other ∉ underWay := mt allowed (once other same)
          have none := List.count_eq_zero_of_not_mem outside
          rw [List.count_cons_self]
          omega
        · rw [List.count_cons_of_ne here]
          exact alone same
      · have began := Store.selections_start other store key
        have entries : (other.start store).entries key = store.entries key := rfl
        have more := selecting_cons other underWay key
        dsimp only at balance ⊢
        omega
  | @finish underWay other choice store =>
      have apart {slot : Slot} (member : slot ∈ underWay) (same : slot.key = key) :
          slot ≠ other := by
        rintro rfl
        have twice := alone same
        rw [List.count_cons_self] at twice
        have inside := List.count_pos_iff.mpr member
        omega
      refine ⟨fun member same => ?_, fun same => ?_, ?_⟩
      · rw [Slot.settled?_keep_of_ne (apart member same)]
        exact vacant (List.mem_cons_of_mem _ member) same
      · exact Nat.le_trans List.count_le_count_cons (alone same)
      · have kept := Store.selections_keep other choice store key
        have entries := Store.entries_keep (vacant List.mem_cons_self) choice
        have fewer := selecting_cons other underWay key
        dsimp only at balance entries ⊢
        omega

theorem Accounted.leads (accounted : Accounted start key moment)
    (once : ∀ slot : Slot, slot.key = key → ¬ returns slot) (run : Leads returns moment later) :
    Accounted start key later := by
  induction run with
  | refl => exact accounted
  | tail _ step ih => exact ih.next once step

/-- Once no selection is under way any more, the selector was run once for each new entry. -/
theorem selections_of_leads {after : Store} (once : ∀ slot : Slot, slot.key = key → ¬ returns slot)
    (run : Leads returns ⟨[], start⟩ ⟨[], after⟩) :
    after.selections key + start.entries key = start.selections key + after.entries key :=
  ((Accounted.refl start key).leads once run).balance

end Moment
end TestData
