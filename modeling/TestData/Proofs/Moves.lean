import Mathlib.Logic.Relation
import TestData.Proofs.Searching
import TestData.Strategy.Produce

namespace TestData

/-!
# Moves of the store

Whatever a request leads to, the store changes by moves of few kinds: an object or a note
is made, a number is handed out, a member is settled on, a memo is kept, and in between
candidates are searched and events traced.  Which cells a strategy may move in is known
beforehand, for they are part of its data.

An invariant of runs is an invariant of single moves.  So it is shown here, once, that
all that strategies do to a store while they accept requests is a sequence of moves.
-/

namespace Store

/-- One thing that may happen to a store, where state is kept in these cells only. -/
inductive Move (cells : Cell → Prop) : Store → Store → Prop where
  | search {before after : Store} (searched : Searched cells before after) :
      Move cells before after
  | create (store : Store) :
      Move cells store { store with nextIdentity := store.nextIdentity + 1 }
  | note (entry : Entry) (store : Store) : Move cells store (Store.note entry store).2
  | request (type : TypeExpr) (site : Site) (store : Store) :
      Move cells store (record (.requested type site) store).2
  | number {cell : Cell} (own : cells cell) (store : Store) :
      Move cells store (nextNumber cell store).2
  | constructor {cell : Cell} (own : cells cell) {name : String} {store searched : Store}
      (unknown : store.constructors.find? (cell, name) = none)
      (search : Searched cells (record (.selected cell name) store).2 searched)
      (choice : Option Constructor) :
      Move cells store
        { searched with constructors := searched.constructors.insert (cell, name) choice }
  | method {cell : Cell} (own : cells cell) {name : String} {store searched : Store}
      (unknown : store.methods.find? (cell, name) = none)
      (search : Searched cells (record (.selected cell name) store).2 searched)
      (choice : Option Method) :
      Move cells store { searched with methods := searched.methods.insert (cell, name) choice }
  | compute {cell : Cell} (own : cells cell) (key : MemoKey) (store : Store) :
      Move cells store (record (.computed cell key) store).2
  | recalled {cell : Cell} (own : cells cell) (key : MemoKey) (value : Value) (store : Store) :
      Move cells store (record (.recalled cell key value) store).2
  | memo {cell : Cell} (own : cells cell) (key : MemoKey) (value : Value) (store : Store) :
      Move cells store { store with memos := store.memos.insert (cell, key) value }

/-- Some moves, one after the other. -/
abbrev Moves (cells : Cell → Prop) : Store → Store → Prop :=
  Relation.ReflTransGen (Move cells)

end Store

/-! ## The cells of a strategy -/

namespace Strategy

/-- All state of the strategy is kept in these cells. -/
def OwnedBy (cells : Cell → Prop) : Strategy → Prop
  | .supplied cell _ _ => cells cell
  | .constructor cell selector => cells cell ∧ selector.Uses cells
  | .factoryMethod cell selector => cells cell ∧ selector.Uses cells
  | .enumValue selector => selector.Uses cells
  | .memoizing cell inner _ => cells cell ∧ inner.OwnedBy cells
  | .conditional inner _ | .enhancing inner _ => inner.OwnedBy cells
  | .defaultValue | .constant .. | .nullValue | .optional _ | .collection .. | .map ..
  | .array _ | .implementation .. | .chain => True

theorem ownedBy_all (strategy : Strategy) : strategy.OwnedBy fun _ => True := by
  induction strategy with
  | constructor cell selector => exact ⟨trivial, selector.uses_all⟩
  | factoryMethod cell selector => exact ⟨trivial, selector.uses_all⟩
  | enumValue selector => exact selector.uses_all
  | memoizing cell inner discriminator ih => exact ⟨trivial, ih⟩
  | conditional inner condition ih => exact ih
  | enhancing inner enhancer ih => exact ih
  | defaultValue | constant | supplied | nullValue | optional | collection | map | array
  | implementation | chain => exact trivial

theorem OwnedBy.mono {strategy : Strategy} {cells more : Cell → Prop}
    (owned : strategy.OwnedBy cells) (within : ∀ cell, cells cell → more cell) :
    strategy.OwnedBy more := by
  induction strategy with
  | supplied cell type supplier => exact within cell owned
  | constructor cell selector | factoryMethod cell selector =>
      exact ⟨within cell owned.1, owned.2.mono within⟩
  | enumValue selector => exact Selector.Uses.mono owned within
  | memoizing cell inner discriminator ih => exact ⟨within cell owned.1, ih owned.2⟩
  | conditional inner condition ih => exact ih owned
  | enhancing inner enhancer ih => exact ih owned
  | defaultValue | constant | nullValue | optional | collection | map | array | implementation
  | chain => exact trivial

/-- Look up a memo. -/
def lookUp (cell : Cell) (key : MemoKey) : Step (Option Value) := fun store =>
  (store.memos.find? (cell, key), store)

/-- Keep a value as memo. -/
def keepMemo (cell : Cell) (key : MemoKey) (value : Value) : Step Unit :=
  modify fun store => { store with memos := store.memos.insert (cell, key) value }

/-- A memory sees no more of the store than its memo. -/
theorem recalling_eq (cell : Cell) (key : MemoKey) (make : Run Value) :
    recalling cell key make = (do
      match ← lookUp cell key with
      | some value => handOut cell key value
      | none =>
          Store.record (.computed cell key)
          let made ← make
          match ← lookUp cell key with
          | some value => handOut cell key value
          | none =>
              keepMemo cell key made
              handOut cell key made) :=
  rfl

end Strategy

/-! ## Steps made of moves -/

/-- The step is made of the elementary steps of strategies that keep their state in these cells. -/
inductive Step.Working (cells : Cell → Prop) : {α : Type} → Step α → Prop where
  | search {α : Type} {step : Step α} (searching : Searching cells step) : Working cells step
  | bind {α β : Type} {step : Step α} {next : α → Step β} (first : Working cells step)
      (second : ∀ result, Working cells (next result)) : Working cells (step >>= next)
  | create (content : Content) : Working cells (Store.create content)
  | note (entry : Entry) : Working cells (Store.note entry)
  | request (type : TypeExpr) (site : Site) : Working cells (Store.record (.requested type site))
  | number {cell : Cell} (own : cells cell) : Working cells (Store.nextNumber cell)
  | constructor {cell : Cell} (own : cells cell) {selector : Selector Constructor}
      (uses : selector.Uses cells) (site : Site) (type : TypeExpr) :
      Working cells (Strategy.chosenConstructor cell selector site type)
  | method {cell : Cell} (own : cells cell) {selector : Selector Method}
      (uses : selector.Uses cells) (site : Site) (type : TypeExpr) :
      Working cells (Strategy.chosenMethod cell selector site type)
  | lookUp (cell : Cell) (key : MemoKey) : Working cells (Strategy.lookUp cell key)
  | compute {cell : Cell} (own : cells cell) (key : MemoKey) :
      Working cells (Store.record (.computed cell key))
  | recalled {cell : Cell} (own : cells cell) (key : MemoKey) (value : Value) :
      Working cells (Store.record (.recalled cell key value))
  | memo {cell : Cell} (own : cells cell) (key : MemoKey) (value : Value) :
      Working cells (Strategy.keepMemo cell key value)

namespace Step

variable {α : Type} {cells : Cell → Prop}

/-- A choice that is not remembered yet takes a search, and one that is takes nothing. -/
theorem moves_settle {remembered : Store → Option (Option α)}
    {keep : Option α → Store → Store} {cell : Cell} {name : String} {search : Step (Option α)}
    (searching : Searching cells search)
    (keeps : ∀ {store searched : Store} (choice : Option α), remembered store = none →
      Store.Searched cells (Store.record (.selected cell name) store).2 searched →
      Store.Move cells store (keep choice searched)) (store : Store) :
    Store.Moves cells store
      (Store.settle remembered keep (do Store.record (.selected cell name); search) store).2 := by
  cases known : remembered store with
  | some choice =>
      rw [Store.settle_of_known known]
  | none =>
      rw [Store.settle_of_unknown known]
      exact .single (keeps _ known (searching.searched _))

theorem moves_chosenConstructor {cell : Cell} (own : cells cell)
    {selector : Selector Constructor} (uses : selector.Uses cells) (site : Site)
    (type : TypeExpr) (store : Store) :
    Store.Moves cells store (Strategy.chosenConstructor cell selector site type store).2 := by
  unfold Strategy.chosenConstructor
  cases Strategy.constructedClass? type with
  | none => exact .refl
  | some c =>
      exact moves_settle (searching_select uses site _)
        (fun choice unknown search => .constructor own unknown search choice) store

theorem moves_chosenMethod {cell : Cell} (own : cells cell) {selector : Selector Method}
    (uses : selector.Uses cells) (site : Site) (type : TypeExpr) (store : Store) :
    Store.Moves cells store (Strategy.chosenMethod cell selector site type store).2 := by
  unfold Strategy.chosenMethod
  cases Strategy.manufacturedClass? type with
  | none => exact .refl
  | some c =>
      exact moves_settle (searching_select uses site _)
        (fun choice unknown search => .method own unknown search choice) store

/-- Wherever it is taken, the step comes to moves. -/
theorem Working.moves {step : Step α} (working : Working cells step) (store : Store) :
    Store.Moves cells store (step store).2 := by
  induction working generalizing store with
  | search searching => exact .single (.search (searching.searched store))
  | bind first second begins goesOn => exact (begins store).trans (goesOn _ _)
  | create content => exact .single (.create store)
  | note entry => exact .single (.note entry store)
  | request type site => exact .single (.request type site store)
  | number own => exact .single (.number own store)
  | constructor own uses site type => exact moves_chosenConstructor own uses site type store
  | method own uses site type => exact moves_chosenMethod own uses site type store
  | lookUp cell key => exact .refl
  | compute own key => exact .single (.compute own key store)
  | recalled own key value => exact .single (.recalled own key value store)
  | memo own key value => exact .single (.memo own key value store)

theorem Working.pure (result : α) : Working cells (Pure.pure result : Step α) :=
  .search (.pure result)

theorem working_carryOut (reply : Reply) : Working cells (Store.carryOut reply) := by
  cases reply with
  | existing value => exact .pure _
  | fresh content => exact .bind (.create content) fun _ => .pure _
  | noted entry => exact .bind (.note entry) fun _ => .bind (.create .unit) fun _ => .pure _
  | failed message => exact .pure _

theorem working_carryOutSetter (reply : SetterReply) :
    Working cells (Store.carryOutSetter reply) := by
  rcases reply with message | (_ | entry)
  · exact .pure _
  · exact .pure _
  · exact .bind (.note entry) fun _ => .pure _

/-- Accepting or declining a request is work in the cells of the strategy. -/
theorem working_accepts {strategy : Strategy} (owned : strategy.OwnedBy cells) (site : Site)
    (type : TypeExpr) : Working cells (strategy.accepts site type) := by
  induction strategy with
  | defaultValue | constant | supplied | nullValue | optional | collection | map | array
  | implementation | chain => exact .pure _
  | constructor cell selector =>
      exact .bind (.constructor owned.1 owned.2 site type) fun _ => .pure _
  | factoryMethod cell selector =>
      exact .bind (.method owned.1 owned.2 site type) fun _ => .pure _
  | enumValue selector =>
      exact .bind (.search (searching_chosenConstant owned site type)) fun _ => .pure _
  | memoizing cell inner discriminator ih => exact ih owned.2
  | conditional inner condition ih =>
      refine .bind (ih owned) fun accepted => ?_
      cases accepted
      · exact .pure false
      · exact .search (.heed _)
  | enhancing inner enhancer ih => exact ih owned

end Step
end TestData
