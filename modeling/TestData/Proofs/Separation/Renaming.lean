import TestData.Value.Invocation
import Mathlib.Logic.Function.Basic

namespace TestData

/-!
# Values up to the identity of objects

Renaming changes the identities of the objects that data is made of, and nothing else.
How far the identities in some data reach can be told by renaming, too: they are below a
bound if moving everything from the bound on changes nothing.

A member that is called cannot make up identities.  It may hand over what it is given,
what was there when its class was described, and contents for new objects made of these.
So its answer to renamed arguments is its renamed answer, as long as the renaming leaves
alone what was there before.  That is what it takes for a member to be pure here.
-/

/-- Move all identities from a bound on. -/
def past (bound identity : Nat) : Nat :=
  if identity < bound then identity else identity + 1

theorem past_eq_self_iff {bound identity : Nat} : past bound identity = identity ↔ identity < bound := by
  unfold past
  split <;> omega

theorem past_injective (bound : Nat) : Function.Injective (past bound) := by
  intro a b same
  unfold past at same
  split at same <;> split at same <;> omega

/-- Data with objects in it. -/
class Renamable (α : Type) where
  /-- The data with all identities changed. -/
  rename : (Nat → Nat) → α → α
  rename_id (data : α) : rename id data = data
  rename_congr {bound : Nat} {change other : Nat → Nat} {data : α} :
    rename (past bound) data = data → (∀ identity < bound, change identity = other identity) →
      rename change data = rename other data

namespace Renamable

variable {α β : Type} [Renamable α] [Renamable β] {bound more : Nat} {change other : Nat → Nat}

/-- All identities in the data are below a bound. -/
def Below (bound : Nat) (data : α) : Prop :=
  rename (past bound) data = data

theorem Below.rename_congr {data : α} (below : Below bound data)
    (agree : ∀ identity < bound, change identity = other identity) :
    rename change data = rename other data :=
  Renamable.rename_congr below agree

/-- Data stays as it is if its identities do. -/
theorem Below.rename_eq {data : α} (below : Below bound data)
    (fixed : ∀ identity < bound, change identity = identity) : rename change data = data :=
  (below.rename_congr fixed).trans (rename_id data)

theorem Below.mono {data : α} (below : Below bound data) (le : bound ≤ more) : Below more data :=
  below.rename_eq fun _ under => past_eq_self_iff.mpr (Nat.lt_of_lt_of_le under le)

omit [Renamable α] in
theorem map_eq_self_iff {items : List α} {change : α → α} :
    items.map change = items ↔ ∀ item ∈ items, change item = item := by
  rw [← List.map_id items, List.map_map]
  exact List.map_inj_left.trans (by simp)

instance : Renamable (List α) where
  rename change items := items.map (rename change)
  rename_id items := by
    rw [funext (rename_id (α := α))]
    exact List.map_id items
  rename_congr {bound change other items} below agree := by
    have each : ∀ item ∈ items, rename (past bound) item = item := fun item member =>
      map_eq_self_iff.mp below item member
    exact List.map_congr_left fun item member => Renamable.rename_congr (each item member) agree

instance : Renamable (Option α) where
  rename change := Option.map (rename change)
  rename_id item := by cases item <;> simp [rename_id]
  rename_congr {bound change other item} below agree := by
    cases item with
    | none => rfl
    | some item =>
        have inner : rename (past bound) item = item := Option.some.inj below
        exact congrArg some (Renamable.rename_congr inner agree)

instance : Renamable (α × β) where
  rename change pair := (rename change pair.1, rename change pair.2)
  rename_id pair := Prod.ext (rename_id pair.1) (rename_id pair.2)
  rename_congr below agree :=
    Prod.ext (Renamable.rename_congr (congrArg Prod.fst below) agree)
      (Renamable.rename_congr (congrArg Prod.snd below) agree)

theorem below_list_iff {items : List α} :
    Below bound items ↔ ∀ item ∈ items, Below bound item :=
  map_eq_self_iff

end Renamable

/-! ## Renamed values -/

mutual

def Value.renamed (change : Nat → Nat) : Value → Value
  | .null => .null
  | .object identity content => .object (change identity) (content.renamed change)

def Content.renamed (change : Nat → Nat) : Content → Content
  | .list items => .list (renamedItems change items)
  | .deque items => .deque (renamedItems change items)
  | .entries pairs => .entries (renamedPairs change pairs)
  | .option item => .option (renamedItem change item)
  | .made className maker arguments => .made className maker (renamedItems change arguments)
  | .number kind amount => .number kind amount
  | .text characters => .text characters
  | .truth flag => .truth flag
  | .character symbol => .character symbol
  | .unit => .unit
  | .chain length => .chain length
  | .atomicFlag flag => .atomicFlag flag
  | .atomicNumber kind amount => .atomicNumber kind amount
  | .instant seconds => .instant seconds
  | .duration nanoseconds => .duration nanoseconds

def renamedItems (change : Nat → Nat) : List Value → List Value
  | [] => []
  | item :: items => item.renamed change :: renamedItems change items

def renamedPairs (change : Nat → Nat) : List (Value × Value) → List (Value × Value)
  | [] => []
  | (key, value) :: pairs =>
      (key.renamed change, value.renamed change) :: renamedPairs change pairs

def renamedItem (change : Nat → Nat) : Option Value → Option Value
  | none => none
  | some item => some (item.renamed change)

end

mutual

theorem Value.renamed_id (value : Value) : value.renamed id = value := by
  cases value with
  | null => rfl
  | object identity content => exact congrArg (Value.object identity) content.renamed_id

theorem Content.renamed_id (content : Content) : content.renamed id = content := by
  cases content with
  | list items => exact congrArg Content.list (renamedItems_id items)
  | deque items => exact congrArg Content.deque (renamedItems_id items)
  | entries pairs => exact congrArg Content.entries (renamedPairs_id pairs)
  | option item => exact congrArg Content.option (renamedItem_id item)
  | made className maker arguments =>
      exact congrArg (Content.made className maker) (renamedItems_id arguments)
  | _ => rfl

theorem renamedItems_id (items : List Value) : renamedItems id items = items := by
  cases items with
  | nil => rfl
  | cons item items => exact congrArg₂ List.cons item.renamed_id (renamedItems_id items)

theorem renamedPairs_id (pairs : List (Value × Value)) : renamedPairs id pairs = pairs := by
  cases pairs with
  | nil => rfl
  | cons pair pairs =>
      obtain ⟨key, value⟩ := pair
      exact congrArg₂ List.cons (Prod.ext key.renamed_id value.renamed_id) (renamedPairs_id pairs)

theorem renamedItem_id (item : Option Value) : renamedItem id item = item := by
  cases item with
  | none => rfl
  | some item => exact congrArg some item.renamed_id

end

section

variable {bound : Nat} {change other : Nat → Nat}

mutual

theorem Value.renamed_congr (agree : ∀ identity < bound, change identity = other identity)
    {value : Value} (below : value.renamed (past bound) = value) :
    value.renamed change = value.renamed other := by
  cases value with
  | null => rfl
  | object identity content =>
      injection below with here inside
      have same := agree identity (past_eq_self_iff.mp here)
      exact congrArg₂ Value.object same (Content.renamed_congr agree inside)

theorem Content.renamed_congr (agree : ∀ identity < bound, change identity = other identity)
    {content : Content} (below : content.renamed (past bound) = content) :
    content.renamed change = content.renamed other := by
  cases content with
  | list items => exact congrArg Content.list (renamedItems_congr agree (Content.list.inj below))
  | deque items => exact congrArg Content.deque (renamedItems_congr agree (Content.deque.inj below))
  | entries pairs =>
      exact congrArg Content.entries (renamedPairs_congr agree (Content.entries.inj below))
  | option item => exact congrArg Content.option (renamedItem_congr agree (Content.option.inj below))
  | made className maker arguments =>
      exact congrArg (Content.made className maker)
        (renamedItems_congr agree (Content.made.inj below).2.2)
  | _ => rfl

theorem renamedItems_congr (agree : ∀ identity < bound, change identity = other identity)
    {items : List Value} (below : renamedItems (past bound) items = items) :
    renamedItems change items = renamedItems other items := by
  cases items with
  | nil => rfl
  | cons item items =>
      injection below with here later
      exact congrArg₂ List.cons (Value.renamed_congr agree here) (renamedItems_congr agree later)

theorem renamedPairs_congr (agree : ∀ identity < bound, change identity = other identity)
    {pairs : List (Value × Value)} (below : renamedPairs (past bound) pairs = pairs) :
    renamedPairs change pairs = renamedPairs other pairs := by
  cases pairs with
  | nil => rfl
  | cons pair pairs =>
      obtain ⟨key, value⟩ := pair
      injection below with here later
      injection here with left right
      exact congrArg₂ List.cons
        (Prod.ext (Value.renamed_congr agree left) (Value.renamed_congr agree right))
        (renamedPairs_congr agree later)

theorem renamedItem_congr (agree : ∀ identity < bound, change identity = other identity)
    {item : Option Value} (below : renamedItem (past bound) item = item) :
    renamedItem change item = renamedItem other item := by
  cases item with
  | none => rfl
  | some item => exact congrArg some (Value.renamed_congr agree (Option.some.inj below))

end

end

instance : Renamable Value where
  rename := Value.renamed
  rename_id := Value.renamed_id
  rename_congr below agree := Value.renamed_congr agree below

instance : Renamable Content where
  rename := Content.renamed
  rename_id := Content.renamed_id
  rename_congr below agree := Content.renamed_congr agree below

theorem renamedItems_eq (change : Nat → Nat) (items : List Value) :
    renamedItems change items = Renamable.rename change items := by
  induction items with
  | nil => rfl
  | cons item items ih => exact congrArg (List.cons _) ih

theorem renamedPairs_eq (change : Nat → Nat) (pairs : List (Value × Value)) :
    renamedPairs change pairs = Renamable.rename change pairs := by
  induction pairs with
  | nil => rfl
  | cons pair pairs ih => exact congrArg (List.cons _) ih

theorem renamedItem_eq (change : Nat → Nat) (item : Option Value) :
    renamedItem change item = Renamable.rename change item := by
  cases item <;> rfl

/-- An object is made of its identity and of what is in its content. -/
theorem below_object_iff {bound identity : Nat} {content : Content} :
    Renamable.Below bound (Value.object identity content) ↔
      identity < bound ∧ Renamable.Below bound content := by
  rw [← past_eq_self_iff]
  show Value.object (past bound identity) (content.renamed (past bound)) = _ ↔ _
  rw [Value.object.injEq]
  rfl

/-! ## Renamed replies -/

def Entry.renamed (change : Nat → Nat) (entry : Entry) : Entry :=
  ⟨change entry.identity,
    { entry.note with arguments := Renamable.rename change entry.note.arguments }⟩

def Reply.renamed (change : Nat → Nat) : Reply → Reply
  | .existing value => .existing (Renamable.rename change value)
  | .fresh content => .fresh (Renamable.rename change content)
  | .noted entry => .noted (entry.renamed change)
  | .failed message => .failed message

instance : Renamable Reply where
  rename := Reply.renamed
  rename_id reply := by
    cases reply with
    | existing value => exact congrArg Reply.existing (Renamable.rename_id value)
    | fresh content => exact congrArg Reply.fresh (Renamable.rename_id content)
    | noted entry =>
        obtain ⟨identity, use, member, arguments⟩ := entry
        exact congrArg (fun renamed => Reply.noted ⟨identity, use, member, renamed⟩)
          (Renamable.rename_id arguments)
    | failed message => rfl
  rename_congr {bound change other reply} below agree := by
    cases reply with
    | existing value =>
        exact congrArg Reply.existing (Renamable.rename_congr (Reply.existing.inj below) agree)
    | fresh content =>
        exact congrArg Reply.fresh (Renamable.rename_congr (Reply.fresh.inj below) agree)
    | noted entry =>
        obtain ⟨identity, use, member, arguments⟩ := entry
        injection below with same
        injection same with here note
        injection note with _ _ inside
        have identities := agree identity (past_eq_self_iff.mp here)
        have renamed := Renamable.rename_congr inside agree
        exact congrArg₂ (fun identity arguments => Reply.noted ⟨identity, use, member, arguments⟩)
          identities renamed
    | failed message => rfl

/-! ## Pure functions -/

namespace Renamable

variable {α β : Type} [Renamable α] [Renamable β] {old more : Nat} {f : α → β}

/--
The function treats all identities alike, apart from those that were there before: what
it makes of renamed data is what it makes of the data, renamed.
-/
def Pure (old : Nat) (f : α → β) : Prop :=
  ∀ change : Nat → Nat, Function.Injective change →
    (∀ identity < old, change identity = identity) →
      ∀ data, f (rename change data) = rename change (f data)

theorem Pure.mono (pure : Pure old f) (le : old ≤ more) : Pure more f :=
  fun change injective fixed => pure change injective fun identity before => fixed identity (by omega)

/-- A pure function does not make up identities. -/
theorem Pure.below (pure : Pure old f) {bound : Nat} (le : old ≤ bound) {data : α}
    (below : Below bound data) : Below bound (f data) := by
  have fixed : ∀ identity < old, past bound identity = identity :=
    fun identity before => past_eq_self_iff.mpr (by omega)
  exact (pure _ (past_injective bound) fixed data).symm.trans (congrArg f below)

/-! Contents are built from values without a look at them. -/

theorem pure_list (old : Nat) : Pure old Content.list :=
  fun _ _ _ items => congrArg Content.list (renamedItems_eq _ items).symm

theorem pure_deque (old : Nat) : Pure old Content.deque :=
  fun _ _ _ items => congrArg Content.deque (renamedItems_eq _ items).symm

theorem pure_entries (old : Nat) : Pure old Content.entries :=
  fun _ _ _ pairs => congrArg Content.entries (renamedPairs_eq _ pairs).symm

theorem pure_option (old : Nat) : Pure old Content.option :=
  fun _ _ _ item => congrArg Content.option (renamedItem_eq _ item).symm

end Renamable

/-- A new instance has nothing in it but the arguments. -/
theorem Invoker.pure_making (old : Nat) (className maker : String) :
    Renamable.Pure old (making className maker) :=
  fun _ _ _ arguments =>
    congrArg (fun arguments => Reply.fresh (.made className maker arguments))
      (renamedItems_eq _ arguments).symm

end TestData
