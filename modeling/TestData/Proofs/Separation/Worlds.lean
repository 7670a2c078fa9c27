import Mathlib.Logic.Function.Basic
import TestData.Chain.Assembly
import TestData.Proofs.Separation.Serving

namespace TestData

/-!
# Worlds with several chains

Chains are made and asked for stubs in any order, all of them on one store.  Seen from one
of them, what the others do comes to this: identities are used up, and tables change in
cells that are not its own.  So the world in which the others are left alone mirrors the
world in which they are not, with a renaming that is adjusted each time another chain was
asked.  That is an invariant of single acts, and so of all their sequences.
-/

open Renamable

/-! ## Acts -/

/-- A stub is asked for, with or without an error if no strategy accepts the request. -/
inductive Demand where
  | stub (wanted : Request) (depth : Nat)
  | tryToStub (wanted : Request) (depth : Nat)

namespace Demand

def wanted : Demand → Request
  | .stub wanted _ | .tryToStub wanted _ => wanted

def depth : Demand → Nat
  | .stub _ depth | .tryToStub _ depth => depth

/-- What a host does on demand. -/
def ask (host : Host) : Demand → Run (Option Value)
  | .stub wanted _ => do return some (← host.request wanted)
  | .tryToStub wanted _ => host.resolve wanted

/-- What a chain does on demand. -/
def serve (chain : Chain) (demand : Demand) : Run (Option Value) :=
  demand.ask (chain.hostWithin demand.depth)

/-- A chain moves the store in its own cells. -/
theorem moves_serve {chain : Chain} {cells : Cell → Prop} (owned : chain.OwnedBy cells)
    (demand : Demand) (store : Store) :
    Store.Moves cells store (Run.left (demand.serve chain store)) := by
  have asks : Operates (.keepingTo cells) fun host => demand.ask host := by
    cases demand with
    | stub wanted depth => exact .bind (.request trivial) fun value => .pure (some value)
    | tryToStub wanted depth => exact .resolve trivial
  exact asks.moves (fun _ => trivial) (chain.hostWithin demand.depth)
    (fun wanted _ store => Chain.moves_resolveWithin owned demand.depth wanted store) store

variable {graph : ClassGraph} {old known : Nat} {frame : Frame graph old}

/-- In mirrored stores a demand comes to the same, up to renaming. -/
theorem mirrored_serve {chain counterpart : Chain}
    (couples : frame.CouplesChains known chain counterpart) (reached : old ≤ known)
    {demand : Demand} (within : demand.wanted.type.Within graph.contains) :
    Run.Mirrored frame known (demand.serve chain) (demand.serve counterpart) := by
  have serves := couples.serves reached demand.depth
  cases demand with
  | stub wanted depth =>
      exact .bind (serves.request within wanted.site) fun le below => .pure (congrArg some below)
  | tryToStub wanted depth => exact serves.resolve within

end Demand

/-- What a demand comes to: a stub, or none if there is none to be had, or a failure. -/
abbrev Answer := Except Failure (Option Value)

/-- The answer in an outcome. -/
def Run.answer {α : Type} : EStateM.Result Failure Store α → Except Failure α
  | .ok result _ => .ok result
  | .error failure _ => .error failure

/-- Chains under their names, and the store on which they all work. -/
structure World (ι : Type) where
  chains : ι → Chain
  store : Store

/-- The world without chains. -/
def World.new {ι : Type} (store : Store) : World ι where
  chains _ := Chain.empty
  store := store

/-- A chain is made under a name, or a stub is asked for at a chain. -/
inductive Act (ι : Type) where
  | make (name : ι) (step : Step Chain)
  | ask (name : ι) (demand : Demand)

variable {ι : Type} [DecidableEq ι]

namespace Act

/-- Whether the act is left when the others are not asked for stubs. -/
def concerns (name : ι) : Act ι → Bool
  | .make .. => true
  | .ask other _ => other = name

/-- The world after an act. -/
def after : Act ι → World ι → World ι
  | .make name step, world =>
      ⟨Function.update world.chains name (step world.store).1, (step world.store).2⟩
  | .ask name demand, world =>
      ⟨world.chains, Run.left (demand.serve (world.chains name) world.store)⟩

/-- The answer that the chain of a name gives. -/
def answer? (name : ι) : Act ι → World ι → Option Answer
  | .make .., _ => none
  | .ask other demand, world =>
      if other = name then some (Run.answer (demand.serve (world.chains name) world.store))
      else none

end Act

namespace World

/-- The world after some acts, one after the other. -/
def after : List (Act ι) → World ι → World ι
  | [], world => world
  | act :: rest, world => after rest (act.after world)

/-- The answers that the chain of a name gives, in order. -/
def answers (name : ι) : List (Act ι) → World ι → List Answer
  | [], _ => []
  | act :: rest, world => (act.answer? name world).toList ++ answers name rest (act.after world)

end World

instance {ε α : Type} [Renamable α] : Renamable (Except ε α) where
  rename change := Except.map (rename change)
  rename_id outcome := by
    cases outcome with
    | error failure => rfl
    | ok result => exact congrArg Except.ok (rename_id result)
  rename_congr {bound change other outcome} below agree := by
    cases outcome with
    | error failure => rfl
    | ok result => exact congrArg Except.ok (Renamable.rename_congr (Except.ok.inj below) agree)

variable {graph : ClassGraph} {old : Nat}

/-- The frame of a store and the store itself. -/
def Frame.same (graph : ClassGraph) (old : Nat) (cells : Cell → Prop) : Frame graph old where
  cells := cells
  change := id
  injective := Function.injective_id
  fixed _ _ := rfl

/-- The stores that are left are mirrored, and the answer is the same, renamed. -/
theorem Frame.Reflects.parts {frame : Frame graph old} {α : Type} [Renamable α] {known : Nat}
    {outcome other : EStateM.Result Failure Store α} (reflects : frame.Reflects known outcome other) :
    known ≤ (Run.left outcome).nextIdentity ∧ frame.Mirrors (Run.left outcome) (Run.left other) ∧
      Below (Run.left outcome).nextIdentity (Run.answer outcome) ∧
      Run.answer other = rename frame.change (Run.answer outcome) := by
  cases reflects with
  | ok mirrors grows below => exact ⟨grows, mirrors, congrArg Except.ok below, rfl⟩
  | error mirrors grows => exact ⟨grows, mirrors, rfl, rfl⟩

/-! ## Moves in foreign cells -/

/-- Nothing happened in these cells, no cell was handed out, and no identity came back. -/
structure Store.Beside (cells : Cell → Prop) (before after : Store) : Prop where
  agree : Store.Agree cells before after
  nextCell : after.nextCell = before.nextCell
  grows : before.nextIdentity ≤ after.nextIdentity

namespace Store.Beside

variable {cells own : Cell → Prop} {before between after : Store}

theorem refl (store : Store) : Beside cells store store :=
  ⟨.refl store, rfl, Nat.le_refl _⟩

theorem trans (first : Beside cells before between) (second : Beside cells between after) :
    Beside cells before after :=
  ⟨first.agree.trans second.agree, second.nextCell.trans first.nextCell,
    Nat.le_trans first.grows second.grows⟩

/-- What a search leaves alone is all but generators. -/
theorem search (apart : ∀ cell, cells cell → ¬ own cell) (searched : Searched own before after) :
    Beside cells before after := by
  have constructors : after.constructors = before.constructors := by rw [searched.rest]
  have methods : after.methods = before.methods := by rw [searched.rest]
  have counters : after.counters = before.counters := by rw [searched.rest]
  have cell : after.nextCell = before.nextCell := by rw [searched.rest]
  have identity : after.nextIdentity = before.nextIdentity := by rw [searched.rest]
  exact ⟨⟨.of_eq constructors, .of_eq methods, .of_eq counters,
    fun cell mine => searched.draws (apart cell mine)⟩, cell, Nat.le_of_eq identity.symm⟩

theorem of_move (apart : ∀ cell, cells cell → ¬ own cell) (move : Move own before after) :
    Beside cells before after := by
  cases move with
  | search searched => exact search apart searched
  | create => exact ⟨⟨.refl _, .refl _, .refl _, .refl _⟩, rfl, Nat.le_succ _⟩
  | note | request | compute | recalled | memo =>
      exact ⟨⟨.refl _, .refl _, .refl _, .refl _⟩, rfl, Nat.le_refl _⟩
  | @number cell used =>
      have counted : Table.Agree cells before.counters (before.counters.insert cell
          ((before.counters.find? cell).getD 0 + 1)) :=
        .insert_foreign fun mine => apart cell mine used
      exact ⟨⟨.refl _, .refl _, counted, .refl _⟩, rfl, Nat.le_refl _⟩
  | @constructor cell used name _ searched unknown look choice =>
      have looked := search apart look
      have settled : Table.Agree (fun slot : Cell × String => cells slot.1) searched.constructors
          (searched.constructors.insert (cell, name) choice) :=
        .insert_foreign fun mine => apart cell mine used
      exact ⟨⟨looked.agree.constructors.trans settled, looked.agree.methods,
        looked.agree.counters, looked.agree.draws⟩, looked.nextCell, looked.grows⟩
  | @method cell used name _ searched unknown look choice =>
      have looked := search apart look
      have settled : Table.Agree (fun slot : Cell × String => cells slot.1) searched.methods
          (searched.methods.insert (cell, name) choice) :=
        .insert_foreign fun mine => apart cell mine used
      exact ⟨⟨looked.agree.constructors, looked.agree.methods.trans settled,
        looked.agree.counters, looked.agree.draws⟩, looked.nextCell, looked.grows⟩

theorem of_moves (apart : ∀ cell, cells cell → ¬ own cell) (moves : Moves own before after) :
    Beside cells before after := by
  induction moves with
  | refl => exact .refl before
  | tail _ move ih => exact ih.trans (of_move apart move)

end Store.Beside

/-! ## Recipes -/

/--
How a chain is made: so many cells and so many objects are taken, and all else is a
matter of where the cells begin and where the identities do.
-/
structure Chain.Recipe where
  cells : Nat
  objects : Nat
  chain (cell identity : Nat) : Chain
  separable (cell identity : Nat) :
    (chain cell identity).Separable (fun own => cell ≤ own.number ∧ own.number < cell + cells)
      (identity + objects)
  renamed {change : Nat → Nat} (cell : Nat) {identity other : Nat} :
    (∀ ahead, change (identity + ahead) = other + ahead) →
      chain cell other = (chain cell identity).renamed change

/-- Make a chain by a recipe. -/
def Chain.Recipe.step (recipe : Chain.Recipe) : Step Chain := fun store =>
  (recipe.chain store.nextCell store.nextIdentity,
    { store with
      nextCell := store.nextCell + recipe.cells
      nextIdentity := store.nextIdentity + recipe.objects })

/-! ## The invariant -/

namespace Frame

/-- The frame in which the identities from a bound on go from another one on. -/
def shift (frame : Frame graph old) (bound start : Nat) (reached : old ≤ bound)
    (under : ∀ identity < bound, frame.change identity < start) : Frame graph old where
  cells := frame.cells
  change identity :=
    if identity < bound then frame.change identity else start + (identity - bound)
  injective := by
    intro first second same
    dsimp only at same
    split at same <;> split at same
    · exact frame.injective same
    · next before _ =>
        have lower := under first before
        omega
    · next _ before =>
        have lower := under second before
        omega
    · omega
  fixed identity before := by
    rw [if_pos (Nat.lt_of_lt_of_le before reached)]
    exact frame.fixed identity before

end Frame

/-- Serving requests hands out no cells. -/
theorem Demand.nextCell_serve (chain : Chain) (demand : Demand) (store : Store) :
    (Run.left (demand.serve chain store)).nextCell = store.nextCell := by
  have moves := demand.moves_serve chain.ownedBy_all store
  have apart : ∀ cell : Cell, False → ¬ True := nofun
  exact (Store.Beside.of_moves apart moves).nextCell

/--
The chain of a name is in the same state in both worlds, up to the renaming, whatever the
other chains are like.  No other chain uses the cells of the frame, and cells that were
not handed out yet are among these.
-/
structure World.Separated (frame : Frame graph old) (name : ι) (alone together : World ι) :
    Prop where
  mirrors : frame.Mirrors alone.store together.store
  nextCell : together.store.nextCell = alone.store.nextCell
  unused {cell : Cell} : alone.store.nextCell ≤ cell.number → frame.cells cell
  others {other : ι} : other ≠ name → (together.chains other).OwnedBy fun cell => ¬ frame.cells cell
  separable : (alone.chains name).Separable
    (fun cell => frame.cells cell ∧ cell.number < alone.store.nextCell) alone.store.nextIdentity
  renamed : together.chains name = (alone.chains name).renamed frame.change

namespace World.Separated

variable {frame : Frame graph old} {name : ι} {alone together : World ι}

/-- The chain is asked in both worlds. -/
theorem ask_own (separated : Separated frame name alone together) (pure : graph.Pure old)
    {demand : Demand} (within : demand.wanted.type.Within graph.contains) :
    let outcome := demand.serve (alone.chains name) alone.store
    let other := demand.serve (together.chains name) together.store
    Separated frame name ((Act.ask name demand).after alone) ((Act.ask name demand).after together) ∧
      alone.store.nextIdentity ≤ (Run.left outcome).nextIdentity ∧
      Below (Run.left outcome).nextIdentity (Run.answer outcome) ∧
      Run.answer other = rename frame.change (Run.answer outcome) := by
  intro outcome other
  have separable := separated.separable.mono (fun cell used => used.1) (Nat.le_refl _)
  have reflects : frame.Reflects alone.store.nextIdentity outcome other := by
    have mirrored := Demand.mirrored_serve (separable.couples pure) separated.mirrors.reached within
      alone.store together.store separated.mirrors (Nat.le_refl _)
    rwa [← separated.renamed] at mirrored
  have quiet : (Run.left outcome).nextCell = alone.store.nextCell := Demand.nextCell_serve _ demand _
  have still : (Run.left other).nextCell = together.store.nextCell := Demand.nextCell_serve _ demand _
  rcases reflects.parts with ⟨grows, mirrors, below, same⟩
  refine ⟨⟨mirrors, ?_, fun fresh => ?_, separated.others, ?_, separated.renamed⟩,
    grows, below, same⟩
  · exact still.trans (separated.nextCell.trans quiet.symm)
  · exact separated.unused (quiet ▸ fresh)
  · refine separated.separable.mono (fun cell used => ⟨used.1, ?_⟩) grows
    exact Nat.lt_of_lt_of_eq used.2 quiet.symm

/-- Another chain is asked in the one world only; then objects come later in this world. -/
theorem ask_other (separated : Separated frame name alone together) {other : ι}
    (foreign : other ≠ name) (demand : Demand) :
    ∃ next : Frame graph old,
      (∀ identity < alone.store.nextIdentity, next.change identity = frame.change identity) ∧
      Separated next name alone ((Act.ask other demand).after together) := by
  have moves := demand.moves_serve (separated.others foreign) together.store
  have beside := Store.Beside.of_moves (fun cell mine theirs => theirs mine) moves
  have under : ∀ identity < alone.store.nextIdentity,
      frame.change identity < (Run.left (demand.serve (together.chains other)
        together.store)).nextIdentity :=
    fun identity made => Nat.lt_of_lt_of_le (separated.mirrors.change_lt made) beside.grows
  have agree : ∀ identity < alone.store.nextIdentity,
      (frame.shift _ _ separated.mirrors.reached under).change identity = frame.change identity :=
    fun identity made => if_pos made
  refine ⟨frame.shift _ _ separated.mirrors.reached under, agree, ?_⟩
  constructor
  · refine ⟨fun ahead => ?_, separated.mirrors.reached, ?_, separated.mirrors.settled, trivial⟩
    · refine (if_neg (by omega)).trans ?_
      rw [Nat.add_sub_cancel_left]
      rfl
    · exact separated.mirrors.agree.trans beside.agree
  · exact beside.nextCell.trans separated.nextCell
  · exact separated.unused
  · exact separated.others
  · exact separated.separable
  · exact separated.renamed.trans (separated.separable.renamed_congr agree).symm

/-- The chain is made, in both worlds by the same recipe. -/
theorem make_own (separated : Separated frame name alone together) (recipe : Chain.Recipe) :
    Separated frame name ((Act.make name recipe.step).after alone)
      ((Act.make name recipe.step).after together) := by
  constructor
  · exact separated.mirrors.allocate _ _ recipe.objects
  · exact congrArg (· + recipe.cells) separated.nextCell
  · exact fun fresh => separated.unused (Nat.le_of_add_right_le fresh)
  · intro other foreign
    simp only [Act.after, Function.update_of_ne foreign]
    exact separated.others foreign
  · simp only [Act.after, Function.update_self]
    exact (recipe.separable _ _).mono (fun cell own => ⟨separated.unused own.1, own.2⟩)
      (Nat.le_refl _)
  · simp only [Act.after, Function.update_self, Chain.Recipe.step, separated.nextCell]
    exact recipe.renamed _ separated.mirrors.identities

/-- The cells of a frame, without those that are handed out next. -/
def remaining (frame : Frame graph old) (store : Store) (recipe : Chain.Recipe) (cell : Cell) : Prop :=
  frame.cells cell ∧ ¬ (store.nextCell ≤ cell.number ∧ cell.number < store.nextCell + recipe.cells)

/-- Another chain is made in both worlds; its cells are not looked at from then on. -/
theorem make_other (separated : Separated frame name alone together) {other : ι}
    (foreign : other ≠ name) (recipe : Chain.Recipe) :
    Separated (frame.narrow (remaining frame alone.store recipe)) name
      ((Act.make other recipe.step).after alone) ((Act.make other recipe.step).after together) := by
  have narrowed : ∀ cell, remaining frame alone.store recipe cell → frame.cells cell :=
    fun cell left => left.1
  constructor
  · exact (separated.mirrors.narrow narrowed).allocate _ _ recipe.objects
  · exact congrArg (· + recipe.cells) separated.nextCell
  · intro cell fresh
    have later : alone.store.nextCell + recipe.cells ≤ cell.number := fresh
    exact ⟨separated.unused (by omega), fun next => by omega⟩
  · intro third apart
    by_cases same : third = other
    · subst same
      simp only [Act.after, Function.update_self, Chain.Recipe.step, separated.nextCell]
      exact (recipe.separable _ _).ownedBy.mono fun cell own left => left.2 own
    · simp only [Act.after, Function.update_of_ne same]
      exact (separated.others apart).mono fun cell theirs left => theirs left.1
  · simp only [Act.after, Function.update_of_ne (Ne.symm foreign), Chain.Recipe.step]
    refine separated.separable.mono (fun cell used => ⟨⟨used.1, ?_⟩, ?_⟩) (Nat.le_add_right _ _)
    · exact fun next => by omega
    · exact Nat.lt_add_right _ used.2
  · simp only [Act.after, Function.update_of_ne (Ne.symm foreign)]
    exact separated.renamed

end World.Separated

/-! ## Steps and runs -/

/-- Chains are made by recipes, and stubs are asked for within the graph. -/
def Act.Allowed (graph : ClassGraph) : Act ι → Prop
  | .make _ step => ∃ recipe : Chain.Recipe, step = recipe.step
  | .ask _ demand => demand.wanted.type.Within graph.contains

namespace World.Separated

variable {frame : Frame graph old} {name : ι} {alone together : World ι} {act : Act ι}

/-- An act that is left in the world alone is done in both, with the same answer. -/
theorem step_of_concerns (separated : Separated frame name alone together) (pure : graph.Pure old)
    (allowed : act.Allowed graph) (concerns : act.concerns name = true) :
    ∃ next : Frame graph old,
      (∀ identity < alone.store.nextIdentity, next.change identity = frame.change identity) ∧
      Separated next name (act.after alone) (act.after together) ∧
      alone.store.nextIdentity ≤ (act.after alone).store.nextIdentity ∧
      Below (act.after alone).store.nextIdentity (act.answer? name alone) ∧
      act.answer? name together = rename next.change (act.answer? name alone) := by
  cases act with
  | make other step =>
      rcases allowed with ⟨recipe, rfl⟩
      have grows : alone.store.nextIdentity ≤
          ((Act.make other recipe.step).after alone).store.nextIdentity := Nat.le_add_right _ _
      by_cases same : other = name
      · subst same
        exact ⟨frame, fun _ _ => rfl, separated.make_own recipe, grows, rfl, rfl⟩
      · exact ⟨frame.narrow (remaining frame alone.store recipe), fun _ _ => rfl,
          separated.make_other same recipe, grows, rfl, rfl⟩
  | ask other demand =>
      have same : other = name := of_decide_eq_true concerns
      subst same
      rcases separated.ask_own pure allowed with ⟨left, grows, below, renamed⟩
      simp only [Act.answer?, if_pos]
      exact ⟨frame, fun _ _ => rfl, left, grows, congrArg some below, congrArg some renamed⟩

/-- What is left out in the world alone has no answer of the chain, and changes its view only. -/
theorem step_of_not_concerns (separated : Separated frame name alone together)
    (others : act.concerns name = false) :
    act.answer? name together = none ∧ ∃ next : Frame graph old,
      (∀ identity < alone.store.nextIdentity, next.change identity = frame.change identity) ∧
      Separated next name alone (act.after together) := by
  cases act with
  | make other step => cases others
  | ask other demand =>
      have foreign : other ≠ name := of_decide_eq_false others
      exact ⟨if_neg foreign, separated.ask_other foreign demand⟩

/-- By induction on the acts: the answers of a chain are those that it gives alone. -/
theorem run (separated : Separated frame name alone together) (pure : graph.Pure old)
    {acts : List (Act ι)} (allowed : ∀ act ∈ acts, act.Allowed graph) :
    ∃ last : Frame graph old,
      (∀ identity < alone.store.nextIdentity, last.change identity = frame.change identity) ∧
      Separated last name (World.after (acts.filter (Act.concerns name)) alone)
        (World.after acts together) ∧
      answers name acts together =
        rename last.change (answers name (acts.filter (Act.concerns name)) alone) := by
  induction acts generalizing frame alone together with
  | nil => exact ⟨frame, fun _ _ => rfl, separated, rfl⟩
  | cons act rest ih =>
      have later := fun other member => allowed other (List.mem_cons_of_mem act member)
      cases concerns : act.concerns name with
      | true =>
          rcases separated.step_of_concerns pure (allowed act List.mem_cons_self) concerns
            with ⟨next, agree, stepped, grows, below, renamed⟩
          rcases ih stepped later with ⟨last, agreeLater, ends, answered⟩
          rw [List.filter_cons_of_pos concerns]
          refine ⟨last, fun identity made => ?_, ends, ?_⟩
          · exact (agreeLater identity (Nat.lt_of_lt_of_le made grows)).trans (agree identity made)
          · have first : act.answer? name together
                = rename last.change (act.answer? name alone) :=
              renamed.trans (below.rename_congr fun identity made =>
                (agreeLater identity made).symm)
            rw [answers, answers, answered, first]
            cases act.answer? name alone <;> rfl
      | false =>
          have left : ¬ act.concerns name = true := by
            rw [concerns]
            exact Bool.false_ne_true
          rcases separated.step_of_not_concerns concerns with ⟨silent, next, agree, stepped⟩
          rcases ih stepped later with ⟨last, agreeLater, ends, answered⟩
          rw [List.filter_cons_of_neg left]
          refine ⟨last, fun identity made => ?_, ends, ?_⟩
          · exact (agreeLater identity made).trans (agree identity made)
          · rw [answers, silent, answered]
            rfl

end World.Separated
end TestData
