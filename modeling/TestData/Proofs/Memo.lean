import TestData.Proofs.Operations
import TestData.Strategy.Supplier

namespace TestData

/-!
# Memories over whole runs

A memory looks for a memo, lets its inner strategy work if there is none, and looks
again before it keeps what was made.  In between anything may happen: the inner strategy
may ask the host for stubs, and the host may come back to the same memory for the same
key.  What can be relied on all the same is a relation between the store before and the
store after, told through the events in between: memos stay, every value handed out is
the memo, and nothing is made for a key once its memo was handed out.
-/

namespace Store

/-- What can be relied on between two stores, given the events in between, latest first. -/
structure Remembers (before : Store) (news : List Event) (after : Store) : Prop where
  trace : after.trace = news ++ before.trace
  kept {slot : Cell × MemoKey} {value : Value} :
    before.memos.find? slot = some value → after.memos.find? slot = some value
  handedOut {cell : Cell} {key : MemoKey} {value : Value} :
    .recalled cell key value ∈ news → after.memos.find? (cell, key) = some value
  stored {cell : Cell} {key : MemoKey} {value : Value} :
    after.memos.find? (cell, key) = some value →
      before.memos.find? (cell, key) = some value ∨ .recalled cell key value ∈ news
  spared {cell : Cell} {key : MemoKey} {value : Value} :
    before.memos.find? (cell, key) = some value → .computed cell key ∉ news
  ordered : news.Pairwise fun later earlier =>
    ∀ cell key value, earlier = .recalled cell key value → later ≠ .computed cell key

namespace Remembers

variable {before between after : Store} {early late news : List Event}

/-- Of two stretches of a run, what was handed out in the first is a memo in the second. -/
theorem trans (first : Remembers before early between) (second : Remembers between late after) :
    Remembers before (late ++ early) after where
  trace := by rw [second.trace, first.trace, List.append_assoc]
  kept known := second.kept (first.kept known)
  handedOut member := by
    rcases List.mem_append.mp member with inLate | inEarly
    · exact second.handedOut inLate
    · exact second.kept (first.handedOut inEarly)
  stored known := by
    rcases second.stored known with there | inLate
    · rcases first.stored there with here | inEarly
      · exact Or.inl here
      · exact Or.inr (List.mem_append_right late inEarly)
    · exact Or.inr (List.mem_append_left early inLate)
  spared known member := by
    rcases List.mem_append.mp member with inLate | inEarly
    · exact second.spared (first.kept known) inLate
    · exact first.spared known inEarly
  ordered := by
    refine List.pairwise_append.mpr ⟨second.ordered, first.ordered, ?_⟩
    rintro later inLate earlier inEarly cell key value rfl rfl
    exact second.spared (first.handedOut inEarly) inLate

theorem refl (store : Store) : Remembers store [] store where
  trace := rfl
  kept known := known
  handedOut member := nomatch member
  stored known := Or.inl known
  spared _ member := nomatch member
  ordered := List.Pairwise.nil

/-- As long as no memo is in play, all is as it was. -/
theorem of_memos_eq (memos : after.memos = before.memos) (trace : after.trace = news ++ before.trace)
    (quiet : ∀ event ∈ news, event.isAboutMemos = false) : Remembers before news after where
  trace := trace
  kept known := memos ▸ known
  handedOut member := nomatch quiet _ member
  stored known := Or.inl (memos ▸ known)
  spared _ member := nomatch quiet _ member
  ordered := by
    apply List.pairwise_iff_forall_sublist.mpr
    rintro later earlier sublist cell key value rfl rfl
    exact nomatch quiet _ (sublist.subset List.mem_cons_self)

theorem computing {store : Store} {cell : Cell} {key : MemoKey}
    (unknown : store.memos.find? (cell, key) = none) :
    Remembers store [.computed cell key] (record (.computed cell key) store).2 where
  trace := rfl
  kept known := known
  handedOut member := nomatch List.mem_singleton.mp member
  stored known := Or.inl known
  spared known member := by
    cases List.mem_singleton.mp member
    rw [unknown] at known
    cases known
  ordered := List.pairwise_singleton _ _

theorem recalling {store : Store} {cell : Cell} {key : MemoKey} {value : Value}
    (known : store.memos.find? (cell, key) = some value) :
    Remembers store [.recalled cell key value] (record (.recalled cell key value) store).2 where
  trace := rfl
  kept there := there
  handedOut member := by
    cases List.mem_singleton.mp member
    exact known
  stored there := Or.inl there
  spared _ member := nomatch List.mem_singleton.mp member
  ordered := List.pairwise_singleton _ _

theorem remembering {store : Store} {cell : Cell} {key : MemoKey} (value : Value)
    (unknown : store.memos.find? (cell, key) = none) :
    Remembers store [.recalled cell key value]
      (record (.recalled cell key value)
        { store with memos := store.memos.insert (cell, key) value }).2 where
  trace := rfl
  kept {slot _} known := by
    have other : slot ≠ (cell, key) := by
      rintro rfl
      rw [unknown] at known
      cases known
    exact (store.memos.find?_insert_of_ne value other).trans known
  handedOut member := by
    cases List.mem_singleton.mp member
    exact store.memos.find?_insert_self (cell, key) value
  stored {otherCell otherKey _} known := by
    by_cases same : (otherCell, otherKey) = (cell, key)
    · cases same
      have inserted := (store.memos.find?_insert_self (cell, key) value).symm.trans known
      cases inserted
      exact Or.inr List.mem_cons_self
    · exact Or.inl ((store.memos.find?_insert_of_ne value same).symm.trans known)
  spared _ member := nomatch List.mem_singleton.mp member
  ordered := List.pairwise_singleton _ _

/-- Whatever a single change does, it can be relied on in this way. -/
theorem of_change (change : Change before after) : ∃ news, Remembers before news after := by
  cases change with
  | quiet quiet =>
      rcases quiet.trace with ⟨news, trace, none⟩
      exact ⟨news, of_memos_eq quiet.alike.memos trace none⟩
  | computing unknown => exact ⟨_, computing unknown⟩
  | recalling known => exact ⟨_, recalling known⟩
  | remembering value unknown => exact ⟨_, remembering value unknown⟩

end Remembers
end Store

/-! ## Every run can be relied on -/

namespace Course

/-- What memories can be relied on for; a failure is no excuse. -/
def remembering : Course where
  reaches before after := ∃ news, before.Remembers news after
  fails before _ after := ∃ news, before.Remembers news after
  refl store := ⟨[], .refl store⟩
  trans := by
    rintro before between after ⟨early, first⟩ ⟨late, second⟩
    exact ⟨late ++ early, first.trans second⟩
  reaches_of_fails fails := fails
  fails_after := by
    rintro before between after failure ⟨early, first⟩ ⟨late, second⟩
    exact ⟨late ++ early, first.trans second⟩
  change := Store.Remembers.of_change
  fails_ordinary store _ _ := ⟨[], .refl store⟩

theorem remembering_lenient : remembering.Lenient where
  constructors _ _ _ := ⟨[], .of_memos_eq rfl rfl (by simp)⟩
  methods _ _ _ := ⟨[], .of_memos_eq rfl rfl (by simp)⟩
  exhausts store := ⟨[], .refl store⟩

theorem remembering_givesUp (type : TypeExpr) (store : Store) : remembering.GivesUp type store :=
  fun _ after _ => ⟨[], .refl after⟩

theorem remembering_keeps_left {α : Type} {computation : Run α} {store : Store}
    (kept : remembering.Keeps computation store) :
    ∃ news, store.Remembers news (Run.left (computation store)) := by
  unfold Keeps at kept
  cases outcome : computation store with
  | ok result after => rw [outcome] at kept; exact kept
  | error failure after => rw [outcome] at kept; exact kept

theorem remembering_hosts (chain : Chain) (depth : Nat) :
    remembering.Hosts (chain.hostWithin depth) fun _ => True := by
  have accepts : ∀ wanted : Request, ∀ strategy ∈ chain.strategies, ∀ store,
      remembering.Admits (strategy.accepts wanted.site wanted.type) store :=
    fun wanted strategy _ => admits_accepts remembering_lenient strategy wanted.site wanted.type
  refine hosts_hostWithin remembering_lenient (fun _ store => ⟨[], .refl store⟩)
    (fun wanted store after declined => ?_) (fun host hosts wanted store => ?_) depth
  · have records : remembering.Admits (Store.record (.requested wanted.type wanted.site)) store :=
      admits_plain (.record rfl) store
    have asks : remembering.Admits (Chain.firstAccepting chain.strategies wanted)
        (Store.record (.requested wanted.type wanted.site) store).2 :=
      admits_firstAccepting (accepts wanted)
    unfold Admits at records asks
    rw [declined] at asks
    exact remembering.trans records asks
  · exact keeps_resolveFor (accepts wanted) fun strategy accepted _ =>
      keeps_produce hosts strategy.failsOnlyIn_all fun _ => remembering_givesUp wanted.type accepted

end Course

/-! ## A single call of a memory -/

namespace Strategy

variable {cell : Cell} {inner : Strategy} {discriminator : Discriminator} {host : Host}
  {site : Site} {type : TypeExpr} {before after : Store} {value : Value} {failure : Failure}

/-- With a memo at hand the inner strategy is not asked, whatever it is. -/
theorem memoizing_of_known
    (known : before.memos.find? (cell, discriminator.key site type) = some value) :
    (memoizing cell inner discriminator).produce host site type before =
      .ok value (Store.record (.recalled cell (discriminator.key site type) value) before).2 :=
  recalling_of_known known _

/-- What a call hands out is the memo from then on, and handing it out is the last it does. -/
theorem memoizing_hands_out
    (outcome : (memoizing cell inner discriminator).produce host site type before
      = .ok value after) :
    after.memos.find? (cell, discriminator.key site type) = some value ∧
      ∃ earlier, after.trace = .recalled cell (discriminator.key site type) value :: earlier := by
  change recalling cell (discriminator.key site type) _ before = _ at outcome
  cases known : before.memos.find? (cell, discriminator.key site type) with
  | some memo =>
      rw [recalling_of_known known] at outcome
      cases outcome
      exact ⟨known, _, rfl⟩
  | none =>
      rw [recalling_of_unknown known] at outcome
      cases made : inner.produce host site.memoizing type
        (Store.record (.computed cell (discriminator.key site type)) before).2 with
      | error failure last => rw [made] at outcome; cases outcome
      | ok first between =>
          rw [made] at outcome
          dsimp only at outcome
          cases nested : between.memos.find? (cell, discriminator.key site type) with
          | some memo =>
              rw [nested] at outcome
              cases outcome
              exact ⟨nested, _, rfl⟩
          | none =>
              rw [nested] at outcome
              cases outcome
              exact ⟨between.memos.find?_insert_self _ value, _, rfl⟩

/-- A call that fails had no memo, and leaves everything as its inner strategy left it. -/
theorem memoizing_fails
    (outcome : (memoizing cell inner discriminator).produce host site type before
      = .error failure after) :
    before.memos.find? (cell, discriminator.key site type) = none ∧
      inner.produce host site.memoizing type
        (Store.record (.computed cell (discriminator.key site type)) before).2
        = .error failure after := by
  change recalling cell (discriminator.key site type) _ before = _ at outcome
  cases known : before.memos.find? (cell, discriminator.key site type) with
  | some memo =>
      rw [recalling_of_known known] at outcome
      cases outcome
  | none =>
      rw [recalling_of_unknown known] at outcome
      refine ⟨rfl, ?_⟩
      cases made : inner.produce host site.memoizing type
        (Store.record (.computed cell (discriminator.key site type)) before).2 with
      | error cause last =>
          rw [made] at outcome
          cases outcome
          rfl
      | ok first between =>
          rw [made] at outcome
          dsimp only at outcome
          cases nested : between.memos.find? (cell, discriminator.key site type) with
          | some memo => rw [nested] at outcome; cases outcome
          | none => rw [nested] at outcome; cases outcome

/-- Without a memo the inner strategy is asked, but a memo that came up meanwhile goes first. -/
theorem memoizing_tries
    (unknown : before.memos.find? (cell, discriminator.key site type) = none) :
    match inner.produce host site.memoizing type
      (Store.record (.computed cell (discriminator.key site type)) before).2 with
    | .error cause after =>
        (memoizing cell inner discriminator).produce host site type before = .error cause after
    | .ok made between =>
        ∃ after, (memoizing cell inner discriminator).produce host site type before
          = .ok ((between.memos.find? (cell, discriminator.key site type)).getD made) after := by
  have whole := recalling_of_unknown unknown (inner.produce host site.memoizing type)
  cases made : inner.produce host site.memoizing type
    (Store.record (.computed cell (discriminator.key site type)) before).2 with
  | error cause after =>
      rw [made] at whole
      exact whole
  | ok value between =>
      rw [made] at whole
      dsimp only at whole ⊢
      cases nested : between.memos.find? (cell, discriminator.key site type) with
      | some memo => rw [nested] at whole; exact ⟨_, whole⟩
      | none => rw [nested] at whole; exact ⟨_, whole⟩

/-- Without a memo, other memos are as the inner strategy left them. -/
theorem memoizing_of_unknown
    (unknown : before.memos.find? (cell, discriminator.key site type) = none)
    {slot : Cell × MemoKey} (other : slot ≠ (cell, discriminator.key site type)) :
    (Run.left ((memoizing cell inner discriminator).produce host site type before)).memos.find? slot
      = (Run.left (inner.produce host site.memoizing type
          (Store.record (.computed cell (discriminator.key site type)) before).2)).memos.find? slot := by
  change (Run.left (recalling cell (discriminator.key site type) _ before)).memos.find? slot = _
  rw [recalling_of_unknown unknown]
  cases made : inner.produce host site.memoizing type
    (Store.record (.computed cell (discriminator.key site type)) before).2 with
  | error failure last => rfl
  | ok first between =>
      dsimp only
      cases nested : between.memos.find? (cell, discriminator.key site type) with
      | some memo => rfl
      | none => exact between.memos.find?_insert_of_ne first other

end Strategy

/-! ## Runs of calls -/

/-- A stub is asked for, directly at a strategy or through a chain, within a depth. -/
inductive StubCall where
  | of (strategy : Strategy) (chain : Chain) (depth : Nat) (wanted : Request)
  | through (chain : Chain) (depth : Nat) (wanted : Request)

namespace StubCall

def run : StubCall → Run Value
  | .of strategy chain depth wanted =>
      strategy.produce (chain.hostWithin depth) wanted.site wanted.type
  | .through chain depth wanted => (chain.hostWithin depth).request wanted

/-- A call that was made, the store it was made in and what it came to. -/
structure Attempt where
  call : StubCall
  before : Store
  outcome : EStateM.Result Failure Store Value

def Attempt.after (attempt : Attempt) : Store :=
  Run.left attempt.outcome

/-- One call after the other; a call that fails does not keep the next from being made. -/
def attempts : List StubCall → Store → List Attempt
  | [], _ => []
  | call :: calls, store =>
      ⟨call, store, call.run store⟩ :: attempts calls (Run.left (call.run store))

/-- The store after all calls. -/
def runAll : List StubCall → Store → Store
  | [], store => store
  | call :: calls, store => runAll calls (Run.left (call.run store))

/-- The attempt is a call of the memory for the key, and hands out the value. -/
def Attempt.HandsOut (attempt : Attempt) (cell : Cell) (inner : Strategy)
    (discriminator : Discriminator) (key : MemoKey) (value : Value) : Prop :=
  (∃ chain depth wanted, attempt.call = .of (.memoizing cell inner discriminator) chain depth wanted
    ∧ discriminator.key wanted.site wanted.type = key) ∧
  ∃ after, attempt.outcome = .ok value after

theorem remembers_run (call : StubCall) (store : Store) :
    ∃ news, store.Remembers news (Run.left (call.run store)) := by
  apply Course.remembering_keeps_left
  cases call with
  | of strategy chain depth wanted =>
      exact Course.keeps_produce (Course.remembering_hosts chain depth) strategy.failsOnlyIn_all
        fun _ => Course.remembering_givesUp wanted.type store
  | through chain depth wanted =>
      exact ((Course.remembering_hosts chain depth).serves wanted).request store

theorem remembers_runAll (calls : List StubCall) (start : Store) :
    ∃ news, start.Remembers news (runAll calls start) := by
  induction calls generalizing start with
  | nil => exact ⟨[], .refl start⟩
  | cons call calls ih =>
      rcases remembers_run call start with ⟨early, first⟩
      rcases ih (Run.left (call.run start)) with ⟨late, rest⟩
      exact ⟨late ++ early, first.trans rest⟩

/-- Through whatever chain a call goes, it comes to moves of the store. -/
theorem moves_run (call : StubCall) (store : Store) :
    Store.Moves (fun _ => True) store (Run.left (call.run store)) := by
  cases call with
  | of strategy chain depth wanted =>
      exact Chain.moves_produce chain.ownedBy_all strategy.ownedBy_all depth wanted.site
        wanted.type store
  | through chain depth wanted => exact Chain.moves_request chain.ownedBy_all depth wanted store

theorem moves_runAll (calls : List StubCall) (start : Store) :
    Store.Moves (fun _ => True) start (runAll calls start) := by
  induction calls generalizing start with
  | nil => exact .refl
  | cons call calls ih => exact (moves_run call start).trans (ih _)

theorem runAll_append (earlier later : List StubCall) (start : Store) :
    runAll (earlier ++ later) start = runAll later (runAll earlier start) := by
  induction earlier generalizing start with
  | nil => rfl
  | cons call earlier ih => exact ih (Run.left (call.run start))

theorem outcome_of_mem_attempts {calls : List StubCall} {start : Store} {attempt : Attempt}
    (member : attempt ∈ attempts calls start) :
    attempt.outcome = attempt.call.run attempt.before := by
  induction calls generalizing start with
  | nil => cases member
  | cons call calls ih =>
      rcases List.mem_cons.mp member with rfl | later
      · rfl
      · exact ih later

/-- What an attempt left behind is part of what the whole run leaves behind. -/
theorem remembers_after {calls : List StubCall} {start : Store} {attempt : Attempt}
    (member : attempt ∈ attempts calls start) :
    ∃ late, attempt.after.Remembers late (runAll calls start) := by
  induction calls generalizing start with
  | nil => cases member
  | cons call calls ih =>
      rcases List.mem_cons.mp member with rfl | later
      · exact remembers_runAll calls (Run.left (call.run start))
      · exact ih later

theorem Attempt.HandsOut.known {attempt : Attempt} {cell : Cell} {inner : Strategy}
    {discriminator : Discriminator} {key : MemoKey} {value : Value} {calls : List StubCall}
    {start : Store} (handsOut : attempt.HandsOut cell inner discriminator key value)
    (member : attempt ∈ attempts calls start) :
    (runAll calls start).memos.find? (cell, key) = some value := by
  rcases handsOut with ⟨⟨chain, depth, wanted, call, rfl⟩, after, outcome⟩
  have made := outcome_of_mem_attempts member
  rw [call, outcome] at made
  have known := (Strategy.memoizing_hands_out made.symm).1
  rcases remembers_after member with ⟨late, rest⟩
  rw [Attempt.after, outcome] at rest
  exact rest.kept known

end StubCall

open StubCall

/--
What holds of a memory in every run, whatever the chains are through which its calls and
the calls nested in them go, and whatever memos there were at the beginning.

A nested call shows in the trace alone: that its inner strategy is set to work for a key
as `computed`, that it hands out a value as `recalled`.
-/
structure ReliableMemory (cell : Cell) (inner : Strategy) (discriminator : Discriminator) :
    Prop where
  /-- All calls that hand out something for a key hand out the same value. -/
  same (calls : List StubCall) (start : Store) {first second : Attempt} {key : MemoKey}
    {value other : Value} :
    first ∈ attempts calls start → second ∈ attempts calls start →
      first.HandsOut cell inner discriminator key value →
      second.HandsOut cell inner discriminator key other → value = other
  /-- A successful call ends in handing out its value, also if it is nested in another call. -/
  recorded {host : Host} {site : Site} {type : TypeExpr} {before after : Store} {value : Value} :
    (Strategy.memoizing cell inner discriminator).produce host site type before = .ok value after →
      ∃ earlier, after.trace = .recalled cell (discriminator.key site type) value :: earlier
  /-- So all calls of a run agree, the nested ones too. -/
  sameNested (calls : List StubCall) (start : Store) {news : List Event} {key : MemoKey}
    {value other : Value} :
    (runAll calls start).trace = news ++ start.trace →
      .recalled cell key value ∈ news → .recalled cell key other ∈ news → value = other
  /-- A memo stays, and the inner strategy is not set to work for its key again. -/
  kept (earlier later : List StubCall) (start : Store) {key : MemoKey} {value : Value} :
    (runAll earlier start).memos.find? (cell, key) = some value →
      (runAll (earlier ++ later) start).memos.find? (cell, key) = some value ∧
      ∃ news, (runAll (earlier ++ later) start).trace = news ++ (runAll earlier start).trace ∧
        .computed cell key ∉ news
  /-- That also holds of a memo that came up in the midst of a call. -/
  keptNested (calls : List StubCall) (start : Store) {late early : List Event} {key : MemoKey}
    {value : Value} :
    (runAll calls start).trace = (late ++ .recalled cell key value :: early) ++ start.trace →
      (runAll calls start).memos.find? (cell, key) = some value ∧ .computed cell key ∉ late
  /-- With a memo at hand nothing happens but that it is handed out. -/
  spared (host : Host) {site : Site} {type : TypeExpr} {before : Store} {value : Value} :
    before.memos.find? (cell, discriminator.key site type) = some value →
      (Strategy.memoizing cell inner discriminator).produce host site type before =
        .ok value (Store.record (.recalled cell (discriminator.key site type) value) before).2
  /-- A call that fails stores nothing itself: the store is as the inner strategy left it. -/
  failed {host : Host} {site : Site} {type : TypeExpr} {before after : Store} {cause : Failure} :
    (Strategy.memoizing cell inner discriminator).produce host site type before
        = .error cause after →
      before.memos.find? (cell, discriminator.key site type) = none ∧
      inner.produce host site.memoizing type
        (Store.record (.computed cell (discriminator.key site type)) before).2 = .error cause after
  /-- In a call, be it a failing one, memos come up by calls for their key that succeeded. -/
  changed (calls : List StubCall) (start : Store) {attempt : Attempt} {key : MemoKey}
    {value : Value} :
    attempt ∈ attempts calls start → attempt.after.memos.find? (cell, key) = some value →
      attempt.before.memos.find? (cell, key) = some value ∨
      ∃ news, attempt.after.trace = news ++ attempt.before.trace ∧ .recalled cell key value ∈ news
  /-- As long as there is no memo, a call is what the inner strategy makes of it, but for a
  memo that came up meanwhile. -/
  tries {host : Host} {site : Site} {type : TypeExpr} {before : Store} :
    before.memos.find? (cell, discriminator.key site type) = none →
      match inner.produce host site.memoizing type
        (Store.record (.computed cell (discriminator.key site type)) before).2 with
      | .error cause after =>
          (Strategy.memoizing cell inner discriminator).produce host site type before
            = .error cause after
      | .ok made between =>
          ∃ after, (Strategy.memoizing cell inner discriminator).produce host site type before
            = .ok ((between.memos.find? (cell, discriminator.key site type)).getD made) after
  /-- The memos of other keys are left as they are, apart from what the inner strategy does. -/
  undisturbed {host : Host} {site : Site} {type : TypeExpr} {before : Store}
    {slot : Cell × MemoKey} :
    slot ≠ (cell, discriminator.key site type) →
      (Run.left ((Strategy.memoizing cell inner discriminator).produce host site type
        before)).memos.find? slot =
      match before.memos.find? (cell, discriminator.key site type) with
      | some _ => before.memos.find? slot
      | none =>
          (Run.left (inner.produce host site.memoizing type
            (Store.record (.computed cell (discriminator.key site type)) before).2)).memos.find? slot

/--
The inner strategy asks the host for the very type it is to make.  What the nested call
made is kept and handed out, and what the outer call went on to make is dropped.
-/
example :
    let reentrant : Supplier := fun site number =>
      if number = 0 then .request ⟨.plain Class.unit, site⟩ fun _ => .giveNew (.truth false)
      else .giveNew (.truth true)
    let memory : Strategy := .memoizing ⟨0⟩ (.supplied ⟨1⟩ (.plain Class.unit) reentrant) .byType
    let call : StubCall := .of memory ⟨[memory]⟩ 2 ⟨.plain Class.unit, .unknown⟩
    ∃ after, call.run {} = .ok (.object 0 (.truth true)) after :=
  ⟨_, rfl⟩

end TestData
