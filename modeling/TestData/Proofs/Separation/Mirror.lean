import TestData.Proofs.Operations
import TestData.Proofs.Separation.Renaming
import TestData.Proofs.Termination.Settling

namespace TestData

/-!
# Two stores with the same view

A chain sees of a store what is kept in its own cells, and it makes objects.  Where two
stores agree on those cells, the same computation does the same in both, except that new
objects get other identities; which ones is told by a renaming.  It takes the identities
of the one store to those of the other, the next one to the next one and so on for all
that are still to come.  So it stays the same renaming while a request is served, and
nested requests need no other.
-/

open Renamable

/-! ## Agreement on cells -/

/-- The tables have the same entries at these keys. -/
def Table.Agree {κ α : Type} [DecidableEq κ] (keys : κ → Prop) (table other : Table κ α) : Prop :=
  ∀ key, keys key → other.find? key = table.find? key

namespace Table.Agree

variable {κ α : Type} [DecidableEq κ] {keys : κ → Prop} {table between other : Table κ α}

theorem refl (table : Table κ α) : Agree keys table table :=
  fun _ _ => rfl

theorem of_eq (same : other = table) : Agree keys table other :=
  fun _ _ => same ▸ rfl

theorem trans (first : Agree keys table between) (second : Agree keys between other) :
    Agree keys table other :=
  fun key own => (second key own).trans (first key own)

theorem insert (agree : Agree keys table other) (key : κ) (entry : α) :
    Agree keys (table.insert key entry) (other.insert key entry) := by
  intro wanted own
  by_cases same : wanted = key
  · subst same
    rw [find?_insert_self, find?_insert_self]
  · rw [find?_insert_of_ne _ _ same, find?_insert_of_ne _ _ same]
    exact agree wanted own

theorem insert_foreign {key : κ} {entry : α} (foreign : ¬ keys key) :
    Agree keys table (table.insert key entry) := by
  intro wanted own
  have apart : wanted ≠ key := fun same => foreign (same ▸ own)
  exact table.find?_insert_of_ne entry apart

end Table.Agree

/-- What strategies without a memory keep in these cells is the same in both stores. -/
structure Store.Agree (cells : Cell → Prop) (store other : Store) : Prop where
  constructors : Table.Agree (fun slot => cells slot.1) store.constructors other.constructors
  methods : Table.Agree (fun slot => cells slot.1) store.methods other.methods
  counters : Table.Agree cells store.counters other.counters
  draws : Table.Agree cells store.draws other.draws

namespace Store.Agree

variable {cells : Cell → Prop} {store between other : Store}

theorem refl (store : Store) : Agree cells store store :=
  ⟨.refl _, .refl _, .refl _, .refl _⟩

theorem trans (first : Agree cells store between) (second : Agree cells between other) :
    Agree cells store other where
  constructors := first.constructors.trans second.constructors
  methods := first.methods.trans second.methods
  counters := first.counters.trans second.counters
  draws := first.draws.trans second.draws

end Store.Agree

/-- What was settled on outside of these cells is the same in both stores. -/
structure Store.AgreeOutside (cells : Cell → Prop) (store other : Store) : Prop where
  constructors : Table.Agree (fun slot => ¬ cells slot.1) store.constructors other.constructors
  methods : Table.Agree (fun slot => ¬ cells slot.1) store.methods other.methods

theorem Store.AgreeOutside.of_members_eq {cells : Cell → Prop} {store other : Store}
    (constructors : other.constructors = store.constructors)
    (methods : other.methods = store.methods) : AgreeOutside cells store other :=
  ⟨.of_eq constructors, .of_eq methods⟩

/-! ## Mirrored stores -/

/--
The view of a chain on two stores.  The types it is asked for are those of a graph, and
identities that were there before the chain mean the same in both stores.
-/
structure Frame (graph : ClassGraph) (old : Nat) where
  /-- The cells that are looked at. -/
  cells : Cell → Prop
  /-- Takes the identities of one store to those of the other. -/
  change : Nat → Nat
  injective : Function.Injective change
  fixed : ∀ identity < old, change identity = identity
  /-- What is known besides, of members that were settled on in other cells. -/
  knows : Store → Store → Prop := fun _ _ => True
  stays {store mirror after later : Store} : knows store mirror →
    Store.AgreeOutside cells store after → Store.AgreeOutside cells mirror later →
    knows after later := by exact fun _ _ _ => trivial

variable {graph : ClassGraph} {old : Nat}

namespace Frame

/-- The frame with fewer cells to look at, and nothing known besides. -/
def narrow (frame : Frame graph old) (cells : Cell → Prop) : Frame graph old where
  cells := cells
  change := frame.change
  injective := frame.injective
  fixed := frame.fixed

/-- The two stores look alike from the cells of the chain. -/
structure Mirrors (frame : Frame graph old) (store mirror : Store) : Prop where
  identities (ahead : Nat) :
    frame.change (store.nextIdentity + ahead) = mirror.nextIdentity + ahead
  reached : old ≤ store.nextIdentity
  agree : Store.Agree frame.cells store mirror
  settled : store.SettledIn graph frame.cells
  known : frame.knows store mirror

namespace Mirrors

variable {frame : Frame graph old} {store mirror after later : Store}

/-- Notes, memos and events are not looked at. -/
theorem of_eq (mirrors : frame.Mirrors store mirror)
    (one : after = { store with notes := after.notes, memos := after.memos, trace := after.trace })
    (other : later =
      { mirror with notes := later.notes, memos := later.memos, trace := later.trace }) :
    frame.Mirrors after later := by
  rw [one, other]
  exact ⟨mirrors.identities, mirrors.reached, ⟨mirrors.agree.constructors, mirrors.agree.methods,
    mirrors.agree.counters, mirrors.agree.draws⟩, mirrors.settled.of_members_eq ⟨rfl, rfl⟩,
    frame.stays mirrors.known (.of_members_eq rfl rfl) (.of_members_eq rfl rfl)⟩

theorem record (mirrors : frame.Mirrors store mirror) (event : Event) :
    frame.Mirrors (Store.record event store).2 (Store.record event mirror).2 :=
  mirrors.of_eq rfl rfl

theorem note (mirrors : frame.Mirrors store mirror) (entry other : Entry) :
    frame.Mirrors (Store.note entry store).2 (Store.note other mirror).2 :=
  mirrors.of_eq rfl rfl

/-- The next object of the one store is the next object of the other. -/
theorem next (mirrors : frame.Mirrors store mirror) :
    frame.change store.nextIdentity = mirror.nextIdentity :=
  mirrors.identities 0

/-- Cells and identities are handed out, as many identities here as there. -/
theorem allocate (mirrors : frame.Mirrors store mirror) (cell other objects : Nat) :
    frame.Mirrors { store with nextCell := cell, nextIdentity := store.nextIdentity + objects }
      { mirror with nextCell := other, nextIdentity := mirror.nextIdentity + objects } where
  identities ahead := by
    have shifted := mirrors.identities (objects + ahead)
    rwa [← Nat.add_assoc, ← Nat.add_assoc] at shifted
  reached := Nat.le_add_right_of_le mirrors.reached
  agree := ⟨mirrors.agree.constructors, mirrors.agree.methods, mirrors.agree.counters,
    mirrors.agree.draws⟩
  settled := mirrors.settled.of_members_eq ⟨rfl, rfl⟩
  known := frame.stays mirrors.known (.of_members_eq rfl rfl) (.of_members_eq rfl rfl)

theorem create (mirrors : frame.Mirrors store mirror) :
    frame.Mirrors { store with nextIdentity := store.nextIdentity + 1 }
      { mirror with nextIdentity := mirror.nextIdentity + 1 } :=
  mirrors.allocate store.nextCell mirror.nextCell 1

theorem draw (mirrors : frame.Mirrors store mirror) (cell : Cell) (past : List Nat) :
    frame.Mirrors { store with draws := store.draws.insert cell past }
      { mirror with draws := mirror.draws.insert cell past } where
  identities := mirrors.identities
  reached := mirrors.reached
  agree := ⟨mirrors.agree.constructors, mirrors.agree.methods, mirrors.agree.counters,
    mirrors.agree.draws.insert cell past⟩
  settled := mirrors.settled.of_members_eq ⟨rfl, rfl⟩
  known := frame.stays mirrors.known (.of_members_eq rfl rfl) (.of_members_eq rfl rfl)

theorem count (mirrors : frame.Mirrors store mirror) (cell : Cell) (number : UInt64) :
    frame.Mirrors { store with counters := store.counters.insert cell number }
      { mirror with counters := mirror.counters.insert cell number } where
  identities := mirrors.identities
  reached := mirrors.reached
  agree := ⟨mirrors.agree.constructors, mirrors.agree.methods,
    mirrors.agree.counters.insert cell number, mirrors.agree.draws⟩
  settled := mirrors.settled.of_members_eq ⟨rfl, rfl⟩
  known := frame.stays mirrors.known (.of_members_eq rfl rfl) (.of_members_eq rfl rfl)

theorem insertConstructor (mirrors : frame.Mirrors store mirror) {cell : Cell}
    (own : frame.cells cell) {c : Class} {choice : Option Constructor}
    (usable : ∀ k, choice = some k → graph.contains c ∧ k ∈ c.usableConstructors) :
    frame.Mirrors
      { store with constructors := store.constructors.insert (cell, c.name) choice }
      { mirror with constructors := mirror.constructors.insert (cell, c.name) choice } where
  identities := mirrors.identities
  reached := mirrors.reached
  agree := ⟨mirrors.agree.constructors.insert _ choice, mirrors.agree.methods,
    mirrors.agree.counters, mirrors.agree.draws⟩
  settled := mirrors.settled.insertConstructor usable
  known := frame.stays mirrors.known ⟨.insert_foreign (not_not_intro own), .refl _⟩
    ⟨.insert_foreign (not_not_intro own), .refl _⟩

theorem insertMethod (mirrors : frame.Mirrors store mirror) {cell : Cell}
    (own : frame.cells cell) {c : Class} {choice : Option Method}
    (usable : ∀ m, choice = some m → graph.contains c ∧ m ∈ c.factoryMethods) :
    frame.Mirrors
      { store with methods := store.methods.insert (cell, c.name) choice }
      { mirror with methods := mirror.methods.insert (cell, c.name) choice } where
  identities := mirrors.identities
  reached := mirrors.reached
  agree := ⟨mirrors.agree.constructors, mirrors.agree.methods.insert _ choice,
    mirrors.agree.counters, mirrors.agree.draws⟩
  settled := mirrors.settled.insertMethod usable
  known := frame.stays mirrors.known ⟨.refl _, .insert_foreign (not_not_intro own)⟩
    ⟨.refl _, .insert_foreign (not_not_intro own)⟩

/-- Identities of the one store are taken below the next identity of the other. -/
theorem change_lt (mirrors : frame.Mirrors store mirror) {identity : Nat}
    (made : identity < store.nextIdentity) : frame.change identity < mirror.nextIdentity := by
  by_contra late
  have ahead := mirrors.identities (frame.change identity - mirror.nextIdentity)
  rw [Nat.add_sub_cancel' (Nat.le_of_not_lt late)] at ahead
  have same := frame.injective ahead
  omega

/-- Who looks at fewer cells sees no more differences. -/
theorem narrow (mirrors : frame.Mirrors store mirror) {cells : Cell → Prop}
    (within : ∀ cell, cells cell → frame.cells cell) :
    (frame.narrow cells).Mirrors store mirror where
  identities := mirrors.identities
  reached := mirrors.reached
  agree := ⟨fun slot own => mirrors.agree.constructors slot (within slot.1 own),
    fun slot own => mirrors.agree.methods slot (within slot.1 own),
    fun cell own => mirrors.agree.counters cell (within cell own),
    fun cell own => mirrors.agree.draws cell (within cell own)⟩
  settled := ⟨fun own => mirrors.settled.constructors (within _ own),
    fun own => mirrors.settled.methods (within _ own)⟩
  known := trivial

end Mirrors
end Frame

/-! ## Mirrored steps -/

/-- In mirrored stores the step gives the same result, which is of this kind, and makes nothing. -/
def Step.Mirrored {α : Type} (frame : Frame graph old) (step : Step α) (holds : α → Prop) : Prop :=
  ∀ store mirror : Store, frame.Mirrors store mirror →
    holds (step store).1 ∧ (step mirror).1 = (step store).1 ∧
      frame.Mirrors (step store).2 (step mirror).2 ∧
      (step store).2.nextIdentity = store.nextIdentity

namespace Step

variable {α β : Type} {frame : Frame graph old}

theorem Mirrored.pure {result : α} {holds : α → Prop} (given : holds result) :
    Mirrored frame (Pure.pure result) holds :=
  fun _ _ mirrors => ⟨given, rfl, mirrors, rfl⟩

theorem Mirrored.bind {step : Step α} {next : α → Step β} {between : α → Prop} {holds : β → Prop}
    (first : Mirrored frame step between)
    (second : ∀ result, between result → Mirrored frame (next result) holds) :
    Mirrored frame (step >>= next) holds := by
  intro store mirror mirrors
  rcases first store mirror mirrors with ⟨given, same, made, quiet⟩
  rcases second _ given _ _ made with ⟨final, equal, left, still⟩
  have goesOn : (step >>= next) mirror = next (step store).1 (step mirror).2 :=
    congrArg (fun result => next result (step mirror).2) same
  rw [goesOn]
  exact ⟨final, equal, left, still.trans quiet⟩

/-- What is known of a result wherever the step is taken is known of it here. -/
theorem Mirrored.of_always {step : Step α} {holds : α → Prop}
    (mirrored : Mirrored frame step fun _ => True) (always : ∀ store, holds (step store).1) :
    Mirrored frame step holds :=
  fun store mirror mirrors => ⟨always store, (mirrored store mirror mirrors).2⟩

theorem mirrored_record (event : Event) : Mirrored frame (Store.record event) fun _ => True :=
  fun _ _ mirrors => ⟨trivial, rfl, mirrors.record event, rfl⟩

/-- A number is taken in both stores. -/
theorem mirrored_nextNumber {cell : Cell} (own : frame.cells cell) :
    Mirrored frame (Store.nextNumber cell) fun _ => True := by
  intro store mirror mirrors
  have same := mirrors.agree.counters cell own
  simp only [Store.nextNumber, same]
  exact ⟨trivial, trivial, (mirrors.count cell _).of_eq rfl rfl, trivial⟩

/-- A search sees nothing but the generators of the chain. -/
theorem Searching.mirrored {step : Step α} (searching : Searching frame.cells step) :
    Mirrored frame step fun _ => True := by
  induction searching with
  | pure result => exact .pure trivial
  | bind first second begins goesOn => exact .bind begins fun result _ => goesOn result
  | heed verdict => exact fun _ _ mirrors => ⟨trivial, rfl, mirrors.of_eq rfl rfl, rfl⟩
  | @draw cell own generator bound =>
      intro store mirror mirrors
      have same := mirrors.agree.draws cell own
      simp only [Store.draw, same]
      exact ⟨trivial, trivial, mirrors.draw cell _, trivial⟩

/-- In mirrored stores the two steps give results that suit each other, and make nothing. -/
def Paired (frame : Frame graph old) (left : Step α) (right : Step β) (suits : α → β → Prop) : Prop :=
  ∀ store mirror : Store, frame.Mirrors store mirror →
    suits (left store).1 (right mirror).1 ∧ frame.Mirrors (left store).2 (right mirror).2 ∧
      (left store).2.nextIdentity = store.nextIdentity

/-- A step that gives the same in mirrored stores is a pair by itself. -/
theorem Mirrored.paired {step : Step α} {holds : α → Prop} (mirrored : Mirrored frame step holds) :
    Paired frame step step fun result same => holds result ∧ same = result := by
  intro store mirror mirrors
  rcases mirrored store mirror mirrors with ⟨given, same, made, quiet⟩
  exact ⟨⟨given, same⟩, made, quiet⟩

namespace Paired

variable {γ δ : Type} {left : Step α} {right : Step β} {suits : α → β → Prop}

theorem pure {result : α} {counterpart : β} (given : suits result counterpart) :
    Paired frame (Pure.pure result) (Pure.pure counterpart) suits :=
  fun _ _ mirrors => ⟨given, mirrors, rfl⟩

theorem bind {next : α → Step γ} {other : β → Step δ} {fits : γ → δ → Prop}
    (first : Paired frame left right suits)
    (second : ∀ result counterpart, suits result counterpart →
      Paired frame (next result) (other counterpart) fits) :
    Paired frame (left >>= next) (right >>= other) fits := by
  intro store mirror mirrors
  rcases first store mirror mirrors with ⟨given, between, quiet⟩
  rcases second _ _ given _ _ between with ⟨final, made, still⟩
  exact ⟨final, made, still.trans quiet⟩

theorem mono {fits : α → β → Prop} (paired : Paired frame left right suits)
    (weaker : ∀ result counterpart, suits result counterpart → fits result counterpart) :
    Paired frame left right fits := by
  intro store mirror mirrors
  rcases paired store mirror mirrors with ⟨given, made, quiet⟩
  exact ⟨weaker _ _ given, made, quiet⟩

end Paired
end Step

/-! ## Mirrored runs -/

/-- How a run in one of two mirrored stores ends, given how it ends in the other. -/
inductive Frame.Reflects (frame : Frame graph old) {α : Type} [Renamable α] (known : Nat) :
    EStateM.Result Failure Store α → EStateM.Result Failure Store α → Prop where
  | ok {result : α} {after later : Store} (mirrors : frame.Mirrors after later)
      (grows : known ≤ after.nextIdentity) (below : Below after.nextIdentity result) :
      frame.Reflects known (.ok result after) (.ok (rename frame.change result) later)
  | error {failure : Failure} {after later : Store} (mirrors : frame.Mirrors after later)
      (grows : known ≤ after.nextIdentity) :
      frame.Reflects known (.error failure after) (.error failure later)

theorem Frame.Reflects.grow {frame : Frame graph old} {α : Type} [Renamable α] {known more : Nat}
    {result counterpart : EStateM.Result Failure Store α}
    (reflects : frame.Reflects more result counterpart) (le : known ≤ more) :
    frame.Reflects known result counterpart := by
  cases reflects with
  | ok mirrors grows below => exact .ok mirrors (Nat.le_trans le grows) below
  | error mirrors grows => exact .error mirrors (Nat.le_trans le grows)

/--
The two computations go together: in mirrored stores in which the identities below the
given one have been made already, the second gives what the first gives, renamed.
-/
def Run.Mirrored {α : Type} [Renamable α] (frame : Frame graph old) (known : Nat) (left right : Run α) :
    Prop :=
  ∀ store mirror : Store, frame.Mirrors store mirror → known ≤ store.nextIdentity →
    frame.Reflects store.nextIdentity (left store) (right mirror)

namespace Run.Mirrored

variable {α β : Type} [Renamable α] [Renamable β] {frame : Frame graph old} {known more : Nat}

theorem mono {left right : Run α} (mirrored : Mirrored frame known left right)
    (le : known ≤ more) : Mirrored frame more left right :=
  fun store mirror mirrors made => mirrored store mirror mirrors (Nat.le_trans le made)

theorem pure {result : α} (below : Below known result) :
    Mirrored frame known (Pure.pure result) (Pure.pure (rename frame.change result)) :=
  fun _ _ mirrors made => .ok mirrors (Nat.le_refl _) (below.mono made)

theorem fail (cause : StubError) :
    Mirrored frame known (Run.fail cause : Run α) (Run.fail cause) :=
  fun _ _ mirrors _ => .error mirrors (Nat.le_refl _)

theorem bind {first second : Run α} {next other : α → Run β}
    (begins : Mirrored frame known first second)
    (goesOn : ∀ {more result}, known ≤ more → Below more result →
      Mirrored frame more (next result) (other (rename frame.change result))) :
    Mirrored frame known (first >>= next) (second >>= other) := by
  intro store mirror mirrors made
  have began := begins store mirror mirrors made
  simp only [Bind.bind, EStateM.bind]
  generalize first store = ended, second mirror = mirrored at began ⊢
  cases began with
  | error mirrors grows => exact .error mirrors grows
  | ok between grows below =>
      have ends := goesOn (Nat.le_trans made grows) below _ _ between (Nat.le_refl _)
      exact ends.grow grows

/-- Steps that make nothing come first in both. -/
theorem paired_bind {γ δ : Type} {left : Step γ} {right : Step δ} {suits : γ → δ → Prop}
    {next : γ → Run β} {other : δ → Run β} (paired : Step.Paired frame left right suits)
    (goesOn : ∀ result counterpart, suits result counterpart →
      Mirrored frame known (next result) (other counterpart)) :
    Mirrored frame known (Run.ofStep left >>= next) (Run.ofStep right >>= other) := by
  intro store mirror mirrors made
  rcases paired store mirror mirrors with ⟨given, between, quiet⟩
  have first : (Run.ofStep left >>= next) store = next (left store).1 (left store).2 := rfl
  have second : (Run.ofStep right >>= other) mirror = other (right mirror).1 (right mirror).2 := rfl
  rw [first, second, ← quiet]
  exact goesOn _ _ given _ _ between (quiet ▸ made)

/-- A step that makes nothing is the same in both. -/
theorem step_bind {γ : Type} {step : Step γ} {holds : γ → Prop} {next other : γ → Run β}
    (mirrored : Step.Mirrored frame step holds)
    (goesOn : ∀ result, holds result → Mirrored frame known (next result) (other result)) :
    Mirrored frame known (Run.ofStep step >>= next) (Run.ofStep step >>= other) := by
  refine paired_bind mirrored.paired fun result same both => ?_
  rw [both.2]
  exact goesOn result both.1

/-- Computations on types are the same in both. -/
theorem bounded_bind {γ : Type} {bounded : Bounded γ} {next other : γ → Run β}
    (goesOn : ∀ result, bounded = .ok result →
      Mirrored frame known (next result) (other result)) :
    Mirrored frame known (Run.ofBounded bounded >>= next) (Run.ofBounded bounded >>= other) := by
  cases walked : bounded with
  | error exhausted => exact fun _ _ mirrors _ => .error mirrors (Nat.le_refl _)
  | ok result => exact goesOn result walked

/-- An object that is made from mirrored data has the next identity in both stores. -/
theorem create {content : Content} (below : Below known content) :
    Mirrored frame known (Run.ofStep (Store.create content))
      (Run.ofStep (Store.create (rename frame.change content))) := by
  intro store mirror mirrors made
  have inside : Below (store.nextIdentity + 1) (Value.object store.nextIdentity content) :=
    below_object_iff.mpr ⟨Nat.lt_succ_self _, below.mono (Nat.le_succ_of_le made)⟩
  have renamed : Value.object mirror.nextIdentity (rename frame.change content)
      = rename frame.change (Value.object store.nextIdentity content) :=
    congrArg (Value.object · (rename frame.change content)) mirrors.next.symm
  show frame.Reflects store.nextIdentity (.ok (Value.object store.nextIdentity content) _)
    (.ok (Value.object mirror.nextIdentity (rename frame.change content)) _)
  rw [renamed]
  exact .ok mirrors.create (Nat.le_succ _) inside

/-- So has an object that a pure function builds from them. -/
theorem build {build : α → Content} (pure : Renamable.Pure old build)
    (le : old ≤ known) {data : α} (below : Below known data) :
    Mirrored frame known (Run.ofStep (Store.create (build data)))
      (Run.ofStep (Store.create (build (rename frame.change data)))) := by
  rw [pure frame.change frame.injective frame.fixed]
  exact .create (pure.below le below)

/-- Data that was there before is no other in the mirror. -/
theorem pure_old (le : old ≤ known) {result : α} (below : Below old result) :
    Mirrored frame known (Pure.pure result) (Pure.pure result) := by
  have mirrored : Mirrored frame known _ _ := .pure (below.mono le)
  rwa [below.rename_eq frame.fixed] at mirrored

theorem create_old (le : old ≤ known) {content : Content} (below : Below old content) :
    Mirrored frame known (Run.ofStep (Store.create content))
      (Run.ofStep (Store.create content)) := by
  have mirrored : Mirrored frame known _ _ := .create (below.mono le)
  rwa [below.rename_eq frame.fixed] at mirrored

/-- What a member comes to is carried out in both stores alike. -/
theorem called {reply : Reply} (below : Below known reply) (site : Site) (type : TypeExpr)
    (member : String) :
    Mirrored frame known (Strategy.called site type member reply)
      (Strategy.called site type member (rename frame.change reply)) := by
  cases reply with
  | existing value => exact .pure (Reply.existing.inj below)
  | fresh content => exact .create (Reply.fresh.inj below)
  | noted entry =>
      intro store mirror mirrors made
      have unit : Mirrored frame known (Run.ofStep (Store.create .unit))
          (Run.ofStep (Store.create .unit)) := .create rfl
      exact unit _ _ (mirrors.note entry (entry.renamed frame.change)) made
  | failed message => exact .fail _

theorem times {computation other : Run α}
    (each : ∀ {more}, known ≤ more → Mirrored frame more computation other) (count : Nat) :
    Mirrored frame known (Run.times count computation) (Run.times count other) := by
  induction count generalizing known with
  | zero => exact .pure rfl
  | succ count ih =>
      rw [Run.times_succ, Run.times_succ]
      refine .bind (each (Nat.le_refl _)) fun le below => ?_
      refine .bind (ih fun later => each (Nat.le_trans le later)) fun grows rest => ?_
      refine .pure (below_list_iff.mpr ?_)
      exact List.forall_mem_cons.mpr ⟨below.mono grows, below_list_iff.mp rest⟩

end Run.Mirrored
end TestData
