namespace TestData

/-!
# Tables

A table maps keys to entries.  It is what the mutable state of a run is made of:
small, keyed by whatever the state belongs to, and fully described by the two laws
of inserting and finding.
-/

/-- A finite map from keys to entries. -/
structure Table (κ α : Type) where
  rows : List (κ × α)

namespace Table

variable {κ α : Type} [DecidableEq κ]

/-- The table without entries. -/
def empty : Table κ α where
  rows := []

instance : Inhabited (Table κ α) := ⟨empty⟩

/-- The entry of a key. -/
def find? (table : Table κ α) (key : κ) : Option α :=
  table.rows.lookup key

/-- The table with an entry put in place of the one the key had. -/
def insert (table : Table κ α) (key : κ) (entry : α) : Table κ α where
  rows := (key, entry) :: table.rows.filter fun row => row.1 ≠ key

omit [DecidableEq κ] in
theorem lookup_filter_of_keep [BEq κ] [LawfulBEq κ] (keep : κ → Bool)
    (rows : List (κ × α)) {key : κ} (kept : keep key = true) :
    (rows.filter fun row => keep row.1).lookup key = rows.lookup key := by
  induction rows with
  | nil => rfl
  | cons row rows ih =>
      obtain ⟨other, entry⟩ := row
      by_cases same : key = other
      · subst same
        simp [kept]
      · have unequal : (key == other) = false := beq_eq_false_iff_ne.mpr same
        rw [List.filter_cons]
        split
        · simp [List.lookup_cons, unequal, ih]
        · simp [List.lookup_cons, unequal, ih]

@[simp]
theorem find?_empty (key : κ) : (empty : Table κ α).find? key = none := rfl

@[simp]
theorem find?_insert_self (table : Table κ α) (key : κ) (entry : α) :
    (table.insert key entry).find? key = some entry := by
  simp [find?, insert]

theorem find?_insert_of_ne (table : Table κ α) {key other : κ} (entry : α)
    (different : other ≠ key) :
    (table.insert key entry).find? other = table.find? other := by
  have unequal : (other == key) = false := beq_eq_false_iff_ne.mpr different
  have kept := lookup_filter_of_keep (fun candidate => decide (candidate ≠ key)) table.rows
    (decide_eq_true different)
  simpa [find?, insert, List.lookup_cons, unequal] using kept

end Table
end TestData
