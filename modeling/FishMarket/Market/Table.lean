/-! # Tables

Rows under integer keys, in increasing order of the keys and with one row for each. A table is its
list of entries, so that going through its rows is going through a list.
-/

namespace FishMarket

/-- Rows of type `α` under integer keys. -/
structure Table (α : Type) where
  /-- The keys and their rows. -/
  entries : List (Int × α)
  /-- Keys increase from each entry to every later one. -/
  ordered : entries.Pairwise fun a b => a.1 < b.1

namespace Table

variable {α : Type}

/-- The table without rows. -/
def empty : Table α where
  entries := []
  ordered := .nil

instance : Inhabited (Table α) := ⟨empty⟩

/-- The row under a key. -/
def find? (table : Table α) (key : Int) : Option α :=
  (table.entries.find? fun entry => entry.1 = key).map (·.2)

/-- Whether there is a row under a key. -/
def contains (table : Table α) (key : Int) : Bool :=
  (table.find? key).isSome

/-- All rows, in the order of their keys. -/
def values (table : Table α) : List α :=
  table.entries.map (·.2)

/-! ## Inserting -/

/-- Puts a row among entries in order, in place of the one that has the same key. -/
def insertEntry (key : Int) (value : α) : List (Int × α) → List (Int × α)
  | [] => [(key, value)]
  | entry :: rest =>
    if key < entry.1 then (key, value) :: entry :: rest
    else if key = entry.1 then (key, value) :: rest
    else entry :: insertEntry key value rest

theorem mem_insertEntry {key : Int} {value : α} {entries : List (Int × α)} {entry : Int × α}
    (hmem : entry ∈ insertEntry key value entries) : entry = (key, value) ∨ entry ∈ entries := by
  induction entries with
  | nil => exact .inl (List.mem_singleton.mp hmem)
  | cons head rest ih =>
      simp only [insertEntry] at hmem
      split at hmem
      next => exact List.mem_cons.mp hmem
      next =>
        split at hmem
        next =>
          rcases List.mem_cons.mp hmem with rfl | hlater
          · exact .inl rfl
          · exact .inr (List.mem_cons_of_mem _ hlater)
        next =>
          rcases List.mem_cons.mp hmem with rfl | hlater
          · exact .inr List.mem_cons_self
          · exact (ih hlater).imp_right (List.mem_cons_of_mem _)

theorem ordered_insertEntry (key : Int) (value : α) {entries : List (Int × α)}
    (ordered : entries.Pairwise fun a b => a.1 < b.1) :
    (insertEntry key value entries).Pairwise fun a b => a.1 < b.1 := by
  induction entries with
  | nil => simp [insertEntry]
  | cons head rest ih =>
      obtain ⟨hbefore, hrest⟩ := List.pairwise_cons.mp ordered
      simp only [insertEntry]
      split
      next hless =>
        refine List.pairwise_cons.mpr ⟨fun entry hmem => ?_, ordered⟩
        rcases List.mem_cons.mp hmem with rfl | hlater
        · exact hless
        · exact Int.lt_trans hless (hbefore entry hlater)
      next hless =>
        split
        next hsame =>
          exact List.pairwise_cons.mpr ⟨fun entry hmem => hsame ▸ hbefore entry hmem, hrest⟩
        next hsame =>
          refine List.pairwise_cons.mpr ⟨fun entry hmem => ?_, ih hrest⟩
          rcases mem_insertEntry hmem with rfl | hlater
          · dsimp only
            omega
          · exact hbefore entry hlater

/-- Puts a row under a key. -/
def insert (table : Table α) (key : Int) (value : α) : Table α where
  entries := insertEntry key value table.entries
  ordered := ordered_insertEntry key value table.ordered

/-! ## Changing and removing -/

/-- Changes the row under a key, if there is one. -/
def modify (table : Table α) (key : Int) (change : α → α) : Table α where
  entries := table.entries.map fun entry =>
    (entry.1, if entry.1 = key then change entry.2 else entry.2)
  ordered := List.pairwise_map.mpr table.ordered

/-- Keeps the rows that satisfy a condition. -/
def filter (table : Table α) (keep : α → Bool) : Table α where
  entries := table.entries.filter fun entry => keep entry.2
  ordered := table.ordered.filter _

/-- Removes the row under a key. -/
def erase (table : Table α) (key : Int) : Table α where
  entries := table.entries.filter fun entry => entry.1 ≠ key
  ordered := table.ordered.filter _

end Table

end FishMarket
