import Mathlib.Data.List.Perm.Subperm
import FishMarket.Market.Table

/-! # Looking up what was written to a table

Each operation on a table is described by what it does to the row under every key, and to the list
of all rows. Later proofs rest on these two views and do not look at entries any more.
-/

namespace FishMarket.Table

variable {α β : Type}

/-! ## The row under a key -/

/-- Keys are unique, so whatever stands in a table is found under its key. -/
theorem find?_eq_some_iff {table : Table α} {key : Int} {value : α} :
    table.find? key = some value ↔ (key, value) ∈ table.entries := by
  obtain ⟨entries, hordered⟩ := table
  simp only [find?]
  induction entries with
  | nil => simp
  | cons entry rest ih =>
      obtain ⟨hbefore, hrest⟩ := List.pairwise_cons.mp hordered
      by_cases hkey : entry.1 = key
      · have hunique : (key, value) ∉ rest := by
          intro hmem
          have hless := hbefore _ hmem
          simp only at hless
          omega
        obtain ⟨found, row⟩ := entry
        simp only at hkey
        subst hkey
        simp [hunique, eq_comm]
      · rw [List.find?_cons_of_neg (by simpa using hkey), ih hrest, List.mem_cons]
        constructor
        · exact Or.inr
        · rintro (rfl | hmem)
          · exact absurd rfl hkey
          · exact hmem

@[simp] theorem find?_empty (key : Int) : (empty : Table α).find? key = none := rfl

/-- Inserting changes the row under one key. -/
theorem find?_insert (table : Table α) (key other : Int) (value : α) :
    (table.insert key value).find? other =
      if other = key then some value else table.find? other := by
  obtain ⟨entries, hordered⟩ := table
  simp only [find?, insert]
  clear hordered
  induction entries with
  | nil => by_cases hkey : key = other <;> simp [insertEntry, hkey, eq_comm]
  | cons entry rest ih =>
      simp only [insertEntry]
      split
      next hless => by_cases hkey : key = other <;> simp [List.find?_cons, hkey, eq_comm]
      next =>
        split
        next hsame =>
          subst hsame
          by_cases hkey : other = entry.1
          · simp [hkey]
          · have hskip : ¬ entry.1 = other := fun heq => hkey heq.symm
            simp [hkey, hskip]
        next hsame =>
          by_cases hkey : entry.1 = other
          · have hother : other ≠ key := fun heq => hsame (heq.symm.trans hkey.symm)
            simp [hkey, hother]
          · rw [List.find?_cons_of_neg (by simpa using hkey), ih,
              List.find?_cons_of_neg (by simpa using hkey)]

/-- Inserting under a new key leaves every row where it is. -/
theorem find?_insert_of_new {table : Table α} {key other : Int} {row : α}
    (hnew : table.find? key = none) (hother : table.find? other = some row) (value : α) :
    (table.insert key value).find? other = some row := by
  rw [find?_insert, if_neg]
  · exact hother
  · rintro rfl
    cases hnew.symm.trans hother

/-- Changing the row under a key leaves the rows under all others. -/
theorem find?_modify (table : Table α) (key other : Int) (change : α → α) :
    (table.modify key change).find? other =
      if other = key then (table.find? other).map change else table.find? other := by
  obtain ⟨entries, hordered⟩ := table
  simp only [find?, modify]
  clear hordered
  induction entries with
  | nil => simp
  | cons entry rest ih =>
      rw [List.map_cons]
      by_cases hfound : entry.1 = other
      · rw [List.find?_cons_of_pos (by simpa using hfound),
          List.find?_cons_of_pos (by simpa using hfound), Option.map_some, Option.map_some, hfound]
        split <;> rfl
      · rw [List.find?_cons_of_neg (by simpa using hfound), ih,
          List.find?_cons_of_neg (by simpa using hfound)]

theorem find?_modify_of_found {table : Table α} {key : Int} {row : α}
    (hfound : table.find? key = some row) (change : α → α) (other : Int) :
    (table.modify key change).find? other =
      if other = key then some (change row) else table.find? other := by
  rw [find?_modify]
  split
  next hsame => rw [hsame, hfound, Option.map_some]
  next => rfl

/-- Keeping the rows that satisfy a condition keeps or drops each of them under its key. -/
theorem find?_filter (table : Table α) (keep : α → Bool) (key : Int) :
    (table.filter keep).find? key = (table.find? key).filter keep := by
  apply Option.ext
  intro value
  rw [find?_eq_some_iff, Option.filter_eq_some_iff, find?_eq_some_iff]
  exact List.mem_filter

/-- Erasing removes the row under one key. -/
theorem find?_erase (table : Table α) (key other : Int) :
    (table.erase key).find? other = if other = key then none else table.find? other := by
  apply Option.ext
  intro value
  rw [find?_eq_some_iff]
  by_cases hkey : other = key
  · simp [erase, hkey]
  · simp [erase, hkey, find?_eq_some_iff]

theorem contains_iff {table : Table α} {key : Int} :
    table.contains key = true ↔ ∃ value, table.find? key = some value :=
  Option.isSome_iff_exists

theorem contains_insert {table : Table α} {key other : Int} {value : α}
    (hcontains : table.contains other = true) : (table.insert key value).contains other = true := by
  rw [contains, find?_insert]
  split
  next => rfl
  next => exact hcontains

@[simp] theorem contains_modify (table : Table α) (key other : Int) (change : α → α) :
    (table.modify key change).contains other = table.contains other := by
  rw [contains, find?_modify]
  split
  next => exact Option.isSome_map
  next => rfl

/-! ## All rows -/

theorem mem_values_iff {table : Table α} {value : α} :
    value ∈ table.values ↔ ∃ key, table.find? key = some value := by
  simp only [values, List.mem_map, find?_eq_some_iff]
  constructor
  · rintro ⟨entry, hmem, rfl⟩
    exact ⟨entry.1, hmem⟩
  · rintro ⟨key, hmem⟩
    exact ⟨(key, value), hmem, rfl⟩

/-- A row under a new key joins the others. -/
theorem values_insert_perm {table : Table α} {key : Int} (hnew : table.find? key = none)
    (value : α) : (table.insert key value).values.Perm (value :: table.values) := by
  obtain ⟨entries, hordered⟩ := table
  simp only [find?, Option.map_eq_none_iff, List.find?_eq_none, decide_eq_true_eq] at hnew
  simp only [values, insert]
  clear hordered
  induction entries with
  | nil => exact List.Perm.refl _
  | cons entry rest ih =>
      have hhead : key ≠ entry.1 := fun heq => hnew entry List.mem_cons_self heq.symm
      simp only [insertEntry, if_neg hhead]
      split
      next => exact List.Perm.refl _
      next =>
        have hrest := ih fun other hmem => hnew other (List.mem_cons_of_mem _ hmem)
        exact (hrest.cons entry.2).trans (List.Perm.swap _ _ _)

/-- A change that a view of the rows does not show leaves the view as it is. -/
theorem map_values_modify {table : Table α} {key : Int} {change : α → α} {view : α → β}
    (hview : ∀ value, table.find? key = some value → view (change value) = view value) :
    (table.modify key change).values.map view = table.values.map view := by
  simp only [values, modify, List.map_map]
  apply List.map_congr_left
  intro entry hmem
  simp only [Function.comp_apply]
  split
  next hkey =>
    subst hkey
    exact hview _ (find?_eq_some_iff.mpr hmem)
  next => rfl

/-- Putting another row in the place of one keeps what the two have in common. -/
theorem map_values_replace {table : Table α} {key : Int} {row new : α} {view : α → β}
    (hfound : table.find? key = some row) (hview : view new = view row) :
    (table.modify key fun _ => new).values.map view = table.values.map view := by
  apply map_values_modify
  intro value hvalue
  obtain rfl := Option.some.inj (hfound.symm.trans hvalue)
  exact hview

theorem values_filter (table : Table α) (keep : α → Bool) :
    (table.filter keep).values = table.values.filter keep := by
  simp only [values, filter, List.filter_map]
  rfl

theorem values_erase_sublist (table : Table α) (key : Int) :
    (table.erase key).values.Sublist table.values :=
  List.filter_sublist.map _

/-- A row stands beside those that remain once it is erased. -/
theorem values_erase_perm {table : Table α} {key : Int} {value : α}
    (hfound : table.find? key = some value) :
    table.values.Perm (value :: (table.erase key).values) := by
  obtain ⟨entries, hordered⟩ := table
  rw [find?_eq_some_iff] at hfound
  simp only [values, erase] at hfound ⊢
  induction entries with
  | nil => simp at hfound
  | cons entry rest ih =>
      obtain ⟨hbefore, hrest⟩ := List.pairwise_cons.mp hordered
      rcases List.mem_cons.mp hfound with rfl | hmem
      · have hothers : rest.filter (fun other => other.1 ≠ key) = rest := by
          apply List.filter_eq_self.mpr
          intro other hother
          have hless := hbefore other hother
          simp only [ne_eq, decide_eq_true_eq] at hless ⊢
          omega
        rw [List.filter_cons_of_neg (by simp), hothers]
        exact List.Perm.refl _
      · have hless := hbefore _ hmem
        have hhead : entry.1 ≠ key := by
          simp only at hless
          omega
        rw [List.filter_cons_of_pos (by simpa using hhead)]
        exact ((ih hrest hmem).cons entry.2).trans (List.Perm.swap _ _ _)

/-- A changed row stands beside those under other keys. -/
theorem values_modify_perm {table : Table α} {key : Int} {value : α} (change : α → α)
    (hfound : table.find? key = some value) :
    (table.modify key change).values.Perm (change value :: (table.erase key).values) := by
  have hchanged : (table.modify key change).find? key = some (change value) := by
    rw [find?_modify, if_pos rfl, hfound, Option.map_some]
  have herase : ((table.modify key change).erase key).values = (table.erase key).values := by
    simp only [values, erase, modify, List.filter_map, List.map_map]
    apply List.map_congr_left
    intro entry hmem
    have hother : entry.1 ≠ key := by simpa using (List.mem_filter.mp hmem).2
    simp [hother]
  rw [← herase]
  exact values_erase_perm hchanged

/-- Only what a change does to the row under its key matters. -/
theorem modify_congr {table : Table α} {key : Int} {change other : α → α}
    (hsame : ∀ value, table.find? key = some value → change value = other value) :
    table.modify key change = table.modify key other := by
  obtain ⟨entries, hordered⟩ := table
  simp only [modify, mk.injEq]
  apply List.map_congr_left
  intro entry hmem
  split
  next hkey =>
    subst hkey
    rw [hsame _ (find?_eq_some_iff.mpr hmem)]
  next => rfl

theorem modify_id (table : Table α) (key : Int) :
    (table.modify key fun value => value) = table := by
  simp [modify]

theorem modify_eq_self {table : Table α} {key : Int} (change : α → α)
    (habsent : table.find? key = none) : table.modify key change = table := by
  refine (modify_congr fun value hvalue => ?_).trans (table.modify_id key)
  cases habsent.symm.trans hvalue

theorem erase_eq_self {table : Table α} {key : Int} (habsent : table.find? key = none) :
    table.erase key = table := by
  obtain ⟨entries, hordered⟩ := table
  simp only [erase, mk.injEq, List.filter_eq_self]
  intro entry hmem
  simp only [find?, Option.map_eq_none_iff, List.find?_eq_none, decide_eq_true_eq] at habsent
  simpa using habsent entry hmem

/-- A table is known by the row under every key. -/
theorem ext_find? {table other : Table α} (hsame : ∀ key, table.find? key = other.find? key) :
    table = other := by
  have hmem (entry : Int × α) : entry ∈ table.entries ↔ entry ∈ other.entries := by
    obtain ⟨key, value⟩ := entry
    rw [← find?_eq_some_iff, ← find?_eq_some_iff, hsame]
  obtain ⟨entries, hordered⟩ := table
  obtain ⟨others, hothers⟩ := other
  have hdistinct {entries : List (Int × α)} (hordered : entries.Pairwise fun a b => a.1 < b.1) :
      entries.Nodup := by
    refine hordered.imp fun {entry later} hless => ?_
    rintro rfl
    exact Int.lt_irrefl _ hless
  have hperm := (List.perm_ext_iff_of_nodup (hdistinct hordered) (hdistinct hothers)).mpr hmem
  rw [mk.injEq]
  refine hperm.eq_of_pairwise (fun entry later _ _ hless hmore => ?_) hordered hothers
  exact absurd hmore (Int.not_lt.mpr (Int.le_of_lt hless))

/-! ## Changing all rows -/

/-- Changes every row. -/
def map (table : Table α) (change : α → α) : Table α where
  entries := table.entries.map fun entry => (entry.1, change entry.2)
  ordered := List.pairwise_map.mpr table.ordered

theorem find?_map (table : Table α) (change : α → α) (key : Int) :
    (table.map change).find? key = (table.find? key).map change := by
  obtain ⟨entries, hordered⟩ := table
  simp only [find?, map, List.find?_map, Option.map_map]
  rfl

theorem values_map (table : Table α) (change : α → α) :
    (table.map change).values = table.values.map change := by
  simp only [values, map, List.map_map]
  rfl

/-- A change that is no change to any row leaves the table as it is. -/
theorem map_eq_self {table : Table α} {change : α → α}
    (hsame : ∀ value ∈ table.values, change value = value) : table.map change = table := by
  apply ext_find?
  intro key
  rw [find?_map]
  cases hfound : table.find? key with
  | none => rfl
  | some value => exact congrArg some (hsame value (mem_values_iff.mpr ⟨key, hfound⟩))

/-! ## Rows under their own ids -/

/-- Whether every row stands under its own id. -/
def Keyed (id : α → Int) (table : Table α) : Prop :=
  ∀ key value, table.find? key = some value → id value = key

namespace Keyed

variable {id : α → Int} {table : Table α}

theorem empty : Keyed id (Table.empty : Table α) := by
  intro key value hfound
  simp at hfound

theorem insert (hkeyed : table.Keyed id) (value : α) :
    (table.insert (id value) value).Keyed id := by
  intro key row hfound
  rw [find?_insert] at hfound
  split at hfound
  next hkey => exact (Option.some.inj hfound) ▸ hkey.symm
  next => exact hkeyed key row hfound

theorem modify (hkeyed : table.Keyed id) {key : Int} {change : α → α}
    (hid : ∀ value, table.find? key = some value → id (change value) = id value) :
    (table.modify key change).Keyed id := by
  intro other row hfound
  rw [find?_modify] at hfound
  split at hfound
  next hkey =>
    subst hkey
    obtain ⟨value, hvalue, rfl⟩ := Option.map_eq_some_iff.mp hfound
    rw [hid value hvalue]
    exact hkeyed _ _ hvalue
  next => exact hkeyed other row hfound

theorem filter (hkeyed : table.Keyed id) (keep : α → Bool) : (table.filter keep).Keyed id := by
  intro key row hfound
  rw [find?_filter] at hfound
  exact hkeyed key row (Option.filter_eq_some_iff.mp hfound).1

theorem map (hkeyed : table.Keyed id) {change : α → α} (hid : ∀ value, id (change value) = id value) :
    (table.map change).Keyed id := by
  intro key row hfound
  rw [find?_map] at hfound
  obtain ⟨value, hvalue, rfl⟩ := Option.map_eq_some_iff.mp hfound
  rw [hid]
  exact hkeyed key value hvalue

theorem erase (hkeyed : table.Keyed id) (key : Int) : (table.erase key).Keyed id := by
  intro other row hfound
  rw [find?_erase] at hfound
  split at hfound
  next => simp at hfound
  next => exact hkeyed other row hfound

end Keyed

end FishMarket.Table
