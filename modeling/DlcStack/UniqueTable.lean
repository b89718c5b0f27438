import Mathlib.Data.List.Nodup

/-!
# Tables with a unique key

A table is a list of rows no two of which have the same key, so a row that
would violate the key can be neither inserted nor produced by an update.  The
operations are the ones a relational store offers: select, insert, update and
delete by a predicate, and the lookup, replacement and removal of the row with
one key.
-/

/-- A list of rows with pairwise different keys. -/
structure UniqueTable (ρ κ : Type) (key : ρ → κ) where
  rows : List ρ
  unique : (rows.map key).Nodup

namespace UniqueTable

variable {ρ κ : Type} {key : ρ → κ}

@[ext]
theorem ext {first second : UniqueTable ρ κ key}
    (rows : first.rows = second.rows) : first = second := by
  cases first
  cases second
  cases rows
  rfl

instance [DecidableEq ρ] : DecidableEq (UniqueTable ρ κ key) := fun first second =>
  decidable_of_iff (first.rows = second.rows) ⟨ext, fun same => same ▸ rfl⟩

/-- The table without rows. -/
def empty : UniqueTable ρ κ key :=
  ⟨[], by simp⟩

/-- The rows that satisfy a predicate. -/
def select (table : UniqueTable ρ κ key) (which : ρ → Bool) : List ρ :=
  table.rows.filter which

/-- The table without the rows that satisfy a predicate. -/
def delete (table : UniqueTable ρ κ key) (which : ρ → Bool) :
    UniqueTable ρ κ key :=
  ⟨table.rows.filter fun row => !which row,
    table.unique.sublist (List.filter_sublist.map key)⟩

private theorem map_update_key {which : ρ → Bool} {change : ρ → ρ}
    (keeps : ∀ row, which row = true → key (change row) = key row) (rows : List ρ) :
    (rows.map fun row => if which row then change row else row).map key =
      rows.map key := by
  rw [List.map_map]
  refine List.map_congr_left fun row _ => ?_
  by_cases chosen : which row
  · simpa [chosen] using keeps row chosen
  · simp [chosen]

/-- The table with the rows that satisfy a predicate changed, each keeping its
key. -/
def update (table : UniqueTable ρ κ key) (which : ρ → Bool) (change : ρ → ρ)
    (keeps : ∀ row, which row = true → key (change row) = key row) :
    UniqueTable ρ κ key :=
  ⟨table.rows.map fun row => if which row then change row else row,
    (map_update_key keeps table.rows).symm ▸ table.unique⟩

@[simp]
theorem rows_empty : (empty : UniqueTable ρ κ key).rows = [] :=
  rfl

@[simp]
theorem rows_delete (table : UniqueTable ρ κ key) (which : ρ → Bool) :
    (table.delete which).rows = table.rows.filter fun row => !which row :=
  rfl

@[simp]
theorem rows_update (table : UniqueTable ρ κ key) (which : ρ → Bool)
    (change : ρ → ρ)
    (keeps : ∀ row, which row = true → key (change row) = key row) :
    (table.update which change keeps).rows =
      table.rows.map fun row => if which row then change row else row :=
  rfl

/-- Rows of the table with the same key are the same row. -/
theorem eq_of_key_eq (table : UniqueTable ρ κ key) {first second : ρ}
    (firstMem : first ∈ table.rows) (secondMem : second ∈ table.rows)
    (same : key first = key second) : first = second :=
  List.inj_on_of_nodup_map table.unique firstMem secondMem same

/-- Rows outside a deletion are untouched by it. -/
theorem select_delete_of_disjoint (table : UniqueTable ρ κ key)
    {which kept : ρ → Bool}
    (disjoint : ∀ row ∈ table.rows, which row = true → kept row = false) :
    (table.delete which).select kept = table.select kept := by
  unfold select
  rw [rows_delete, List.filter_filter]
  refine List.filter_congr fun row member => ?_
  cases chosen : which row
  · simp
  · simp [disjoint row member chosen]

/-- Rows outside an update are untouched by it. -/
theorem select_update_of_disjoint (table : UniqueTable ρ κ key)
    {which kept : ρ → Bool} {change : ρ → ρ}
    (keeps : ∀ row, which row = true → key (change row) = key row)
    (before : ∀ row ∈ table.rows, which row = true → kept row = false)
    (after : ∀ row ∈ table.rows, which row = true → kept (change row) = false) :
    (table.update which change keeps).select kept = table.select kept := by
  unfold select
  rw [rows_update]
  generalize table.rows = rows at before after ⊢
  induction rows with
  | nil => rfl
  | cons row rows ih =>
      have rest := ih (fun row member => before row (List.mem_cons_of_mem _ member))
        (fun row member => after row (List.mem_cons_of_mem _ member))
      by_cases chosen : which row
      · simp [chosen, before row (by simp) chosen, after row (by simp) chosen, rest]
      · simp [chosen, List.filter_cons, rest]

/-- A deletion that finds no row changes nothing. -/
theorem rows_delete_eq_iff (table : UniqueTable ρ κ key) (which : ρ → Bool) :
    (table.delete which).rows = table.rows ↔
      ∀ row ∈ table.rows, which row = false := by
  simp [List.filter_eq_self]

/-- An update changes nothing exactly when the rows it finds already are what
it makes of them. -/
theorem rows_update_eq_iff (table : UniqueTable ρ κ key) (which : ρ → Bool)
    (change : ρ → ρ)
    (keeps : ∀ row, which row = true → key (change row) = key row) :
    (table.update which change keeps).rows = table.rows ↔
      ∀ row ∈ table.rows, which row = true → change row = row := by
  rw [rows_update]
  constructor
  · intro same row member chosen
    have changed := List.map_inj_left.mp (same.trans (List.map_id _).symm) row member
    simpa [chosen] using changed
  · intro fixed
    refine (List.map_congr_left fun row member => ?_).trans (List.map_id _)
    by_cases chosen : which row
    · simpa [chosen] using fixed row member chosen
    · simp [chosen]

theorem select_eq_nil_iff (table : UniqueTable ρ κ key) (which : ρ → Bool) :
    table.select which = [] ↔ ∀ row ∈ table.rows, which row = false := by
  simp [select, List.filter_eq_nil_iff]

section DecidableEq

variable [DecidableEq κ]

/-- The row with the given key. -/
def find? (table : UniqueTable ρ κ key) (wanted : κ) : Option ρ :=
  table.rows.find? fun row => key row = wanted

/-- The table with one more row; nothing when the key is taken. -/
def insert (table : UniqueTable ρ κ key) (row : ρ) :
    Option (UniqueTable ρ κ key) :=
  if taken : key row ∈ table.rows.map key then none
  else some ⟨table.rows ++ [row], by
    rw [List.map_append, List.nodup_append]
    exact ⟨table.unique, by simp, by
      simp only [List.map_cons, List.map_nil, List.mem_singleton, ne_eq,
        forall_eq]
      exact fun other member same => taken (same ▸ member)⟩⟩

/-- The table without the row with the given key. -/
def erase (table : UniqueTable ρ κ key) (unwanted : κ) : UniqueTable ρ κ key :=
  table.delete fun row => key row = unwanted

/-- The table with the row of the same key replaced; nothing when there is no
such row. -/
def replace (table : UniqueTable ρ κ key) (row : ρ) :
    Option (UniqueTable ρ κ key) :=
  if key row ∈ table.rows.map key then
    some (table.update (fun old => key old = key row) (fun _ => row)
      (fun _ same => (of_decide_eq_true same).symm))
  else none

/-- The table with the row replaced or, when its key is free, inserted. -/
def put (table : UniqueTable ρ κ key) (row : ρ) : UniqueTable ρ κ key :=
  (table.replace row).getD ((table.insert row).getD table)

theorem find?_eq_some_iff {table : UniqueTable ρ κ key} {wanted : κ} {row : ρ} :
    table.find? wanted = some row ↔ row ∈ table.rows ∧ key row = wanted := by
  unfold find?
  constructor
  · intro found
    exact ⟨List.mem_of_find?_eq_some found, by simpa using List.find?_some found⟩
  · rintro ⟨member, rfl⟩
    cases found : table.rows.find? fun other => key other = key row with
    | none =>
        have := List.find?_eq_none.mp found row member
        simp at this
    | some other =>
        have otherMem := List.mem_of_find?_eq_some found
        have same : key other = key row := by
          simpa using List.find?_some found
        rw [table.eq_of_key_eq otherMem member same]

theorem find?_eq_none_iff {table : UniqueTable ρ κ key} {wanted : κ} :
    table.find? wanted = none ↔ ∀ row ∈ table.rows, key row ≠ wanted := by
  simp [find?, List.find?_eq_none]

theorem key_mem_iff {table : UniqueTable ρ κ key} {wanted : κ} :
    wanted ∈ table.rows.map key ↔ ∃ row, table.find? wanted = some row := by
  simp only [List.mem_map, find?_eq_some_iff]

theorem mem_rows_iff {table : UniqueTable ρ κ key} {row : ρ} :
    row ∈ table.rows ↔ table.find? (key row) = some row := by
  simp [find?_eq_some_iff]

@[simp]
theorem find?_empty (wanted : κ) :
    (empty : UniqueTable ρ κ key).find? wanted = none :=
  rfl

theorem find?_delete (table : UniqueTable ρ κ key) (which : ρ → Bool)
    (wanted : κ) :
    (table.delete which).find? wanted =
      (table.find? wanted).filter fun row => !which row := by
  ext row
  simp only [Option.filter_eq_some_iff, find?_eq_some_iff, rows_delete,
    List.mem_filter]
  constructor
  · rintro ⟨⟨member, kept⟩, found⟩
    exact ⟨⟨member, found⟩, kept⟩
  · rintro ⟨⟨member, found⟩, kept⟩
    exact ⟨⟨member, kept⟩, found⟩

theorem find?_update (table : UniqueTable ρ κ key) (which : ρ → Bool)
    (change : ρ → ρ)
    (keeps : ∀ row, which row = true → key (change row) = key row) (wanted : κ) :
    (table.update which change keeps).find? wanted =
      (table.find? wanted).map fun row => if which row then change row else row := by
  have sameKey (row : ρ) : key (if which row then change row else row) = key row := by
    by_cases chosen : which row
    · simpa [chosen] using keeps row chosen
    · simp [chosen]
  ext row
  simp only [Option.map_eq_some_iff, find?_eq_some_iff, rows_update, List.mem_map]
  constructor
  · rintro ⟨⟨old, member, rfl⟩, found⟩
    exact ⟨old, ⟨member, (sameKey old).symm.trans found⟩, rfl⟩
  · rintro ⟨old, ⟨member, found⟩, rfl⟩
    exact ⟨⟨old, member, rfl⟩, (sameKey old).trans found⟩

/-- Selecting by the key finds the one row with it. -/
theorem select_key (table : UniqueTable ρ κ key) (wanted : κ) :
    (table.select fun row => key row = wanted) = (table.find? wanted).toList := by
  cases found : table.find? wanted with
  | none =>
      rw [find?_eq_none_iff] at found
      simpa [select, List.filter_eq_nil_iff] using found
  | some row =>
      obtain ⟨member, rfl⟩ := find?_eq_some_iff.mp found
      obtain ⟨front, back, split⟩ := List.append_of_mem member
      have unique := table.unique
      rw [split, List.map_append, List.map_cons, List.nodup_middle,
        List.nodup_cons, ← List.map_append, List.mem_map] at unique
      have others (rows : List ρ) (inside : ∀ other ∈ rows, other ∈ front ++ back) :
          rows.filter (fun other => key other = key row) = [] := by
        refine List.filter_eq_nil_iff.mpr fun other member same => unique.1 ?_
        exact ⟨other, inside other member, of_decide_eq_true same⟩
      unfold select
      rw [split, List.filter_append, List.filter_cons_of_pos (by simp),
        others front fun _ => List.mem_append_left _,
        others back fun _ => List.mem_append_right _]
      rfl

@[simp]
theorem find?_erase (table : UniqueTable ρ κ key) (unwanted wanted : κ) :
    (table.erase unwanted).find? wanted =
      if wanted = unwanted then none else table.find? wanted := by
  unfold erase
  rw [find?_delete]
  cases found : table.find? wanted with
  | none => simp
  | some row =>
      obtain ⟨_, rfl⟩ := find?_eq_some_iff.mp found
      by_cases same : key row = unwanted <;> simp [same]

theorem insert_eq_some_iff {table after : UniqueTable ρ κ key} {row : ρ} :
    table.insert row = some after ↔
      table.find? (key row) = none ∧ after.rows = table.rows ++ [row] := by
  unfold insert
  split_ifs with taken
  · obtain ⟨other, found⟩ := key_mem_iff.mp taken
    simp [found]
  · have free : table.find? (key row) = none := by
      rw [find?_eq_none_iff]
      exact fun other member same => taken (List.mem_map.mpr ⟨other, member, same⟩)
    rw [Option.some.injEq]
    constructor
    · rintro rfl
      exact ⟨free, rfl⟩
    · rintro ⟨_, rows⟩
      exact ext rows.symm

theorem insert_eq_none_iff {table : UniqueTable ρ κ key} {row : ρ} :
    table.insert row = none ↔ ∃ old, table.find? (key row) = some old := by
  unfold insert
  split_ifs with taken
  · simpa using key_mem_iff.mp taken
  · simpa using fun old found => taken (key_mem_iff.mpr ⟨old, found⟩)

/-- Rows outside an insertion are untouched by it. -/
theorem select_insert_of_disjoint {table after : UniqueTable ρ κ key} {row : ρ}
    {kept : ρ → Bool} (inserted : table.insert row = some after)
    (disjoint : kept row = false) :
    after.select kept = table.select kept := by
  unfold select
  rw [(insert_eq_some_iff.mp inserted).2, List.filter_append]
  simp [disjoint]

theorem find?_insert {table after : UniqueTable ρ κ key} {row : ρ}
    (inserted : table.insert row = some after) (wanted : κ) :
    after.find? wanted =
      if wanted = key row then some row else table.find? wanted := by
  obtain ⟨free, rows⟩ := insert_eq_some_iff.mp inserted
  unfold find?
  rw [rows, List.find?_append]
  by_cases same : wanted = key row
  · subst wanted
    rw [if_pos rfl]
    have none : table.rows.find? (fun other => key other = key row) = none := free
    simp [none]
  · rw [if_neg same]
    have other : ([row].find? fun other => key other = wanted) = none := by
      simp [Ne.symm same]
    simp [other]

theorem replace_eq_some_iff {table after : UniqueTable ρ κ key} {row : ρ} :
    table.replace row = some after ↔
      (∃ old, table.find? (key row) = some old) ∧
        after.rows = table.rows.map fun old =>
          if key old = key row then row else old := by
  unfold replace
  split_ifs with taken
  · rw [Option.some.injEq]
    constructor
    · rintro rfl
      exact ⟨key_mem_iff.mp taken, by simp⟩
    · rintro ⟨_, rows⟩
      exact ext (by simp [rows])
  · simp only [false_iff, not_and]
    exact fun found => absurd (key_mem_iff.mpr found) taken

theorem find?_replace {table after : UniqueTable ρ κ key} {row : ρ}
    (replaced : table.replace row = some after) (wanted : κ) :
    after.find? wanted =
      if wanted = key row then some row else table.find? wanted := by
  obtain ⟨⟨old, found⟩, rows⟩ := replace_eq_some_iff.mp replaced
  obtain ⟨oldMem, oldKey⟩ := find?_eq_some_iff.mp found
  by_cases same : wanted = key row
  · subst wanted
    rw [if_pos rfl, find?_eq_some_iff, rows]
    exact ⟨List.mem_map.mpr ⟨old, oldMem, by simp [oldKey]⟩, rfl⟩
  · rw [if_neg same]
    ext other
    rw [find?_eq_some_iff, find?_eq_some_iff, rows, List.mem_map]
    constructor
    · rintro ⟨⟨source, member, rfl⟩, keyEq⟩
      split_ifs at keyEq ⊢ with changed
      · exact absurd keyEq.symm same
      · exact ⟨member, keyEq⟩
    · rintro ⟨member, rfl⟩
      exact ⟨⟨other, member, by simp [same]⟩, rfl⟩

theorem replace_eq_none_iff {table : UniqueTable ρ κ key} {row : ρ} :
    table.replace row = none ↔ table.find? (key row) = none := by
  unfold replace
  split_ifs with taken
  · obtain ⟨old, found⟩ := key_mem_iff.mp taken
    simp [found]
  · simp only [true_iff]
    cases found : table.find? (key row) with
    | none => rfl
    | some old => exact absurd (key_mem_iff.mpr ⟨old, found⟩) taken

@[simp]
theorem find?_put (table : UniqueTable ρ κ key) (row : ρ) (wanted : κ) :
    (table.put row).find? wanted =
      if wanted = key row then some row else table.find? wanted := by
  unfold put
  cases replaced : table.replace row with
  | some after => exact find?_replace replaced wanted
  | none =>
      have free := replace_eq_none_iff.mp replaced
      cases inserted : table.insert row with
      | some after => exact find?_insert inserted wanted
      | none =>
          unfold insert at inserted
          split_ifs at inserted with taken
          obtain ⟨old, found⟩ := key_mem_iff.mp taken
          rw [free] at found
          cases found

end DecidableEq

end UniqueTable
