/-!
# Tables in order of insertion

A finite table from keys to values that remembers the order in which its keys first came.  Writing
to a key that is there changes its value in place; a new key goes to the end.  No key stands twice
in a table, and each operation says why it keeps that so.

* `Table` — the rows, first come first.
* `Table.get?`, `Table.put`, `Table.erase`, `Table.keep` — read, write, remove one, remove many.
* `Table.update` — change the values, each in its place.
* `Table.namesOf` — the names of a value, in a table of names.
* **`Table.keys_put`** — a write to a new key adds it at the end, any other leaves the keys alone.
* **`Table.get?_put`**, **`Table.get?_erase`** — what is read after a write or a removal.
* `Table.get?_keep`, `Table.get?_update` — the same after many removals, and after a change of all.
* **`Table.mem_rows`** — what is read at a key is what stands in its row.
-/

namespace ForeignTypes

def alphabetical (names : List String) : List String := names.mergeSort (· ≤ ·)

variable {κ α : Type}

/-- A finite table, as its rows in order of insertion. -/
structure Table (κ α : Type) where
  rows : List (κ × α) := []
  /-- No key stands twice. -/
  distinct : (rows.map Prod.fst).Nodup := by exact List.nodup_nil

namespace Table

/-- The keys in order of insertion. -/
def keys (t : Table κ α) : List κ := t.rows.map Prod.fst

def size (t : Table κ α) : Nat := t.rows.length

def isEmpty (t : Table κ α) : Bool := t.rows.isEmpty

theorem nodup_keys (t : Table κ α) : t.keys.Nodup := t.distinct

/-! ## Lists of rows -/

section Rows

variable [DecidableEq κ]

/-- The first value of a key in a list of rows. -/
def find? (k : κ) : List (κ × α) → Option α
  | [] => none
  | (k', a) :: rows => if k' = k then some a else find? k rows

/-- Write a value to a key of a list of rows: in place, or at the end. -/
def write (k : κ) (a : α) : List (κ × α) → List (κ × α)
  | [] => [(k, a)]
  | (k', b) :: rows => if k' = k then (k, a) :: rows else (k', b) :: write k a rows

theorem map_fst_write (k : κ) (a : α) (rows : List (κ × α)) :
    (write k a rows).map Prod.fst
      = if k ∈ rows.map Prod.fst then rows.map Prod.fst else rows.map Prod.fst ++ [k] := by
  induction rows with
  | nil => rfl
  | cons row rows ih =>
    obtain ⟨k₀, b⟩ := row
    by_cases h : k₀ = k
    · subst h
      simp [write]
    · by_cases hm : k ∈ rows.map Prod.fst
      · simp only [write, h, if_false, List.map_cons, ih, hm, if_true, List.mem_cons, or_true]
      · simp only [write, h, if_false, List.map_cons, ih, hm, List.mem_cons, Ne.symm h, or_self,
          List.cons_append]

/-- No write makes a key stand twice. -/
theorem nodup_write {rows : List (κ × α)} (h : (rows.map Prod.fst).Nodup) (k : κ) (a : α) :
    ((write k a rows).map Prod.fst).Nodup := by
  rw [map_fst_write]
  split
  · exact h
  · next hk =>
    rw [List.nodup_append]
    refine ⟨h, by simp, ?_⟩
    intro x hx y hy
    rw [List.mem_singleton.mp hy]
    exact fun hxk => hk (hxk ▸ hx)

theorem find?_write (k k' : κ) (a : α) (rows : List (κ × α)) :
    find? k' (write k a rows) = if k = k' then some a else find? k' rows := by
  induction rows with
  | nil => rfl
  | cons row rows ih =>
    obtain ⟨k₀, b⟩ := row
    by_cases h : k₀ = k
    · subst h
      by_cases h' : k₀ = k' <;> simp [write, find?, h']
    · by_cases h' : k₀ = k'
      · subst h'
        simp [write, find?, h, Ne.symm h]
      · simp [write, find?, h, h', ih]

theorem find?_eq_none {k : κ} {rows : List (κ × α)} :
    find? k rows = none ↔ k ∉ rows.map Prod.fst := by
  induction rows with
  | nil => simp [find?]
  | cons row rows ih =>
    obtain ⟨k₀, b⟩ := row
    by_cases h : k₀ = k
    · simp [find?, h]
    · simp [find?, h, ih, Ne.symm h]

/-- What is read stands in a row, and it is the only thing that stands there for its key. -/
theorem find?_eq_some {rows : List (κ × α)} (h : (rows.map Prod.fst).Nodup) {k : κ} {a : α} :
    find? k rows = some a ↔ (k, a) ∈ rows := by
  induction rows with
  | nil => simp [find?]
  | cons row rows ih =>
    obtain ⟨k₀, b⟩ := row
    obtain ⟨hk₀, hrows⟩ := List.nodup_cons.mp (show (k₀ :: rows.map Prod.fst).Nodup from h)
    by_cases hk : k₀ = k
    · subst hk
      have hnot : (k₀, a) ∉ rows := fun hm => hk₀ (List.mem_map_of_mem hm)
      simp [find?, hnot, eq_comm]
    · simp [find?, hk, Ne.symm hk, ih hrows]

theorem find?_filter {rows : List (κ × α)} (h : (rows.map Prod.fst).Nodup)
    (test : κ → α → Bool) (k : κ) :
    find? k (rows.filter fun row => test row.1 row.2) = (find? k rows).filter (test k) := by
  induction rows with
  | nil => rfl
  | cons row rows ih =>
    obtain ⟨k₀, b⟩ := row
    obtain ⟨hk₀, hrows⟩ := List.nodup_cons.mp (show (k₀ :: rows.map Prod.fst).Nodup from h)
    have ih := ih hrows
    by_cases hk : k₀ = k
    · subst hk
      by_cases hb : test k₀ b = true
      · simp [find?, Option.filter, hb]
      · simp [find?, Option.filter, hb, ih, find?_eq_none.mpr hk₀]
    · by_cases hb : test k₀ b = true <;> simp [find?, hb, hk, ih]

theorem find?_map (f : κ → α → α) (k : κ) (rows : List (κ × α)) :
    find? k (rows.map fun row => (row.1, f row.1 row.2)) = (find? k rows).map (f k) := by
  induction rows with
  | nil => rfl
  | cons row rows ih =>
    obtain ⟨k₀, b⟩ := row
    by_cases hk : k₀ = k
    · subst hk
      simp [find?]
    · simp [find?, hk, ih]

end Rows

/-! ## Tables -/

/-- The rows whose key and value pass a test. -/
def keep (t : Table κ α) (test : κ → α → Bool) : Table κ α where
  rows := t.rows.filter fun row => test row.1 row.2
  distinct := t.distinct.sublist (List.filter_sublist.map _)

/-- The table with each value changed in its place. -/
def update (t : Table κ α) (f : κ → α → α) : Table κ α where
  rows := t.rows.map fun row => (row.1, f row.1 row.2)
  distinct := by simpa [Function.comp_def] using t.distinct

variable [DecidableEq κ]

def get? (t : Table κ α) (k : κ) : Option α := find? k t.rows

def contains (t : Table κ α) (k : κ) : Bool := (t.get? k).isSome

def put (t : Table κ α) (k : κ) (a : α) : Table κ α :=
  ⟨write k a t.rows, nodup_write t.distinct k a⟩

def erase (t : Table κ α) (k : κ) : Table κ α := t.keep fun k' _ => k' ≠ k

/-- The names under which a value stands, in alphabetical order. -/
def namesOf [DecidableEq α] (t : Table String α) (a : α) : List String :=
  alphabetical ((t.rows.filter fun row => row.2 = a).map Prod.fst)

/-! ## Reading -/

@[simp]
theorem get?_empty (k : κ) : ({} : Table κ α).get? k = none := rfl

theorem get?_eq_none {t : Table κ α} {k : κ} : t.get? k = none ↔ k ∉ t.keys :=
  find?_eq_none

/-- **What is read at a key is what stands in its row.** -/
theorem mem_rows {t : Table κ α} {k : κ} {a : α} : (k, a) ∈ t.rows ↔ t.get? k = some a :=
  (find?_eq_some t.distinct).symm

/-- **What is read after a write**: the new value at its key, and the old one elsewhere. -/
@[simp]
theorem get?_put (t : Table κ α) (k k' : κ) (a : α) :
    (t.put k a).get? k' = if k = k' then some a else t.get? k' :=
  find?_write k k' a t.rows

/-- What is read after some rows are removed: a value that passes the test. -/
theorem get?_keep (t : Table κ α) (test : κ → α → Bool) (k : κ) :
    (t.keep test).get? k = (t.get? k).filter (test k) :=
  find?_filter t.distinct test k

/-- **What is read after a removal**: nothing at the key, and the old value elsewhere. -/
@[simp]
theorem get?_erase (t : Table κ α) (k k' : κ) :
    (t.erase k).get? k' = if k = k' then none else t.get? k' := by
  rw [erase, get?_keep]
  by_cases h : k = k'
  · simp [h, Option.filter]
    cases t.get? k' <;> rfl
  · cases t.get? k' <;> simp [h, Ne.symm h, Option.filter]

/-- What is read after a change of all values. -/
@[simp]
theorem get?_update (t : Table κ α) (f : κ → α → α) (k : κ) :
    (t.update f).get? k = (t.get? k).map (f k) :=
  find?_map f k t.rows

/-! ## The keys -/

/-- **The keys after a write**: a new key stands at the end, a known one where it stood. -/
theorem keys_put (t : Table κ α) (k : κ) (a : α) :
    (t.put k a).keys = if k ∈ t.keys then t.keys else t.keys ++ [k] :=
  map_fst_write k a t.rows

end Table

end ForeignTypes
