import ForeignTypes.Table
import Mathlib.Data.Multiset.Count
import Mathlib.Data.Multiset.MapFold

/-!
# The values of a table

Who looks after what is kept in a table need not know under which names it is kept.  The *values* of
a table forget the keys and the order: they are the multiset of what stands in the rows.  A write
then only exchanges one value for another, and **what a write displaces is not lost**: it stands on
the other side of the equation.

* `Table.values` — the multiset of what is kept.
* **`Table.values_put`**, **`Table.values_erase`** — what a write or a removal displaces.
* `Table.values_replace` — a value that is written over, among those that stay.
* `Table.namesWhere` — the names of the values of some kind, as many as there are such values.
-/

namespace ForeignTypes.Table

variable {κ α : Type}

/-- What is kept in a table, each thing as often as it is kept. -/
def values (t : Table κ α) : Multiset α := (t.rows.map Prod.snd : List α)

@[simp]
lemma values_empty : ({} : Table κ α).values = 0 := rfl

lemma values_update (t : Table κ α) (f : α → α) :
    (t.update fun _ a => f a).values = t.values.map f := by
  simp [values, update, Function.comp_def]

variable [DecidableEq κ]

lemma mem_values {t : Table κ α} {a : α} : a ∈ t.values ↔ ∃ k, t.get? k = some a := by
  simp only [values, Multiset.mem_coe, List.mem_map, Prod.exists, exists_eq_right, mem_rows]

/-- **What a write displaces**: the old value of the key makes room for the new one. -/
theorem values_put (t : Table κ α) (k : κ) (a : α) :
    ((t.get? k).toList : Multiset α) + (t.put k a).values = a ::ₘ t.values := by
  obtain ⟨rows, distinct⟩ := t
  simp only [values, get?, put, Multiset.coe_add, Multiset.cons_coe, Multiset.coe_eq_coe]
  -- only the rows count, so the induction is on them and forgets that keys are distinct
  clear distinct
  induction rows with
  | nil => rfl
  | cons row rows ih =>
      obtain ⟨k₀, b⟩ := row
      by_cases h : k₀ = k
      · simp only [find?, write, h, if_true, List.map_cons, Option.toList_some,
          List.singleton_append]
        exact List.Perm.swap a b _
      · simp only [find?, write, h, if_false, List.map_cons]
        exact (List.perm_middle.trans (ih.cons b)).trans (List.Perm.swap a b _)

lemma values_put_of_none {t : Table κ α} {k : κ} (h : t.get? k = none) (a : α) :
    (t.put k a).values = a ::ₘ t.values := by
  have hvalues := values_put t k a
  rw [h] at hvalues
  simpa using hvalues

lemma values_put_of_some {t : Table κ α} {k : κ} {old : α} (h : t.get? k = some old) (a : α) :
    a ::ₘ t.values = old ::ₘ (t.put k a).values := by
  have hvalues := values_put t k a
  rw [h] at hvalues
  exact hvalues.symm

/-- **What a removal displaces**: the value of the key. -/
theorem values_erase (t : Table κ α) (k : κ) :
    ((t.get? k).toList : Multiset α) + (t.erase k).values = t.values := by
  obtain ⟨rows, distinct⟩ := t
  simp only [values, get?, erase, keep, Multiset.coe_add, Multiset.coe_eq_coe]
  induction rows with
  | nil => rfl
  | cons row rows ih =>
      obtain ⟨k₀, b⟩ := row
      obtain ⟨hk₀, hrows⟩ := List.nodup_cons.mp (show (k₀ :: rows.map Prod.fst).Nodup from distinct)
      have ih := ih hrows
      by_cases h : k₀ = k
      · subst h
        have hnone : find? k₀ rows = none := find?_eq_none.mpr hk₀
        rw [hnone] at ih
        simpa [find?] using ih.cons b
      · simp only [find?, h, if_false, ne_eq, decide_not, List.filter_cons, decide_false,
          Bool.not_false, if_true, List.map_cons] at ih ⊢
        exact List.perm_middle.trans (ih.cons b)

lemma values_erase_of_some {t : Table κ α} {k : κ} {a : α} (h : t.get? k = some a) :
    t.values = a ::ₘ (t.erase k).values := by
  have hvalues := values_erase t k
  rw [h] at hvalues
  exact hvalues.symm

/-- A value that is written over, and those that stay. -/
lemma values_replace {t : Table κ α} {k : κ} {a : α} (h : t.get? k = some a) :
    ∃ rest, t.values = a ::ₘ rest ∧ ∀ a', (t.put k a').values = a' ::ₘ rest := by
  refine ⟨(t.erase k).values, values_erase_of_some h, fun a' => ?_⟩
  have hput := values_put_of_some h a'
  rw [values_erase_of_some h, Multiset.cons_swap] at hput
  exact ((Multiset.cons_inj_right a).mp hput).symm

lemma mem_values_of_get? {t : Table κ α} {k : κ} {a : α} (h : t.get? k = some a) : a ∈ t.values :=
  mem_values.mpr ⟨k, h⟩

/-- Values that are told apart by `f` have one key each. -/
lemma key_eq_of_nodup {β : Type} {t : Table κ α} {f : α → β} (h : (t.values.map f).Nodup)
    {k k' : κ} {a a' : α} (ha : t.get? k = some a) (ha' : t.get? k' = some a') (hf : f a = f a') :
    k = k' := by
  have hnodup : (t.rows.map fun row => f row.2).Nodup := by
    simpa [values, Function.comp_def] using h
  have hrows : (k, a) = (k', a') :=
    List.inj_on_of_nodup_map hnodup (mem_rows.mpr ha) (mem_rows.mpr ha') hf
  exact congrArg Prod.fst hrows

lemma put_get? {t : Table κ α} {k : κ} {a : α} (h : t.get? k = some a) : t.put k a = t := by
  obtain ⟨rows, distinct⟩ := t
  simp only [put, get?, mk.injEq] at h ⊢
  clear distinct
  induction rows with
  | nil => simp [find?] at h
  | cons row rows ih =>
      obtain ⟨k₀, b⟩ := row
      by_cases hk : k₀ = k
      · simp only [find?, hk, if_true, Option.some.injEq] at h
        simp [write, hk, h]
      · simp only [find?, hk, if_false] at h
        simp [write, hk, ih h]

/-! ## Names of values of some kind -/

/-- The names of the values of some kind, in alphabetical order. -/
def namesWhere (t : Table String α) (p : α → Prop) [DecidablePred p] : List String :=
  alphabetical ((t.rows.filter fun row => p row.2).map Prod.fst)

lemma mem_namesWhere {t : Table String α} {p : α → Prop} [DecidablePred p] {name : String} :
    name ∈ t.namesWhere p ↔ ∃ a, t.get? name = some a ∧ p a := by
  simp [namesWhere, alphabetical, mem_rows]

lemma length_namesWhere (t : Table String α) (p : α → Prop) [DecidablePred p] :
    (t.namesWhere p).length = t.values.countP p := by
  rw [namesWhere, alphabetical, List.length_mergeSort, List.length_map, values,
    Multiset.coe_countP, List.countP_map, List.countP_eq_length_filter]
  rfl

lemma length_namesOf [DecidableEq α] (t : Table String α) (a : α) :
    (t.namesOf a).length = t.values.count a := by
  rw [Multiset.count, ← length_namesWhere]
  simp only [namesOf, namesWhere, eq_comm]

end ForeignTypes.Table
