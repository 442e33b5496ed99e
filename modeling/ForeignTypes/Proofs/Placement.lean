import ForeignTypes.Layout
import Mathlib.Tactic.Common

/-!
# Where fields are placed

Without a bound on sums, fields go where the rules of C put them: each at a multiple of the
alignment that counts for it, after all that was placed before, and inside the whole.

* `Counting.le_alignUp`, `Counting.dvd_alignUp` — the next multiple.
* `Layout.exists_placed` — each field has a place of its size.
* `Layout.pairwise_place` — the places are in order, and apart.
* **`Layout.exists_placed_compute`**, **`Layout.pairwise_compute`** — the same of a whole layout.
* `Layout.align_dvd_commonAlign` — if all alignments are powers of two, each of them divides that of
  the whole.
-/

namespace ForeignTypes

namespace Counting

lemma dvd_alignUp (offset align : Nat) : align ∣ exact.alignUp offset align :=
  Nat.dvd_mul_left _ _

lemma le_alignUp (offset : Nat) {align : Nat} (h : 0 < align) :
    offset ≤ exact.alignUp offset align := by
  have hsteps := Nat.div_add_mod (offset + (align - 1)) align
  have hrest := Nat.mod_lt (offset + (align - 1)) h
  simp only [alignUp, keep, stepsUp, Nat.mul_comm _ align]
  omega

end Counting

namespace Layout

variable {limit : Option Nat} {f : FieldExtent} {fs : List FieldExtent} {i : Nat}

lemma effectiveAlign_pos (limit : Option Nat) (align : Nat) : 0 < effectiveAlign limit align := by
  cases limit with
  | none => simp only [effectiveAlign]; omega
  | some most => simp only [effectiveAlign]; omega

lemma commonAlign_pos (limit : Option Nat) (fs : List FieldExtent) : 0 < commonAlign limit fs := by
  cases fs with
  | nil => exact Nat.one_pos
  | cons f fs =>
      have hpos := effectiveAlign_pos limit f.align
      simp only [commonAlign]
      omega

/-! ## Places -/

/-- What is placed next starts after the end of what was placed. -/
lemma le_place (limit : Option Nat) (stop : Nat) (fs : List FieldExtent) :
    stop ≤ (place .exact limit stop fs).2 := by
  induction fs generalizing stop with
  | nil => exact Nat.le_refl stop
  | cons f fs ih =>
      have hstart := Counting.le_alignUp stop (effectiveAlign_pos limit f.align)
      refine Nat.le_trans ?_ (ih _)
      exact Nat.le_trans hstart (Nat.le_add_right _ _)

/-- All places lie between the end of what was placed before and the end of the last field. -/
lemma bounds_of_mem_place {stop : Nat} {p : Placement} (hp : p ∈ (place .exact limit stop fs).1) :
    stop ≤ p.offset ∧ p.offset + p.size ≤ (place .exact limit stop fs).2 := by
  induction fs generalizing stop with
  | nil => exact absurd hp (by simp [place])
  | cons f fs ih =>
      have hstart := Counting.le_alignUp stop (effectiveAlign_pos limit f.align)
      rcases List.mem_cons.mp hp with rfl | hp
      · exact ⟨hstart, le_place limit _ fs⟩
      · obtain ⟨hafter, hbefore⟩ := ih hp
        exact ⟨Nat.le_trans (Nat.le_trans hstart (Nat.le_add_right _ _)) hafter, hbefore⟩

/-- Each field has a place: one of its size, at a multiple of the alignment that counts. -/
lemma exists_placed (limit : Option Nat) (stop : Nat) (h : fs[i]? = some f) :
    ∃ p, (place .exact limit stop fs).1[i]? = some p ∧ p.size = f.size ∧
      effectiveAlign limit f.align ∣ p.offset := by
  induction fs generalizing stop i with
  | nil => exact absurd h (by simp)
  | cons f' fs ih =>
      cases i with
      | zero =>
          obtain rfl : f' = f := by simpa using h
          exact ⟨_, rfl, rfl, Counting.dvd_alignUp stop _⟩
      | succ i => exact ih _ (by simpa using h)

/-- Each field ends before the next one starts. -/
lemma pairwise_place (limit : Option Nat) (stop : Nat) (fs : List FieldExtent) :
    (place .exact limit stop fs).1.Pairwise fun p q => p.offset + p.size ≤ q.offset := by
  induction fs generalizing stop with
  | nil => exact .nil
  | cons f fs ih => exact .cons (fun q hq => (bounds_of_mem_place hq).1) (ih _)

/-! ## Layouts -/

lemma dvd_size_compute (fs : List FieldExtent) (limit : Option Nat) :
    (compute .exact fs limit).align ∣ (compute .exact fs limit).size :=
  Counting.dvd_alignUp _ _

/-- **Each field has its place in the layout.** -/
theorem exists_placed_compute (limit : Option Nat) (h : fs[i]? = some f) :
    ∃ p, (compute .exact fs limit).fields[i]? = some p ∧ p.size = f.size ∧
      effectiveAlign limit f.align ∣ p.offset ∧
      p.offset + p.size ≤ (compute .exact fs limit).size := by
  obtain ⟨p, hp, hsize, hdvd⟩ := exists_placed limit 0 h
  have hstop := (bounds_of_mem_place (List.mem_of_getElem? hp)).2
  exact ⟨p, hp, hsize, hdvd, Nat.le_trans hstop (Counting.le_alignUp _ (commonAlign_pos limit fs))⟩

/-- **Fields are placed in order, and apart.** -/
theorem pairwise_compute {j : Nat} {p q : Placement} (hij : i < j)
    (hp : (compute .exact fs limit).fields[i]? = some p)
    (hq : (compute .exact fs limit).fields[j]? = some q) : p.offset + p.size ≤ q.offset := by
  obtain ⟨hi, rfl⟩ := List.getElem?_eq_some_iff.mp hp
  obtain ⟨hj, rfl⟩ := List.getElem?_eq_some_iff.mp hq
  exact List.pairwise_iff_getElem.mp (pairwise_place limit 0 fs) i j hi hj hij

/-! ## Powers of two -/

lemma dvd_of_isPowerOfTwo {a b : Nat} (ha : a.isPowerOfTwo) (hb : b.isPowerOfTwo) (h : a ≤ b) :
    a ∣ b := by
  obtain ⟨j, rfl⟩ := ha
  obtain ⟨k, rfl⟩ := hb
  exact Nat.pow_dvd_pow 2 ((Nat.pow_le_pow_iff_right (by decide)).mp h)

lemma isPowerOfTwo_max {a b : Nat} (ha : a.isPowerOfTwo) (hb : b.isPowerOfTwo) :
    (max a b).isPowerOfTwo := by
  rcases Nat.le_total a b with h | h
  · rwa [Nat.max_eq_right h]
  · rwa [Nat.max_eq_left h]

lemma effectiveAlign_none {align : Nat} (h : align.isPowerOfTwo) :
    effectiveAlign none align = align :=
  Nat.max_eq_left (Nat.pos_of_isPowerOfTwo h)

lemma isPowerOfTwo_commonAlign (h : ∀ f ∈ fs, f.align.isPowerOfTwo) :
    (commonAlign none fs).isPowerOfTwo := by
  induction fs with
  | nil => exact ⟨0, rfl⟩
  | cons f fs ih =>
      rw [commonAlign, effectiveAlign_none (h f (by simp))]
      exact isPowerOfTwo_max (h f (by simp)) (ih fun f' hf' => h f' (by simp [hf']))

/-- The alignment of the whole is a multiple of that of each field. -/
lemma align_dvd_commonAlign (h : ∀ f ∈ fs, f.align.isPowerOfTwo) (hf : f ∈ fs) :
    f.align ∣ commonAlign none fs := by
  refine dvd_of_isPowerOfTwo (h f hf) (isPowerOfTwo_commonAlign h) ?_
  clear h
  induction fs with
  | nil => exact absurd hf (by simp)
  | cons f' fs ih =>
      simp only [commonAlign]
      rcases List.mem_cons.mp hf with rfl | hf
      · exact Nat.le_trans (Nat.le_max_left _ 1) (Nat.le_max_left _ _)
      · exact Nat.le_trans (ih hf) (Nat.le_max_right _ _)

end Layout

end ForeignTypes
