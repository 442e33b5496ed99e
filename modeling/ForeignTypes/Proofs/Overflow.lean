import ForeignTypes.Proofs.LayoutRules
import Mathlib.Data.List.Basic

/-!
# Layouts that do not fit into words

A machine works a layout out in 64-bit words, and a sum that does not fit wraps around.  Could that
spoil a layout whose size does fit, or go unnoticed because a later sum comes out right again?
Neither: without a bound no sum on the way exceeds the size of the whole, so the first sum that does
not fit shows that the size does not fit; and until then all numbers are the exact ones.

* `stepsUp_le` — counting the steps to the next multiple stays within the offset.
* `Layout.placeOverflows_iff`, `Layout.place_words` — placing fields, in words and without a bound.
* `Layout.overflows_iff`, `Layout.compute_words_iff` — the same of the whole layout.
* **`Layout.overflow_exact`** — a sum does not fit exactly if the record does not.
* `Layout.Tidy` — fields that lie inside the whole and share no byte.
* **`Layout.tidy_compute_words_iff`** — the layouts in words that are tidy are those that fit.
-/

namespace ForeignTypes

/-- The number of steps to the next multiple is no sum that could fail to fit. -/
lemma stepsUp_le (offset align : Nat) : stepsUp offset align ≤ offset := by
  rcases Nat.eq_zero_or_pos align with rfl | hpos
  · simp [stepsUp]
  · rw [stepsUp, ← Nat.lt_add_one_iff, Nat.div_lt_iff_lt_mul hpos, Nat.add_mul, Nat.one_mul]
    have hle := Nat.le_mul_of_pos_right offset hpos
    omega

namespace Counting

lemma keep_exact (n : Nat) : exact.keep n = n := rfl

lemma keep_words {n : Nat} (h : n < wordRange) : words.keep n = n := Nat.mod_eq_of_lt h

lemma keep_words_lt (n : Nat) : words.keep n < wordRange := Nat.mod_lt n (by decide)

/-- The next multiple, if it fits. -/
lemma alignUp_words {offset align : Nat} (h : exact.alignUp offset align < wordRange) :
    words.alignUp offset align = exact.alignUp offset align :=
  keep_words h

/-- A multiple that does not fit is the first one that does not, and wraps around to zero. -/
lemma alignUp_words_eq_zero {offset align : Nat} (hpos : 0 < align) (hdvd : align ∣ wordRange)
    (hoffset : offset < wordRange) (hover : wordRange ≤ exact.alignUp offset align) :
    words.alignUp offset align = 0 := by
  have hle := (isLeast_alignUp offset hpos).2 ⟨hdvd, Nat.le_of_lt hoffset⟩
  have heq : stepsUp offset align * align = wordRange := Nat.le_antisymm hle hover
  rw [alignUp, heq]
  exact Nat.mod_self wordRange

/-- The start is at a multiple of every alignment. -/
lemma alignUp_zero (c : Counting) {align : Nat} (hpos : 0 < align) : c.alignUp 0 align = 0 := by
  have hsteps : stepsUp 0 align = 0 := Nat.div_eq_of_lt (by omega)
  rw [alignUp, hsteps, Nat.zero_mul]
  cases c with
  | exact => rfl
  | words => rfl

end Counting

namespace Layout

variable {limit : Option Nat} {fs : List FieldExtent} {stop : Nat}

/-! ## Placing fields -/

/-- The end of the first field is not above that of the last. -/
lemma end_le_place (limit : Option Nat) (stop : Nat) (f : FieldExtent) (fs : List FieldExtent) :
    Counting.exact.alignUp stop (effectiveAlign limit f.align) + f.size
      ≤ (place .exact limit stop (f :: fs)).2 :=
  le_place limit _ fs

/-- Fields whose end fits are placed in words where they are placed without a bound. -/
lemma place_words (h : (place .exact limit stop fs).2 < wordRange) :
    place .words limit stop fs = place .exact limit stop fs := by
  induction fs generalizing stop with
  | nil => rfl
  | cons f fs ih =>
      have hafter := end_le_place limit stop f fs
      have hstart : Counting.words.alignUp stop (effectiveAlign limit f.align)
          = Counting.exact.alignUp stop (effectiveAlign limit f.align) :=
        Counting.alignUp_words (by omega)
      have hend : Counting.words.keep
          (Counting.exact.alignUp stop (effectiveAlign limit f.align) + f.size)
            = Counting.exact.alignUp stop (effectiveAlign limit f.align) + f.size :=
        Counting.keep_words (by omega)
      have hrest : (place .exact limit
          (Counting.exact.alignUp stop (effectiveAlign limit f.align) + f.size) fs).2 < wordRange := h
      simp only [place, hstart, hend, Counting.keep_exact, ih hrest]

/-- By induction on the fields: as long as all fits, the words are the exact numbers, and what does
not fit is not above the end of the last field. -/
lemma placeOverflows_iff (hstop : stop < wordRange) :
    placeOverflows limit stop fs = true ↔ wordRange ≤ (place .exact limit stop fs).2 := by
  induction fs generalizing stop with
  | nil => simpa [placeOverflows, place] using hstop
  | cons f fs ih =>
      have hafter := end_le_place limit stop f fs
      have hsteps : stepsUp stop (effectiveAlign limit f.align) * effectiveAlign limit f.align
          = Counting.exact.alignUp stop (effectiveAlign limit f.align) := rfl
      by_cases hstart : Counting.exact.alignUp stop (effectiveAlign limit f.align) < wordRange
      · by_cases hend :
            Counting.exact.alignUp stop (effectiveAlign limit f.align) + f.size < wordRange
        · simp only [placeOverflows, hsteps, Counting.alignUp_words hstart,
            Counting.keep_words hend, decide_eq_false (Nat.not_le_of_lt hstart),
            decide_eq_false (Nat.not_le_of_lt hend), Bool.false_or]
          exact ih hend
        · simp only [placeOverflows, hsteps, Counting.alignUp_words hstart,
            decide_eq_true (Nat.le_of_not_lt hend), Bool.true_or, Bool.or_true, true_iff]
          omega
      · simp only [placeOverflows, hsteps, decide_eq_true (Nat.le_of_not_lt hstart), Bool.true_or,
          true_iff]
        omega

/-! ## Whole layouts -/

lemma place_le_size (limit : Option Nat) (fs : List FieldExtent) :
    (place .exact limit 0 fs).2 ≤ (compute .exact fs limit).size :=
  Counting.le_alignUp _ (commonAlign_pos limit fs)

/-- A sum of the 64-bit layout does not fit exactly if the size of the whole does not. -/
lemma overflows_iff :
    overflows fs limit = true ↔ wordRange ≤ (compute .exact fs limit).size := by
  have hstop := place_le_size limit fs
  have hplace : placeOverflows limit 0 fs = true ↔ wordRange ≤ (place .exact limit 0 fs).2 :=
    placeOverflows_iff (by decide)
  by_cases h : (place .exact limit 0 fs).2 < wordRange
  · have hfits : placeOverflows limit 0 fs = false := by
      rw [← Bool.not_eq_true, hplace]
      omega
    simp only [overflows, hfits, place_words h, Bool.false_or, decide_eq_true_eq]
    rfl
  · have hover : placeOverflows limit 0 fs = true := hplace.mpr (Nat.le_of_not_lt h)
    simp only [overflows, hover, Bool.true_or, true_iff]
    omega

/-- The 64-bit layout is the exact one exactly if its size fits. -/
lemma compute_words_iff :
    compute .words fs limit = compute .exact fs limit
      ↔ (compute .exact fs limit).size < wordRange := by
  constructor
  · intro heq
    rw [← heq]
    exact Counting.keep_words_lt _
  · intro h
    have hplace := place_words (Nat.lt_of_le_of_lt (place_le_size limit fs) h)
    simp only [compute, hplace]
    rw [Counting.alignUp_words h]

/-- **Sums overflow only if the record does not fit.**  For all fields and every limit on
alignment, some addition or multiplication of the 64-bit layout does not fit into a word if and only
if the exact size is 2^64 or more; if none does, the 64-bit layout is the exact one, with all its
offsets, its size and its alignment, and otherwise it is not.  The third part says that the division
within a rounding adds nothing that could overflow. -/
theorem overflow_exact (fs : List FieldExtent) (limit : Option Nat) :
    (overflows fs limit = true ↔ wordRange ≤ (compute .exact fs limit).size) ∧
    (overflows fs limit = false ↔ compute .words fs limit = compute .exact fs limit) ∧
    ∀ offset align, stepsUp offset align ≤ offset := by
  refine ⟨overflows_iff, ?_, stepsUp_le⟩
  rw [compute_words_iff, ← Nat.not_le, ← overflows_iff, Bool.not_eq_true]

/-- The padding at the end alone can be what does not fit. -/
example : overflows [⟨"a", 1, 2 ^ 63⟩, ⟨"b", 2 ^ 63, 1⟩] none = true ∧
    placeOverflows none 0 [⟨"a", 1, 2 ^ 63⟩, ⟨"b", 2 ^ 63, 1⟩] = false := by decide +kernel

/-! ## What a layout that does not fit looks like -/

/-- Each field lies inside the whole, and no byte is of two fields. -/
structure Tidy (l : Layout) : Prop where
  inside : ∀ p ∈ l.fields, p.offset + p.size ≤ l.size
  apart : l.fields.Pairwise fun p q =>
    p.offset + p.size ≤ q.offset ∨ q.offset + q.size ≤ p.offset

lemma tidy_compute_exact (fs : List FieldExtent) (limit : Option Nat) :
    (compute .exact fs limit).Tidy where
  inside _ hp := Nat.le_trans (bounds_of_mem_place hp).2 (place_le_size limit fs)
  apart := (pairwise_place limit 0 fs).imp .inl

/-- From the start on, the first field that takes room starts at zero. -/
lemma place_words_zero (limit : Option Nat) (fs : List FieldExtent) :
    (∃ p ∈ (place .words limit 0 fs).1, p.offset = 0 ∧ 0 < p.size) ∨
      (place .words limit 0 fs).2 = 0 := by
  induction fs with
  | nil => exact .inr rfl
  | cons f fs ih =>
      have hstart := Counting.alignUp_zero .words (effectiveAlign_pos limit f.align)
      simp only [place, hstart]
      rcases Nat.eq_zero_or_pos f.size with hsize | hsize
      · have hend : Counting.words.keep (0 + f.size) = 0 := by
          rw [hsize]
          rfl
        rw [hend]
        exact ih.imp_left List.exists_mem_cons_of_exists
      · exact .inl (List.exists_mem_cons_of _ ⟨rfl, hsize⟩)

/-- Fields that do not fit, the first of them not at the start: one reaches beyond the range of a
word, or one that takes room starts at zero again, or nothing takes room from there on. -/
lemma place_words_wraps (hdvd : ∀ f ∈ fs, effectiveAlign limit f.align ∣ wordRange)
    (hstop : stop < wordRange) (hover : wordRange ≤ (place .exact limit stop fs).2) :
    (∃ p ∈ (place .words limit stop fs).1, wordRange ≤ p.offset + p.size) ∨
      (∃ p ∈ (place .words limit stop fs).1, p.offset = 0 ∧ 0 < p.size) ∨
      (place .words limit stop fs).2 = 0 := by
  induction fs generalizing stop with
  | nil => exact absurd hover (Nat.not_le_of_lt hstop)
  | cons f fs ih =>
      have hpos := effectiveAlign_pos limit f.align
      by_cases hstart : Counting.exact.alignUp stop (effectiveAlign limit f.align) < wordRange
      · by_cases hend :
            Counting.exact.alignUp stop (effectiveAlign limit f.align) + f.size < wordRange
        · have hrest := ih (fun g hg => hdvd g (List.mem_cons_of_mem _ hg)) hend hover
          simp only [place, Counting.alignUp_words hstart, Counting.keep_words hend]
          exact hrest.imp List.exists_mem_cons_of_exists
            (.imp_left List.exists_mem_cons_of_exists)
        · refine .inl ⟨_, List.mem_cons_self, ?_⟩
          rw [Counting.alignUp_words hstart]
          exact Nat.le_of_not_lt hend
      · -- the field starts at zero, as if it were the first one
        have hzero := Counting.alignUp_words_eq_zero hpos (hdvd f List.mem_cons_self) hstop
          (Nat.le_of_not_lt hstart)
        have hsame : place .words limit stop (f :: fs) = place .words limit 0 (f :: fs) := by
          simp only [place, hzero, Counting.alignUp_zero .words hpos]
        rw [hsame]
        exact .inr (place_words_zero limit (f :: fs))

/-- Fields that take no room end where they start. -/
lemma place_exact_zero (h : ∀ p ∈ (place .words limit 0 fs).1, p.size = 0) :
    (place .exact limit 0 fs).2 = 0 := by
  induction fs with
  | nil => rfl
  | cons f fs ih =>
      have hpos := effectiveAlign_pos limit f.align
      have hsize : f.size = 0 := h _ List.mem_cons_self
      simp only [place, Counting.alignUp_zero _ hpos, hsize] at h ⊢
      exact ih fun p hp => h p (List.mem_cons_of_mem _ hp)

/-- Fields that do not fit, though they are inside a whole and apart, end at zero again. -/
lemma place_words_eq_zero {size : Nat} (hsize : size < wordRange)
    (hdvd : ∀ f ∈ fs, effectiveAlign limit f.align ∣ wordRange)
    (hinside : ∀ p ∈ (place .words limit 0 fs).1, p.offset + p.size ≤ size)
    (hapart : (place .words limit 0 fs).1.Pairwise fun p q =>
      p.offset + p.size ≤ q.offset ∨ q.offset + q.size ≤ p.offset)
    (hover : wordRange ≤ (place .exact limit 0 fs).2) : (place .words limit 0 fs).2 = 0 := by
  induction fs with
  | nil => rfl
  | cons f fs ih =>
      have hpos := effectiveAlign_pos limit f.align
      have hrest := fun g hg => hdvd g (List.mem_cons_of_mem f hg)
      simp only [place, Counting.alignUp_zero _ hpos, Nat.zero_add] at hinside hapart hover ⊢
      have hfield : f.size ≤ size := by simpa using hinside _ List.mem_cons_self
      have hinside' := fun p hp => hinside p (List.mem_cons_of_mem _ hp)
      obtain ⟨hfirst, hapart'⟩ := List.pairwise_cons.mp hapart
      have hfits : f.size < wordRange := by omega
      rw [Counting.keep_words hfits] at *
      rcases Nat.eq_zero_or_pos f.size with hempty | hroom
      · rw [hempty] at hinside' hapart' hover ⊢
        exact ih hrest hinside' hapart' hover
      · -- no other field that takes room starts at zero, or reaches as far as `wordRange`
        rcases place_words_wraps hrest hfits hover with ⟨p, hp, h⟩ | ⟨p, hp, h, h'⟩ | h
        · have hle := hinside' p hp
          omega
        · have hor := hfirst p hp
          simp only at hor
          omega
        · exact h

/-- **A layout in words is tidy exactly if it fits.**  The alignments that count divide 2^64, as
powers of two do, so that what wraps around comes back to the start: either a field reaches out of
the whole, or two of them start there. -/
theorem tidy_compute_words_iff (hdvd : ∀ f ∈ fs, effectiveAlign limit f.align ∣ wordRange) :
    (compute .words fs limit).Tidy ↔ (compute .exact fs limit).size < wordRange := by
  constructor
  · intro htidy
    by_contra hover
    have hpos := commonAlign_pos limit fs
    -- the size wraps around to zero
    have hsize : Counting.words.alignUp (place .words limit 0 fs).2 (commonAlign limit fs) = 0 := by
      by_cases hend : (place .exact limit 0 fs).2 < wordRange
      · rw [place_words hend]
        exact Counting.alignUp_words_eq_zero hpos (commonAlign_dvd_of_dvd hdvd) hend
          (Nat.le_of_not_lt hover)
      · have hzero := place_words_eq_zero (Counting.keep_words_lt _) hdvd htidy.inside htidy.apart
          (Nat.le_of_not_lt hend)
        rw [hzero, Counting.alignUp_zero .words hpos]
    -- and so no field takes any room
    have hempty : (place .exact limit 0 fs).2 = 0 := by
      refine place_exact_zero fun p hp => ?_
      have hle : p.offset + p.size ≤ Counting.words.alignUp _ _ := htidy.inside p hp
      rw [hsize] at hle
      omega
    refine hover ?_
    show Counting.exact.alignUp (place .exact limit 0 fs).2 _ < _
    rw [hempty, Counting.alignUp_zero .exact hpos]
    decide
  · intro hfits
    rw [compute_words_iff.mpr hfits]
    exact tidy_compute_exact fs limit

end Layout

end ForeignTypes
