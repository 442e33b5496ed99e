import ForeignTypes.Proofs.Placement
import Mathlib.Algebra.Ring.Nat
import Mathlib.Order.Bounds.Basic

/-!
# The rules of layout

What the layout of a list of fields has to be can be said without computing it.  Each field starts
at the least multiple of the alignment that counts for it that is not below the end of the field
before; the alignment of the whole is the largest that counts; its size is the least multiple of
that which covers all fields.  These rules leave no choice, and without a bound on sums the computed
layout obeys them, whatever the sizes, the alignments and the limit.

* `Layout.endAfter` — where a list of places ends.
* `Layout.Obeys` — the rules.
* `Counting.isLeast_alignUp`, `Counting.alignUp_lt` — the next multiple, and how far it is.
* **`Layout.obeys_compute`**, **`Layout.Obeys.unique`** — the computed layout is the one that obeys.
* `Layout.place_append`, `Layout.place_packed` — more fields, and fields without padding.
* **`Layout.compute_exact`** — the rules, and what follows from them.
-/

namespace ForeignTypes

namespace Counting

/-- The next multiple is the least one. -/
lemma isLeast_alignUp (offset : Nat) {align : Nat} (h : 0 < align) :
    IsLeast {n | align ∣ n ∧ offset ≤ n} (exact.alignUp offset align) := by
  refine ⟨⟨dvd_alignUp offset align, le_alignUp offset h⟩, ?_⟩
  rintro n ⟨⟨k, rfl⟩, hle⟩
  -- fewer than `k + 1` steps are enough, since `k` are
  have hsteps : stepsUp offset align < k + 1 := by
    rw [stepsUp, Nat.div_lt_iff_lt_mul h, Nat.add_mul, Nat.mul_comm k]
    omega
  rw [alignUp, keep, Nat.mul_comm]
  exact Nat.mul_le_mul_left align (Nat.le_of_lt_succ hsteps)

/-- The next multiple is less than one step away. -/
lemma alignUp_lt (offset : Nat) {align : Nat} (h : 0 < align) :
    exact.alignUp offset align < offset + align := by
  have hsteps := Nat.div_mul_le_self (offset + (align - 1)) align
  simp only [alignUp, keep, stepsUp]
  omega

@[simp]
lemma alignUp_one (offset : Nat) : exact.alignUp offset 1 = offset := by
  simp [alignUp, keep, stepsUp]

end Counting

namespace Layout

variable {limit : Option Nat} {f : FieldExtent} {fs gs : List FieldExtent} {i : Nat}
  {p : Placement} {l l' : Layout}

/-! ## The rules -/

/-- The end of the last of these places, or `stop` if there is none. -/
def endAfter : Nat → List Placement → Nat
  | stop, [] => stop
  | _, p :: ps => endAfter (p.offset + p.size) ps

/-- The layout of these fields under a limit on alignment goes by the rules. -/
structure Obeys (limit : Option Nat) (fs : List FieldExtent) (l : Layout) : Prop where
  /-- The fields stand in order, with their names and sizes. -/
  fields : l.fields.map (fun p => (p.name, p.size)) = fs.map fun f => (f.name, f.size)
  /-- Each starts at the least multiple of its alignment that is not below the end of the one
  before; the first one, at the start. -/
  offset : ∀ i f p, fs[i]? = some f → l.fields[i]? = some p →
    IsLeast {n | effectiveAlign limit f.align ∣ n ∧ endAfter 0 (l.fields.take i) ≤ n} p.offset
  align : IsGreatest (insert 1 {n | ∃ f ∈ fs, effectiveAlign limit f.align = n}) l.align
  size : IsLeast {n | l.align ∣ n ∧ endAfter 0 l.fields ≤ n} l.size

/-! ## The computed layout -/

lemma map_place (c : Counting) (limit : Option Nat) (stop : Nat) (fs : List FieldExtent) :
    (place c limit stop fs).1.map (fun p => (p.name, p.size))
      = fs.map fun f => (f.name, f.size) := by
  induction fs generalizing stop with
  | nil => rfl
  | cons f fs ih =>
      simp only [place, List.map_cons]
      rw [ih]

/-- The answer of placing has the end of the last field. -/
lemma endAfter_place (limit : Option Nat) (stop : Nat) (fs : List FieldExtent) :
    endAfter stop (place .exact limit stop fs).1 = (place .exact limit stop fs).2 := by
  induction fs generalizing stop with
  | nil => rfl
  | cons f fs ih => exact ih _

/-- Each field is placed at the next multiple after the end of those before it. -/
lemma offset_place (stop : Nat) (hf : fs[i]? = some f)
    (hp : (place .exact limit stop fs).1[i]? = some p) :
    p.offset = Counting.exact.alignUp (endAfter stop ((place .exact limit stop fs).1.take i))
      (effectiveAlign limit f.align) := by
  induction fs generalizing stop i with
  | nil => exact absurd hf (by simp)
  | cons f' fs ih =>
      cases i with
      | zero =>
          obtain rfl : f' = f := by simpa using hf
          obtain rfl := Option.some.inj hp
          rfl
      | succ i => exact ih _ (by simpa using hf) hp

lemma isGreatest_commonAlign (limit : Option Nat) (fs : List FieldExtent) :
    IsGreatest (insert 1 {n | ∃ f ∈ fs, effectiveAlign limit f.align = n})
      (commonAlign limit fs) := by
  induction fs with
  | nil => simp [commonAlign, IsGreatest, upperBounds]
  | cons f fs ih =>
      have hsplit : insert 1 {n | ∃ g ∈ f :: fs, effectiveAlign limit g.align = n}
          = insert (effectiveAlign limit f.align)
            (insert 1 {n | ∃ g ∈ fs, effectiveAlign limit g.align = n}) := by
        ext n
        simp only [List.mem_cons, exists_eq_or_imp, Set.mem_insert_iff, Set.mem_ofPred_eq]
        rw [or_left_comm, eq_comm (a := n) (b := effectiveAlign limit f.align)]
      rw [hsplit, commonAlign]
      exact ih.insert _

/-- What all alignments that count divide, that of the whole divides. -/
lemma commonAlign_dvd_of_dvd {n : Nat} (h : ∀ f ∈ fs, effectiveAlign limit f.align ∣ n) :
    commonAlign limit fs ∣ n := by
  rcases (isGreatest_commonAlign limit fs).1 with hone | ⟨f, hf, heq⟩
  · rw [hone]
    exact Nat.one_dvd n
  · exact heq ▸ h f hf

/-- **The computed layout goes by the rules.** -/
theorem obeys_compute (limit : Option Nat) (fs : List FieldExtent) :
    (compute .exact fs limit).Obeys limit fs where
  fields := map_place .exact limit 0 fs
  offset := by
    intro i f p hf hp
    rw [offset_place 0 hf hp]
    exact Counting.isLeast_alignUp _ (effectiveAlign_pos limit f.align)
  align := isGreatest_commonAlign limit fs
  size := by
    have hend : endAfter 0 (compute .exact fs limit).fields = (place .exact limit 0 fs).2 :=
      endAfter_place limit 0 fs
    rw [hend]
    exact Counting.isLeast_alignUp _ (commonAlign_pos limit fs)

/-! ## No choice -/

lemma Obeys.exists_field (h : l.Obeys limit fs) (hp : l.fields[i]? = some p) :
    ∃ f, fs[i]? = some f ∧ p.name = f.name ∧ p.size = f.size := by
  have hboth : (fs[i]?).map (fun f => (f.name, f.size)) = some (p.name, p.size) := by
    rw [← List.getElem?_map, ← h.fields, List.getElem?_map, hp]
    rfl
  obtain ⟨f, hf, heq⟩ := Option.map_eq_some_iff.mp hboth
  obtain ⟨hname, hsize⟩ := Prod.mk.inj heq
  exact ⟨f, hf, hname.symm, hsize.symm⟩

lemma Obeys.length_eq (h : l.Obeys limit fs) : l.fields.length = fs.length := by
  simpa using congrArg List.length h.fields

/-- The places before a field decide its own. -/
lemma Obeys.take_eq (h : l.Obeys limit fs) (h' : l'.Obeys limit fs) (i : Nat) :
    l.fields.take i = l'.fields.take i := by
  induction i with
  | zero => simp
  | succ i ih =>
      rw [List.take_add_one, List.take_add_one, ih]
      congr 2
      cases hp : l.fields[i]? with
      | none =>
          rw [List.getElem?_eq_none_iff, h.length_eq, ← h'.length_eq] at hp
          exact (List.getElem?_eq_none_iff.mpr hp).symm
      | some p =>
          obtain ⟨f, hf, hname, hsize⟩ := h.exists_field hp
          have hlt : i < l'.fields.length := by
            rw [h'.length_eq]
            exact (List.getElem?_eq_some_iff.mp hf).1
          obtain ⟨p', hp'⟩ : ∃ p', l'.fields[i]? = some p' :=
            ⟨_, List.getElem?_eq_getElem hlt⟩
          obtain ⟨f', hf', hname', hsize'⟩ := h'.exists_field hp'
          obtain rfl := Option.some.inj (hf.symm.trans hf')
          have hleast := h.offset i f p hf hp
          rw [ih] at hleast
          have hoffset := hleast.unique (h'.offset i f p' hf hp')
          rw [hp']
          obtain ⟨name, offset, size⟩ := p
          obtain ⟨name', offset', size'⟩ := p'
          simp_all

/-- **The rules leave no choice.** -/
theorem Obeys.unique (h : l.Obeys limit fs) (h' : l'.Obeys limit fs) : l = l' := by
  have hfields : l.fields = l'.fields := by
    have htake := h.take_eq h' fs.length
    rwa [← h.length_eq, List.take_length, h.length_eq, ← h'.length_eq, List.take_length] at htake
  have halign := h.align.unique h'.align
  have hsize := h.size
  rw [hfields, halign] at hsize
  have hsize := hsize.unique h'.size
  obtain ⟨fields, size, align⟩ := l
  obtain ⟨fields', size', align'⟩ := l'
  simp_all

/-! ## More fields, and fields without padding -/

/-- More fields are placed after the ones that are there, which stay where they are. -/
lemma place_append (c : Counting) (limit : Option Nat) (stop : Nat) (fs gs : List FieldExtent) :
    place c limit stop (fs ++ gs)
      = ((place c limit stop fs).1 ++ (place c limit (place c limit stop fs).2 gs).1,
        (place c limit (place c limit stop fs).2 gs).2) := by
  induction fs generalizing stop with
  | nil => rfl
  | cons f fs ih =>
      simp only [List.cons_append, place]
      rw [ih]

/-- A limit of zero or one leaves no alignment. -/
lemma effectiveAlign_packed {most : Nat} (h : most ≤ 1) (align : Nat) :
    effectiveAlign (some most) align = 1 := by
  simp only [effectiveAlign]
  omega

lemma commonAlign_packed (h : ∀ align, effectiveAlign limit align = 1) (fs : List FieldExtent) :
    commonAlign limit fs = 1 := by
  induction fs with
  | nil => rfl
  | cons f fs ih => rw [commonAlign, h, ih, Nat.max_self]

/-- Without alignment, fields lie end to end. -/
lemma place_packed (h : ∀ align, effectiveAlign limit align = 1) (stop : Nat)
    (fs : List FieldExtent) :
    (place .exact limit stop fs).2 = stop + (fs.map (·.size)).sum ∧
      ∀ i p, (place .exact limit stop fs).1[i]? = some p →
        p.offset = stop + ((fs.take i).map (·.size)).sum := by
  induction fs generalizing stop with
  | nil => simp [place]
  | cons f fs ih =>
      simp only [place, h, Counting.alignUp_one, Counting.keep, List.map_cons, List.sum_cons]
      obtain ⟨hend, hplaces⟩ := ih (stop + f.size)
      refine ⟨by rw [hend, Nat.add_assoc], fun i p hp => ?_⟩
      cases i with
      | zero =>
          obtain rfl := Option.some.inj hp
          simp
      | succ i =>
          have hoffset := hplaces i p (by simpa using hp)
          rw [hoffset, List.take_succ_cons, List.map_cons, List.sum_cons, Nat.add_assoc]

/-! ## All of it -/

/-- **Layouts in exact arithmetic.**  For all fields and every limit on alignment, the computed
layout is the one that goes by the rules.  Hence

* fields lie in order and apart, and inside the whole;
* what is left free before a field is less than the alignment that counts for it;
* one more field does not move the others;
* under a limit of zero or one nothing is left free at all. -/
theorem compute_exact (fs : List FieldExtent) (limit : Option Nat) :
    (∀ l, compute .exact fs limit = l ↔ l.Obeys limit fs) ∧
    (∀ (i j : Nat) (p q : Placement), i < j → (compute .exact fs limit).fields[i]? = some p →
      (compute .exact fs limit).fields[j]? = some q → p.offset + p.size ≤ q.offset) ∧
    (∀ p ∈ (compute .exact fs limit).fields,
      p.offset + p.size ≤ (compute .exact fs limit).size) ∧
    (∀ i f p, fs[i]? = some f → (compute .exact fs limit).fields[i]? = some p →
      p.offset < endAfter 0 ((compute .exact fs limit).fields.take i)
        + effectiveAlign limit f.align) ∧
    (∀ f, (compute .exact fs limit).fields <+: (compute .exact (fs ++ [f]) limit).fields) ∧
    (limit = some 0 ∨ limit = some 1 →
      (∀ i p, (compute .exact fs limit).fields[i]? = some p →
        p.offset = ((fs.take i).map (·.size)).sum) ∧
      (compute .exact fs limit).size = (fs.map (·.size)).sum) := by
  have hobeys := obeys_compute limit fs
  refine ⟨fun l => ?_, fun i j p q hij hp hq => pairwise_compute hij hp hq, fun p hp => ?_,
    fun i f p hf hp => ?_, fun f => ?_, fun hlimit => ?_⟩
  · constructor
    · rintro rfl
      exact hobeys
    · exact hobeys.unique
  · obtain ⟨-, hstop⟩ := bounds_of_mem_place hp
    exact Nat.le_trans hstop (Counting.le_alignUp _ (commonAlign_pos limit fs))
  · rw [show p.offset = _ from offset_place 0 hf hp]
    exact Counting.alignUp_lt _ (effectiveAlign_pos limit f.align)
  · refine ⟨(place .exact limit (place .exact limit 0 fs).2 [f]).1, ?_⟩
    exact (congrArg Prod.fst (place_append .exact limit 0 fs [f])).symm
  · have hone : ∀ align, effectiveAlign limit align = 1 := by
      rcases hlimit with rfl | rfl
      · exact effectiveAlign_packed (Nat.zero_le 1)
      · exact effectiveAlign_packed (Nat.le_refl 1)
    obtain ⟨hend, hplaces⟩ := place_packed hone 0 fs
    refine ⟨fun i p hp => by rw [hplaces i p hp, Nat.zero_add], ?_⟩
    show Counting.exact.alignUp (place .exact limit 0 fs).2 (commonAlign limit fs) = _
    rw [commonAlign_packed hone, Counting.alignUp_one, hend, Nat.zero_add]

/-- Alignments need not be powers of two. -/
example : compute .exact [⟨"a", 1, 3⟩, ⟨"b", 2, 6⟩, ⟨"c", 4, 0⟩] (some 5)
    = ⟨[⟨"a", 0, 1⟩, ⟨"b", 5, 2⟩, ⟨"c", 7, 4⟩], 15, 5⟩ := by decide

end Layout

end ForeignTypes
