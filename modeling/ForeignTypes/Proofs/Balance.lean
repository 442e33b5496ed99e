import ForeignTypes.Proofs.Custody

/-!
# References and those who hold them

A step changes at most one reference, and with it the one handle or loan that it belongs to.  No
step changes an object, and none brings an object back to life.

* `Books.Balanced` — the references to an object are its handles and the loans that hold it.
* **`Books.Balanced.step`** — every step keeps the balance.
* **`Books.Step.extends`**, **`Books.Step.fades`** — what a step leaves of the objects.
-/

namespace ForeignTypes.Books

variable {b b' : Books}

/-! ## How the heap changes -/

lemma holds_nextLoan {K : ContextId} {o o' : ObjectId} {address : Address} {length : Nat}
    {fault : Option Error} : (b.nextLoan K o address length fault).Holds o' ↔ o' = o := by
  simp [nextLoan, Loan.Holds]

lemma not_holds_given {l : Loan} {o : ObjectId} :
    ¬ ({ l with isHolding := false } : Loan).Holds o := by
  simp [Loan.Holds]

lemma refs_heapAfter (heap : Heap) (l : Loan) (o : ObjectId) :
    (heapAfter heap l).refs o
      = heap.refs o - if l.Holds o then 1 else 0 := by
  rw [heapAfter]
  by_cases hl : l.isHolding = true
  · simp [Loan.Holds, hl, Heap.refs_release_sub]
  · simp [Loan.Holds, hl]

lemma extends_heapAfter (heap : Heap) (l : Loan) : heap.Extends (heapAfter heap l) := by
  rw [heapAfter]
  split
  · exact Heap.extends_release heap l.object
  · exact Heap.Extends.refl heap

lemma fades_heapAfter (heap : Heap) (l : Loan) : heap.Fades (heapAfter heap l) := by
  rw [heapAfter]
  split
  · exact Heap.fades_release heap l.object
  · exact Heap.Fades.refl heap

lemma length_heapAfter (heap : Heap) (l : Loan) :
    (heapAfter heap l).objects.length = heap.objects.length := by
  rw [heapAfter]
  split
  · exact Heap.length_release heap l.object
  · rfl

theorem Step.extends (h : Step b b') : b.heap.Extends b'.heap := by
  cases h with
  | make type module bytes => exact Heap.extends_alloc _ _ _ _
  | take _ => exact Heap.extends_retain _ _
  | drop _ => exact Heap.extends_release _ _
  | lend _ _ _ _ => exact Heap.extends_retain _ _
  | lendFaulty _ _ _ _ _ => exact Heap.extends_retain _ _
  | giveBack _ => exact extends_heapAfter _ _
  | endLoan _ => exact extends_heapAfter _ _
  | boxLent _ _ _ => exact Heap.extends_retain _ _
  | boxOwned _ _ _ _ _ => exact Heap.extends_alloc _ _ _ _
  | openLedger _ | closeLedger _ | own _ | copy _ | forget _ => exact Heap.Extends.refl _

theorem Step.fades (h : Step b b') : b.heap.Fades b'.heap := by
  cases h with
  | make type module bytes => exact Heap.fades_alloc _ _ _ _
  | take ho => exact Heap.fades_retain ho
  | drop _ => exact Heap.fades_release _ _
  | lend _ ho _ _ => exact Heap.fades_retain ho
  | lendFaulty _ ho _ _ _ => exact Heap.fades_retain ho
  | giveBack _ => exact fades_heapAfter _ _
  | endLoan _ => exact fades_heapAfter _ _
  | boxLent _ _ ho => exact Heap.fades_retain (Ledger.peek_eq_some.mp ho).2
  | boxOwned _ _ _ _ _ => exact Heap.fades_alloc _ _ _ _
  | openLedger _ | closeLedger _ | own _ | copy _ | forget _ => exact Heap.Fades.refl _

lemma Step.length_le (h : Step b b') : b.heap.objects.length ≤ b'.heap.objects.length := by
  cases h <;> simp [length_heapAfter]

/-! ## Balance -/

/-- **Balance.**  The references to an object are the handles to it and the loans of it that still
hold theirs. -/
def Balanced (b : Books) : Prop :=
  ∀ o, b.heap.refs o = b.handles.count o + b.loans.countP (·.Holds o)

lemma Balanced.isAlive (h : b.Balanced) {o : ObjectId} (ho : o ∈ b.handles) :
    b.heap.isAlive o = true := by
  have hcount := Multiset.count_pos.mpr ho
  rw [Heap.isAlive_iff, h o]
  omega

theorem Balanced.step (h : b.Balanced) (hstep : Step b b') : b'.Balanced := by
  intro o
  have ho := h o
  cases hstep with
  | make type module bytes =>
      simp only [Heap.refs_alloc_add, Multiset.count_cons]
      omega
  | take halive =>
      simp only [Heap.refs_retain_add halive, Multiset.count_cons]
      omega
  | drop hhandles =>
      rw [hhandles, Multiset.count_cons] at ho
      simp only [Heap.refs_release_sub]
      omega
  | lend _ halive _ _ =>
      simp only [Heap.refs_retain_add halive, Multiset.countP_cons, holds_nextLoan]
      omega
  | lendFaulty _ halive _ _ _ =>
      simp only [Heap.refs_retain_add halive, Multiset.countP_cons, holds_nextLoan]
      omega
  | giveBack hloans =>
      rw [hloans, Multiset.countP_cons] at ho
      simp only [refs_heapAfter, Multiset.countP_cons, not_holds_given, if_false]
      omega
  | endLoan hloans =>
      rw [hloans, Multiset.countP_cons] at ho
      simp only [refs_heapAfter]
      omega
  | boxLent _ _ hpeek =>
      have halive := (Ledger.peek_eq_some.mp hpeek).2
      simp only [Heap.refs_retain_add halive, Multiset.count_cons]
      omega
  | boxOwned _ _ type module bytes =>
      simp only [Heap.refs_alloc_add, Multiset.count_cons]
      omega
  | openLedger _ | closeLedger _ | own _ | copy _ | forget _ => exact ho

end ForeignTypes.Books
