import ForeignTypes.Proofs.Simulation

/-!
# References are conserved

The references to an object are the handles to it and the loans of it that were not released, in
every session that commands lead to.  What is left to see is how single commands move the two sides:
releasing takes the loan off the list, so that a second release, or the end of the loan, finds
nothing to give back; a command that fails moves nothing; and boxing adds the handle it answers.

* `Session.holdersOf` — the loans of an object that still hold their reference.
* `Session.refs_eq` — the balance, by names.
* **`Session.Runs.references_conserved`** — the balance after every run, and the single commands.
-/

namespace ForeignTypes.Session

open Books

variable {s : Session} {log : List Event}

/-- The loans of an object that still hold their reference, by name. -/
def holdersOf (s : Session) (o : ObjectId) : List String := s.loans.namesWhere (·.Holds o)

lemma refs_eq (h : (s.books log).Balanced) (o : ObjectId) :
    s.process.heap.refs o = (s.handlesOf o).length + (s.holdersOf o).length := by
  rw [handlesOf, holdersOf, Table.length_namesOf, Table.length_namesWhere]
  exact h o

/-! ## Releasing -/

lemma refs_pos_of_holds (h : (s.books log).Balanced) {loan : String} {l : Loan}
    (hl : s.loans.get? loan = some l) {o : ObjectId} (ho : l.Holds o) :
    0 < s.process.heap.refs o := by
  have hpos : 0 < s.loans.values.countP (·.Holds o) :=
    Multiset.countP_pos.mpr ⟨l, Table.mem_values_of_get? hl, ho⟩
  have hbalance : s.process.heap.refs o
      = s.objects.values.count o + s.loans.values.countP (·.Holds o) := h o
  omega

lemma heap_releaseLoan {loan : String} {l : Loan} (hl : s.loans.get? loan = some l) :
    (s.perform (.releaseLoan loan)).2.process.heap = heapAfter s.process.heap l := by
  rw [perform_releaseLoan, hl, heapAfter]
  show (if l.isHolding then _ else _ : Session).process.heap = _
  split
  · rfl
  · rfl

/-- The loan of a released reference stays, and holds it no longer. -/
lemma loans_releaseLoan {loan : String} {l : Loan} (hl : s.loans.get? loan = some l) :
    (s.perform (.releaseLoan loan)).2.loans.get? loan = some { l with isHolding := false } := by
  rw [perform_releaseLoan, hl]
  show (if l.isHolding then _ else _ : Session).loans.get? loan = _
  split
  · simp [dropObject]
  · simp

lemma heap_endLoan (s : Session) (l : Loan) :
    (s.endLoan l).process.heap = heapAfter s.process.heap l :=
  congrArg Books.heap (books_endLoan s l [])

lemma heap_dropLoan {loan : String} {l : Loan} (hl : s.loans.get? loan = some l) :
    (s.perform (.dropLoan loan)).2.process.heap = heapAfter s.process.heap l := by
  rw [perform_dropLoan, hl]
  exact heap_endLoan _ l

/-- **Releasing gives back one reference**, and neither a second release nor the end of the loan
gives back another. -/
theorem refs_releaseLoan (h : (s.books log).Balanced) {loan : String} {l : Loan}
    (hl : s.loans.get? loan = some l) (o : ObjectId) :
    let released := (s.perform (.releaseLoan loan)).2
    (released.process.heap.refs o + if l.Holds o then 1 else 0) = s.process.heap.refs o ∧
      (released.perform (.releaseLoan loan)).2.process.heap = released.process.heap ∧
      (released.perform (.dropLoan loan)).2.process.heap = released.process.heap := by
  intro released
  have hreleased : released.loans.get? loan = some { l with isHolding := false } :=
    loans_releaseLoan hl
  refine ⟨?_, heap_releaseLoan hreleased, heap_dropLoan hreleased⟩
  rw [heap_releaseLoan hl, refs_heapAfter]
  split
  · next ho =>
      have hpos := refs_pos_of_holds h hl ho
      omega
  · rfl

/-! ## Lending and boxing -/

/-- **Lending that fails changes nothing.** -/
theorem unbox_error {context name object : String} {t : ValueType} {address : Option Nat}
    {f : Failure} (h : (s.perform (.unbox context name t object address)).1 = .error f) :
    (s.perform (.unbox context name t object address)).2 = s := by
  rcases s.perform_unbox context name t object address with ⟨f, hp⟩ | ⟨c, o, w, loan, -, -, -, hp⟩
  · rw [hp]
  · rw [hp] at h
    exact absurd h (by simp)

/-- **Boxing that fails moves no reference.** -/
theorem refs_box_error {context name : String} {t : ValueType} {region : HeldRegion} {f : Failure}
    (h : (s.perform (.box context name t region)).1 = .error f) (o : ObjectId) :
    (s.perform (.box context name t region)).2.process.heap.refs o = s.process.heap.refs o := by
  rcases s.perform_box context name t region with ⟨-, f, hp⟩ | ⟨c, r, w, answer, -, -, hboxes, hp⟩
  · rw [hp]
  · cases answer with
    | ok o =>
        rw [hp] at h
        exact absurd h (by simp)
    | error e =>
        rw [hp]
        show w.process.heap.refs o = _
        cases hboxes with
        | mismatch | unknown | unsupported => rfl
        | failed _ _ hspares => exact congrArg (Heap.refs · o) hspares.heap
        | @givenUp _ _ made process type bytes o' hadds hheap =>
            obtain ⟨module, hmade⟩ := hadds.heap
            show process.heap.refs o = _
            rw [hheap, hmade, hadds.object, Heap.refs_alloc_release]

/-- A handle that goes under a name takes the place of the old one. -/
lemma refs_withObject {s : Session} {name : String} {o : ObjectId}
    (h : ∀ old, s.objects.get? name = some old → 0 < s.process.heap.refs old) (o' : ObjectId) :
    ((s.withObject name o).process.heap.refs o' +
      if s.objects.get? name = some o' then 1 else 0) = s.process.heap.refs o' := by
  rw [withObject]
  cases hname : s.objects.get? name with
  | none => rfl
  | some old =>
      have hpos := h old hname
      show ((s.process.heap.release old).refs o' + _) = _
      rw [Heap.refs_release_sub]
      simp only [Option.some.injEq, eq_comm (a := old)]
      split
      · next heq =>
          rw [heq]
          omega
      · rfl

lemma get?_withObject (s : Session) (name : String) (o : ObjectId) :
    (s.withObject name o).objects.get? name = some o := by
  rw [objects_withObject, Table.get?_put, if_pos rfl]

/-- **Boxing adds the handle that it answers**, and nothing else but the handle that stood under the
name before is let go. -/
theorem refs_box_ok (h : (s.books log).Balanced) {context name : String} {t : ValueType}
    {region : HeldRegion} {o : ObjectId}
    (hok : (s.perform (.box context name t region)).1 = .ok o) :
    let s' := (s.perform (.box context name t region)).2
    s'.objects.get? name = some o ∧
      ∀ o', (s'.process.heap.refs o' + if s.objects.get? name = some o' then 1 else 0)
        = s.process.heap.refs o' + if o' = o then 1 else 0 := by
  rcases s.perform_box context name t region with ⟨-, f, hp⟩ | ⟨c, r, w, answer, -, -, hboxes, hp⟩
  · rw [hp] at hok
    exact absurd hok (by simp)
  · cases answer with
    | error e =>
        rw [hp] at hok
        exact absurd hok (by simp)
    | ok o₁ =>
        rw [hp] at hok
        obtain rfl : o₁ = o := Except.ok.inj hok
        rw [hp]
        refine ⟨get?_withObject _ name o₁, fun o' => ?_⟩
        have hwork : ∀ o', w.process.heap.refs o'
            = s.process.heap.refs o' + if o' = o₁ then 1 else 0 := by
          intro o'
          cases hboxes with
          | lent ho _ => exact Heap.refs_retain_add (Ledger.peek_eq_some.mp ho).2 o'
          | @made _ id record struct bytes _ process ht hstorage _ _ _ hmake =>
              obtain ⟨hadds, -, -⟩ := Process.adds_of_construct hmake
              obtain ⟨module, hheap⟩ := hadds.heap
              show process.heap.refs o' = _
              rw [hheap, hadds.object]
              exact Heap.refs_alloc_add _ _ _ _ o'
        -- the handle that had the name still counts after the work, so it can be given back
        have hpos : ∀ old, (s.withWork context w).objects.get? name = some old →
            0 < w.process.heap.refs old := by
          intro old hold
          have halive := h.isAlive (Table.mem_values_of_get? hold)
          have hold := Heap.isAlive_iff.mp halive
          have hle := hwork old
          change 0 < s.process.heap.refs old at hold
          omega
        rw [← hwork o']
        exact refs_withObject (s := s.withWork context w) hpos o'

/-! ## After every run -/

/-- **References are conserved.**  After every run,

* the references to an object are the handles to it and the loans of it that hold theirs, and the
  object is alive exactly if there is one of either;
* releasing a loan gives back the one reference that it holds, if it does, and a second release or
  the end of the loan gives back no other;
* lending or boxing that fails changes no count;
* boxing that succeeds adds the handle that it answers, beside letting go what had its name. -/
theorem Runs.references_conserved {history : List Performed} (hruns : start.Runs history s) :
    (∀ o, s.process.heap.refs o = (s.handlesOf o).length + (s.holdersOf o).length) ∧
    (∀ o, s.process.heap.isAlive o = true ↔
      0 < (s.handlesOf o).length + (s.holdersOf o).length) ∧
    (∀ loan l, s.loans.get? loan = some l → ∀ o,
      let released := (s.perform (.releaseLoan loan)).2
      (released.process.heap.refs o + if l.Holds o then 1 else 0) = s.process.heap.refs o ∧
        (released.perform (.releaseLoan loan)).2.process.heap.refs o
          = released.process.heap.refs o ∧
        (released.perform (.dropLoan loan)).2.process.heap.refs o
          = released.process.heap.refs o) ∧
    (∀ context name t object address f,
      (s.perform (.unbox context name t object address)).1 = .error f →
      ∀ o, (s.perform (.unbox context name t object address)).2.process.heap.refs o
        = s.process.heap.refs o) ∧
    (∀ context name t region f, (s.perform (.box context name t region)).1 = .error f →
      ∀ o, (s.perform (.box context name t region)).2.process.heap.refs o
        = s.process.heap.refs o) ∧
    (∀ context name t region o, (s.perform (.box context name t region)).1 = .ok o →
      let boxed := (s.perform (.box context name t region)).2
      boxed.objects.get? name = some o ∧
        ∀ o', (boxed.process.heap.refs o' + if s.objects.get? name = some o' then 1 else 0)
          = s.process.heap.refs o' + if o' = o then 1 else 0) := by
  have hbalanced := hruns.sound.balanced
  refine ⟨refs_eq hbalanced, fun o => ?_, ?_, ?_, ?_, ?_⟩
  · rw [← refs_eq hbalanced o]
    exact Heap.isAlive_iff
  · intro loan l hl o
    obtain ⟨hrefs, hagain, hdrop⟩ := refs_releaseLoan hbalanced hl o
    exact ⟨hrefs, congrArg (Heap.refs · o) hagain, congrArg (Heap.refs · o) hdrop⟩
  · intro context name t object address f h o
    rw [unbox_error h]
  · intro context name t region f h o
    exact refs_box_error h o
  · intro context name t region o h
    exact refs_box_ok hbalanced h

/-- An object with one handle that was lent once. -/
theorem references_conserved_lentOne :
    (lentOne.handlesOf ⟨0⟩).length + (lentOne.holdersOf ⟨0⟩).length = 2 := by
  rw [← runs_lentOne.references_conserved.1 ⟨0⟩]
  rfl

end ForeignTypes.Session
