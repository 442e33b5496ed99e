import ForeignTypes.Proofs.Simulation
import Mathlib.Data.Multiset.Filter

/-!
# Entries and the loans they belong to

A loan is *outstanding* in a context if the context lent it without a fault and its region was not
brought back there.  The entries of the ledger of a context are those of its outstanding loans, each
loan has one, and the entry of a loan whose object lives is there.

* `Loan.IsOutstanding`, `Session.outstanding` — the outstanding loans of a context.
* `Books.Sound.outstanding_of_entry`, `Books.Sound.entry_of_outstanding` — entries and loans.
* **`Session.Runs.entries_outstanding`** — the entries after every run.
-/

namespace ForeignTypes

/-! ## Outstanding loans -/

/-- The region that an event brought back in the context `K`, if it did. -/
def Event.boxed? (K : ContextId) : Event → Option RegionId
  | boxed K' r _ => if K' = K then some r.id else none
  | _ => none

lemma Event.boxed?_eq_some {K : ContextId} {e : Event} {id : RegionId} :
    e.boxed? K = some id ↔ ∃ r o, e = .boxed K r o ∧ r.id = id := by
  cases e with
  | lent K' l => simp [boxed?]
  | owned r => simp [boxed?]
  | boxed K' r o =>
      simp only [boxed?, Option.ite_none_right_eq_some, Option.some.injEq, boxed.injEq]
      constructor
      · rintro ⟨rfl, hid⟩
        exact ⟨r, o, ⟨rfl, rfl, rfl⟩, hid⟩
      · rintro ⟨r', o', ⟨rfl, rfl, rfl⟩, hid⟩
        exact ⟨rfl, hid⟩

/-- The context `K` lent the loan without a fault, and its region was not brought back there. -/
def Loan.IsOutstanding (log : List Event) (K : ContextId) (l : Loan) : Prop :=
  l.isValid = true ∧ .lent K l.atStart ∈ log ∧ ∀ r o, .boxed K r o ∈ log → r.id ≠ l.region.id

instance (log : List Event) (K : ContextId) (l : Loan) : Decidable (l.IsOutstanding log K) :=
  decidable_of_iff
    (l.isValid = true ∧ .lent K l.atStart ∈ log ∧ ∀ e ∈ log, e.boxed? K ≠ some l.region.id) <| by
      refine and_congr_right fun _ => and_congr_right fun _ => ?_
      constructor
      · intro h r o hr hid
        exact h _ hr (Event.boxed?_eq_some.mpr ⟨r, o, rfl, hid⟩)
      · intro h e he heq
        obtain ⟨r, o, rfl, hid⟩ := Event.boxed?_eq_some.mp heq
        exact h r o he hid

def Session.outstanding (s : Session) (log : List Event) (K : ContextId) : List String :=
  s.loans.namesWhere (·.IsOutstanding log K)

/-! ## Entries -/

namespace Books

variable {b : Books} {K : ContextId} {led : Ledger}

/-- A loan has a ticket to its entry exactly if it is valid. -/
lemma MadeBy.ticket_iff {l : Loan} (h : MadeBy K l.atStart) :
    l.ticket = some ⟨K, l.region.id⟩ ↔ l.isValid = true := by
  have hticket : l.ticket = if l.fault.isNone then some ⟨K, l.region.id⟩ else none := h.ticket
  rw [hticket, Loan.isValid]
  split
  · next hvalid => simp [hvalid]
  · next hfault => simp [hfault]

/-- **An entry is that of an outstanding loan.** -/
theorem Sound.outstanding_of_entry (h : b.Sound) (hK : (K, led) ∈ b.ledgers) {id : RegionId}
    {o : ObjectId} (ho : led.entries.get? id = some o) :
    ∃ l ∈ b.loans, l.region.id = id ∧ l.IsOutstanding b.log K ∧ l.object = o := by
  obtain ⟨l, hl, rfl, hobject, hticket⟩ := (h.posted K led hK).entry_loan id o ho
  obtain ⟨hlent, -⟩ := h.lent_of_ticket hl hticket
  have hvalid := (h.chronicled.lent K _ hlent).1.ticket_iff.mp hticket
  refine ⟨l, hl, rfl, ⟨hvalid, hlent, ?_⟩, hobject⟩
  intro r o' hr hid
  have hnone := (h.posted K led hK).entry_out r o' hr
  rw [hid, ho] at hnone
  exact absurd hnone (by simp)

/-- **An outstanding loan has its entry**, as long as its object lives. -/
theorem Sound.entry_of_outstanding (h : b.Sound) (hK : (K, led) ∈ b.ledgers) {l : Loan}
    (hl : l ∈ b.loans) (hout : l.IsOutstanding b.log K) (halive : b.heap.isAlive l.object = true) :
    led.entries.get? l.region.id = some l.object := by
  obtain ⟨hvalid, hlent, hboxed⟩ := hout
  have hticket := (h.chronicled.lent K _ hlent).1.ticket_iff.mpr hvalid
  exact (h.posted K led hK).loan_entry l hl hticket halive hboxed

/-- There are no more entries than outstanding loans: the regions tell the entries apart. -/
lemma Sound.size_le (h : b.Sound) (hK : (K, led) ∈ b.ledgers) :
    led.size ≤ b.loans.countP (·.IsOutstanding b.log K) := by
  have hsubset : (led.entries.rows.map Prod.fst : Multiset RegionId) ⊆
      (b.loans.filter (·.IsOutstanding b.log K)).map fun l => l.region.id := by
    intro id hid
    obtain ⟨⟨id, o⟩, hrow, rfl⟩ := List.mem_map.mp hid
    obtain ⟨l, hl, hregion, hout, -⟩ := h.outstanding_of_entry hK (Table.mem_rows.mp hrow)
    exact Multiset.mem_map.mpr ⟨l, Multiset.mem_filter.mpr ⟨hl, hout⟩, hregion⟩
  have hle := Multiset.card_le_card
    ((Multiset.le_iff_subset (Multiset.coe_nodup.mpr led.entries.distinct)).mpr hsubset)
  rw [Multiset.card_map, ← Multiset.countP_eq_card_filter, Multiset.coe_card, List.length_map]
    at hle
  exact hle

end Books

/-! ## After every run -/

namespace Session

variable {s : Session} {history : List Performed} {context : String} {c : Context}

lemma mem_ledgers (log : List Event) (hc : s.contexts.get? context = some c) :
    (c.id, c.ledger) ∈ (s.books log).ledgers :=
  Multiset.mem_map_of_mem _ (Table.mem_values_of_get? hc)

/-- A region was lent once: the loan in an entry is the loan that the log knows. -/
lemma lent_eq_of_entry (hruns : start.Runs history s) (hc : s.contexts.get? context = some c)
    {e : Event} (he : e ∈ logOf history) {r : Region} (hr : e.region? = some r) {o : ObjectId}
    (ho : c.ledger.entries.get? r.id = some o) :
    ∃ l : Loan, e = .lent c.id l.atStart ∧ l.isValid = true := by
  obtain ⟨l, -, hid, ⟨hvalid, hlent, -⟩, -⟩ :=
    hruns.sound.outstanding_of_entry (mem_ledgers _ hc) ho
  exact ⟨l, hruns.sound.chronicled.event_eq he hlent hr rfl hid.symm, hvalid⟩

/-- **Entries and outstanding loans.**  After every run, in every context that is there,

* each entry belongs to exactly one loan, which is outstanding in this context, and shows the object
  that was lent;
* no entry is that of a loan with a fault, of a loan of another context, or of a region of native
  code;
* each outstanding loan whose object lives has its entry;
* there are at most as many entries as outstanding loans, and none if no loan of the context is
  left. -/
theorem Runs.entries_outstanding (hruns : start.Runs history s)
    (hc : s.contexts.get? context = some c) :
    (∀ id o, c.ledger.entries.get? id = some o →
      ∃! name, ∃ l, s.loans.get? name = some l ∧ l.region.id = id ∧
        l.IsOutstanding (logOf history) c.id ∧ l.object = o) ∧
    (∀ K l, .lent K l ∈ logOf history → l.isValid = false ∨ K ≠ c.id →
      c.ledger.entries.get? l.region.id = none) ∧
    (∀ r, .owned r ∈ logOf history → c.ledger.entries.get? r.id = none) ∧
    (∀ name l, s.loans.get? name = some l → l.IsOutstanding (logOf history) c.id →
      s.process.heap.isAlive l.object = true →
      c.ledger.entries.get? l.region.id = some l.object) ∧
    c.ledger.size ≤ (s.outstanding (logOf history) c.id).length ∧
    ((∀ name l, s.loans.get? name = some l → .lent c.id l.atStart ∉ logOf history) →
      c.ledger.size = 0) := by
  have hsound := hruns.sound
  have hK := mem_ledgers (logOf history) hc
  have hsize : c.ledger.size ≤ (s.outstanding (logOf history) c.id).length := by
    rw [outstanding, Table.length_namesWhere]
    exact hsound.size_le hK
  refine ⟨?_, ?_, ?_, ?_, hsize, ?_⟩
  · intro id o ho
    obtain ⟨l, hl, hid, hout, hobject⟩ := hsound.outstanding_of_entry hK ho
    obtain ⟨name, hname⟩ := Table.mem_values.mp hl
    refine ⟨name, ⟨l, hname, hid, hout, hobject⟩, ?_⟩
    rintro name' ⟨l', hname', hid', -, -⟩
    exact Table.key_eq_of_nodup hsound.recorded.loans_nodup hname' hname (hid'.trans hid.symm)
  · intro K l hlent hother
    rw [Option.eq_none_iff_forall_ne_some]
    intro o ho
    obtain ⟨l', heq, hvalid⟩ := lent_eq_of_entry hruns hc hlent rfl ho
    obtain ⟨rfl, rfl⟩ := Event.lent.inj heq
    rcases hother with hfault | hne
    · exact absurd (hvalid.symm.trans hfault) (by simp)
    · exact hne rfl
  · intro r howned
    rw [Option.eq_none_iff_forall_ne_some]
    intro o ho
    obtain ⟨l, heq, -⟩ := lent_eq_of_entry hruns hc howned rfl ho
    exact absurd heq (by simp)
  · intro name l hl hout halive
    exact hsound.entry_of_outstanding hK (Table.mem_values_of_get? hl) hout halive
  · intro hnone
    have hempty : (s.outstanding (logOf history) c.id) = [] := by
      rw [List.eq_nil_iff_forall_not_mem]
      intro name hname
      obtain ⟨l, hl, -, hlent, -⟩ := Table.mem_namesWhere.mp hname
      exact hnone name l hl hlent
    rw [hempty] at hsize
    exact Nat.le_zero.mp hsize

theorem entries_outstanding_lentOne :
    ∃ c, lentOne.contexts.get? "main" = some c ∧ c.ledger.entries.get? ⟨0⟩ = some ⟨0⟩ ∧
      ∃! name, ∃ l, lentOne.loans.get? name = some l ∧ l.region.id = ⟨0⟩ ∧
        l.IsOutstanding (logOf lentOneHistory) c.id ∧ l.object = ⟨0⟩ := by
  obtain ⟨c, hc, ho⟩ : ∃ c, lentOne.contexts.get? "main" = some c ∧
      c.ledger.entries.get? ⟨0⟩ = some ⟨0⟩ := ⟨_, rfl, rfl⟩
  exact ⟨c, hc, ho, (runs_lentOne.entries_outstanding hc).1 ⟨0⟩ ⟨0⟩ ho⟩

end Session

end ForeignTypes
