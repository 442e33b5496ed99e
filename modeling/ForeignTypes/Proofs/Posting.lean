import ForeignTypes.Proofs.SoundBooks

/-!
# The entries of the ledgers

An entry is made when an object is lent without a fault, and taken out when its region is boxed,
when the loan ends, or when room is made and its object is dead.  So an entry is always that of a
loan that is still there and was not brought back; and such a loan has its entry as long as its
object lives.

* **`Books.Sound.posted_step`** — every step keeps the entries right.
* **`Books.Sound.step`**, **`Books.Sound.steps`** — sound books stay sound.
-/

namespace ForeignTypes.Books

variable {b b' : Books}

/-! ## What is new, and what is one of a kind -/

lemma Recorded.ne_of_mem (h : b.Recorded) {K K' : ContextId} {led led' : Ledger}
    {rest : Multiset (ContextId × Ledger)} (hK : b.ledgers = (K, led) ::ₘ rest)
    (h' : (K', led') ∈ rest) : K' ≠ K := by
  rintro rfl
  have hnodup := h.ledgers_nodup
  rw [hK, Multiset.map_cons, Multiset.nodup_cons] at hnodup
  exact hnodup.1 (Multiset.mem_map.mpr ⟨(K', led'), h', rfl⟩)

lemma Recorded.region_ne_of_mem (h : b.Recorded) {l l' : Loan} {rest : Multiset Loan}
    (hloans : b.loans = l ::ₘ rest) (h' : l' ∈ rest) : l'.region.id ≠ l.region.id := by
  intro hid
  have hnodup := h.loans_nodup
  rw [hloans, Multiset.map_cons, Multiset.nodup_cons] at hnodup
  exact hnodup.1 (Multiset.mem_map.mpr ⟨l', h', hid⟩)

/-- The object of a loan is alive now only if it was before the step. -/
lemma Sound.isAlive_of_step (h : b.Sound) (hstep : Step b b') {l : Loan} (hl : l ∈ b.loans)
    (halive : b'.heap.isAlive l.object = true) : b.heap.isAlive l.object = true := by
  obtain ⟨K, hK⟩ := h.recorded.loans_lent l hl
  exact hstep.fades l.object (h.chronicled.lent K _ hK).2.2 halive

/-- Nothing was boxed yet of the region that is made next. -/
lemma Sound.next_notBoxed (h : b.Sound) {K : ContextId} {r : Region} {o : ObjectId}
    (hr : .boxed K r o ∈ b.log) : r.id ≠ ⟨b.regions⟩ := by
  intro hid
  obtain ⟨e, he, hre⟩ := (h.chronicled.boxed K r o hr).made
  have hlt := h.chronicled.made e he r hre
  simp [hid] at hlt

/-- Only a context that was made has tickets. -/
lemma Sound.ticket_context (h : b.Sound) {l : Loan} (hl : l ∈ b.loans) {t : Ticket}
    (ht : l.ticket = some t) : t.context.index < b.contexts :=
  (h.chronicled.lent _ _ (h.lent_of_ticket hl ht).1).2.1

/-! ## The ledger of one context -/

section Ledgers

variable {K K' : ContextId} {led : Ledger}

/-- A step that touches neither the ledger nor the loans, and boxes nothing. -/
lemma Sound.postedIn_of_same (h : b.Sound) (hstep : Step b b') (hp : b.PostedIn K led)
    (hloans : b'.loans = b.loans) (hlog : ∀ K r o, .boxed K r o ∈ b'.log ↔ .boxed K r o ∈ b.log) :
    b'.PostedIn K led := by
  constructor
  · rw [hloans]
    exact hp.entry_loan
  · exact fun r o hr => hp.entry_out r o ((hlog K r o).mp hr)
  · intro l hl hticket halive hout
    rw [hloans] at hl
    refine hp.loan_entry l hl hticket (h.isAlive_of_step hstep hl halive) ?_
    exact fun r o hr => hout r o ((hlog K r o).mpr hr)

/-- A step that adds a loan to those of another context, or one without a ticket. -/
lemma Sound.postedIn_of_lent (h : b.Sound) (hstep : Step b b') (hp : b.PostedIn K led) {l : Loan}
    (hl : l.ticket ≠ some ⟨K, l.region.id⟩) (hloans : b'.loans = l ::ₘ b.loans)
    (hlog : b'.log = .lent K' l :: b.log) : b'.PostedIn K led := by
  have hboxed : ∀ r o, .boxed K r o ∈ b'.log ↔ .boxed K r o ∈ b.log := by simp [hlog]
  constructor
  · intro r o ho
    obtain ⟨l', hl', hentry⟩ := hp.entry_loan r o ho
    exact ⟨l', hloans ▸ Multiset.mem_cons_of_mem hl', hentry⟩
  · exact fun r o hr => hp.entry_out r o ((hboxed r o).mp hr)
  · intro l' hl' hticket halive hout
    rw [hloans] at hl'
    rcases Multiset.mem_cons.mp hl' with rfl | hl'
    · exact absurd hticket hl
    · refine hp.loan_entry l' hl' hticket (h.isAlive_of_step hstep hl' halive) ?_
      exact fun r o hr => hout r o ((hboxed r o).mpr hr)

/-- A step that boxes a region which does not stand in this ledger. -/
lemma Sound.postedIn_of_boxed (h : b.Sound) (hstep : Step b b') (hp : b.PostedIn K led)
    {r : Region} {o : ObjectId} (hr : K = K' → led.entries.get? r.id = none)
    (hloans : b'.loans = b.loans) (hlog : b'.log = .boxed K' r o :: b.log) :
    b'.PostedIn K led := by
  constructor
  · rw [hloans]
    exact hp.entry_loan
  · intro r' o' hr'
    rw [hlog, List.mem_cons] at hr'
    rcases hr' with hr' | hr'
    · cases hr'
      exact hr rfl
    · exact hp.entry_out r' o' hr'
  · intro l hl hticket halive hout
    rw [hloans] at hl
    refine hp.loan_entry l hl hticket (h.isAlive_of_step hstep hl halive) ?_
    exact fun r' o' hr' => hout r' o' (hlog ▸ List.mem_cons_of_mem _ hr')

/-- A ledger that is new is empty, and nothing was lent by its context. -/
lemma Sound.postedIn_new (h : b.Sound) (threshold : Nat) :
    b.PostedIn ⟨b.contexts⟩ (.new threshold) := by
  constructor
  · intro r o ho
    exact absurd ho (by simp [Ledger.new])
  · intro r o _
    simp [Ledger.new]
  · intro l hl hticket
    exact absurd (h.ticket_context hl hticket) (Nat.lt_irrefl _)

/-- The ledger in which a loan is entered. -/
lemma Sound.postedIn_insert (h : b.Sound) (hp : b.PostedIn K led) {o : ObjectId}
    (ho : b.heap.isAlive o = true) (address : Address) (length : Nat)
    (hheap : b'.heap = b.heap.retain o)
    (hloans : b'.loans = b.nextLoan K o address length none ::ₘ b.loans)
    (hlog : b'.log = .lent K (b.nextLoan K o address length none) :: b.log) :
    b'.PostedIn K (led.insert b'.heap.isAlive ⟨b.regions⟩ o) := by
  have hboxed : ∀ r o, .boxed K r o ∈ b'.log ↔ .boxed K r o ∈ b.log := by simp [hlog]
  constructor
  · intro r o' ho'
    rw [Ledger.get?_insert] at ho'
    rw [hloans]
    split at ho'
    · next heq =>
        refine ⟨_, Multiset.mem_cons_self _ _, heq, Option.some.inj ho', ?_⟩
        rw [← heq]
        rfl
    · obtain ⟨l, hl, hentry⟩ := hp.entry_loan r o' (Ledger.get?_of_get?_makeRoom ho')
      exact ⟨l, Multiset.mem_cons_of_mem hl, hentry⟩
  · intro r o' hr
    have hr' := (hboxed r o').mp hr
    rw [Ledger.get?_insert, if_neg (h.next_notBoxed hr').symm]
    have hnone := hp.entry_out r o' hr'
    rw [Option.eq_none_iff_forall_ne_some] at hnone ⊢
    exact fun o'' ho'' => hnone o'' (Ledger.get?_of_get?_makeRoom ho'')
  · intro l hl hticket halive hout
    rw [hloans] at hl
    rcases Multiset.mem_cons.mp hl with rfl | hl
    · rw [Ledger.get?_insert]
      exact if_pos rfl
    · have hne : (⟨b.regions⟩ : RegionId) ≠ l.region.id := by
        intro heq
        exact h.next_notMem (Multiset.mem_map.mpr ⟨l, hl, heq.symm⟩)
      rw [Ledger.get?_insert, if_neg hne]
      refine Ledger.get?_makeRoom_of_alive halive (hp.loan_entry l hl hticket ?_ ?_)
      · rwa [hheap, Heap.isAlive_retain ho] at halive
      · exact fun r o hr => hout r o ((hboxed r o).mpr hr)

/-- The ledger from which a region is boxed. -/
lemma Sound.postedIn_redeem (h : b.Sound) (hstep : Step b b') (hp : b.PostedIn K led) {r : Region}
    {o : ObjectId} (hloans : b'.loans = b.loans) (hlog : b'.log = .boxed K r o :: b.log) :
    b'.PostedIn K (led.redeem r.id) := by
  constructor
  · intro r' o' ho'
    rw [Ledger.get?_redeem] at ho'
    split at ho'
    · exact absurd ho' (by simp)
    · rw [hloans]
      exact hp.entry_loan r' o' ho'
  · intro r' o' hr'
    rw [hlog, List.mem_cons] at hr'
    rw [Ledger.get?_redeem]
    split
    · rfl
    · next hne =>
        rcases hr' with hr' | hr'
        · cases hr'
          exact absurd rfl hne
        · exact hp.entry_out r' o' hr'
  · intro l hl hticket halive hout
    rw [hloans] at hl
    rw [Ledger.get?_redeem, if_neg (hout r o (hlog ▸ List.mem_cons_self))]
    refine hp.loan_entry l hl hticket (h.isAlive_of_step hstep hl halive) ?_
    exact fun r' o' hr' => hout r' o' (hlog ▸ List.mem_cons_of_mem _ hr')

/-- A loan gives its reference back: it keeps its entry. -/
lemma Sound.postedIn_giveBack (h : b.Sound) (hstep : Step b b') (hp : b.PostedIn K led) {l : Loan}
    {loans : Multiset Loan} (hold : b.loans = l ::ₘ loans)
    (hnew : b'.loans = { l with isHolding := false } ::ₘ loans) (hlog : b'.log = b.log) :
    b'.PostedIn K led := by
  constructor
  · intro r o ho
    obtain ⟨l', hl', hentry⟩ := hp.entry_loan r o ho
    rw [hold] at hl'
    rw [hnew]
    rcases Multiset.mem_cons.mp hl' with rfl | hl'
    · exact ⟨_, Multiset.mem_cons_self _ _, hentry⟩
    · exact ⟨l', Multiset.mem_cons_of_mem hl', hentry⟩
  · rw [hlog]
    exact hp.entry_out
  · intro l' hl' hticket halive hout
    rw [hlog] at hout
    rw [hnew] at hl'
    rcases Multiset.mem_cons.mp hl' with rfl | hl'
    · have hl : l ∈ b.loans := hold ▸ Multiset.mem_cons_self l loans
      exact hp.loan_entry l hl hticket (h.isAlive_of_step hstep hl halive) hout
    · have hl : l' ∈ b.loans := hold ▸ Multiset.mem_cons_of_mem hl'
      exact hp.loan_entry l' hl hticket (h.isAlive_of_step hstep hl halive) hout

/-- A loan ends that has no entry in this ledger, or whose entry is taken out of it. -/
lemma Sound.postedIn_end (h : b.Sound) (hstep : Step b b') (hp : b.PostedIn K led) {l : Loan}
    {loans : Multiset Loan} (hold : b.loans = l ::ₘ loans) (hnew : b'.loans = loans)
    (hlog : b'.log = b.log) {led' : Ledger}
    (hother : ∀ r, r ≠ l.region.id → led'.entries.get? r = led.entries.get? r)
    (hself : led'.entries.get? l.region.id = none) : b'.PostedIn K led' := by
  constructor
  · intro r o ho
    by_cases hr : r = l.region.id
    · rw [hr, hself] at ho
      exact absurd ho (by simp)
    · rw [hother r hr] at ho
      obtain ⟨l', hl', hid, hentry⟩ := hp.entry_loan r o ho
      rw [hold] at hl'
      rcases Multiset.mem_cons.mp hl' with rfl | hl'
      · exact absurd hid.symm hr
      · exact ⟨l', hnew ▸ hl', hid, hentry⟩
  · intro r o hr
    rw [hlog] at hr
    by_cases heq : r.id = l.region.id
    · rw [heq, hself]
    · rw [hother r.id heq]
      exact hp.entry_out r o hr
  · intro l' hl' hticket halive hout
    rw [hnew] at hl'
    rw [hlog] at hout
    rw [hother _ (h.recorded.region_ne_of_mem hold hl')]
    have hl : l' ∈ b.loans := hold ▸ Multiset.mem_cons_of_mem hl'
    exact hp.loan_entry l' hl hticket (h.isAlive_of_step hstep hl halive) hout

/-- A ledger has no entry for a loan without a ticket to it. -/
lemma Sound.entry_eq_none (h : b.Sound) (hp : b.PostedIn K led) {l : Loan} (hl : l ∈ b.loans)
    (hticket : l.ticket ≠ some ⟨K, l.region.id⟩) : led.entries.get? l.region.id = none := by
  rw [Option.eq_none_iff_forall_ne_some]
  intro o ho
  obtain ⟨l', hl', hid, -, hticket'⟩ := hp.entry_loan _ o ho
  have heq : l' = l :=
    Multiset.inj_on_of_nodup_map h.recorded.loans_nodup l' hl' l hl hid
  rw [heq] at hticket'
  exact hticket hticket'

end Ledgers

/-! ## Steps -/

lemma mem_ledgersAfter {ledgers : Multiset (ContextId × Ledger)} {l : Loan} {K : ContextId}
    {led' : Ledger} (h : (K, led') ∈ ledgersAfter ledgers l) :
    ∃ led, (K, led) ∈ ledgers ∧
      ((∃ r, l.ticket = some ⟨K, r⟩ ∧ led' = led.redeem r) ∨
        (∀ r, l.ticket ≠ some ⟨K, r⟩) ∧ led' = led) := by
  cases ht : l.ticket with
  | none =>
      simp only [ledgersAfter, ht] at h
      exact ⟨led', h, .inr ⟨fun _ => by simp, rfl⟩⟩
  | some t =>
      simp only [ledgersAfter, ht] at h
      obtain ⟨⟨K₀, led⟩, hmem, heq⟩ := Multiset.mem_map.mp h
      simp only [redeemFor] at heq
      split at heq
      · next hK =>
          obtain ⟨rfl, rfl⟩ := Prod.mk.inj heq
          exact ⟨led, hmem, .inl ⟨t.region, by rw [hK], rfl⟩⟩
      · next hK =>
          obtain ⟨rfl, rfl⟩ := Prod.mk.inj heq
          refine ⟨led, hmem, .inr ⟨fun r hr => ?_, rfl⟩⟩
          obtain rfl := Option.some.inj hr
          exact hK rfl

theorem Sound.posted_step (h : b.Sound) (hstep : Step b b') : b'.Posted := by
  intro K' led' hled
  cases hcase : hstep with
  | make | take | drop | copy | forget =>
      exact h.postedIn_of_same hstep (h.posted K' led' hled) rfl fun _ _ _ => Iff.rfl
  | own bytes =>
      exact h.postedIn_of_same hstep (h.posted K' led' hled) rfl fun _ _ _ => by simp
  | closeLedger hledgers =>
      have hmem := hledgers ▸ Multiset.mem_cons_of_mem hled
      exact h.postedIn_of_same hstep (h.posted K' led' hmem) rfl fun _ _ _ => Iff.rfl
  | openLedger threshold =>
      rcases Multiset.mem_cons.mp hled with heq | hled
      · cases heq
        exact h.postedIn_of_same hstep (h.postedIn_new threshold) rfl fun _ _ _ => Iff.rfl
      · exact h.postedIn_of_same hstep (h.posted K' led' hled) rfl fun _ _ _ => Iff.rfl
  | @lend K led rest hK o x ho hx address =>
      -- the ledger that lends gains an entry, and the others keep what they have
      rcases Multiset.mem_cons.mp hled with heq | hled
      · cases heq
        have hp := h.posted _ led (hK ▸ Multiset.mem_cons_self _ _)
        exact h.postedIn_insert hp ho address x.bytes.length rfl rfl rfl
      · have hp := h.posted K' led' (hK ▸ Multiset.mem_cons_of_mem hled)
        have hne := h.recorded.ne_of_mem hK hled
        refine h.postedIn_of_lent hstep hp ?_ rfl rfl
        simp [nextLoan, hne.symm]
  | lendFaulty hK ho hx address fault =>
      refine h.postedIn_of_lent hstep (h.posted K' led' hled) ?_ rfl rfl
      simp [nextLoan]
  | giveBack hloans =>
      exact h.postedIn_giveBack hstep (h.posted K' led' hled) hloans rfl rfl
  | @endLoan l loans hloans =>
      obtain ⟨led, hmem, hcases⟩ := mem_ledgersAfter hled
      have hp := h.posted K' led hmem
      have hl : l ∈ b.loans := hloans ▸ Multiset.mem_cons_self l loans
      -- the ledger of the ticket gives the entry up, and no other ledger had one
      rcases hcases with ⟨r, hticket, rfl⟩ | ⟨hticket, rfl⟩
      · have hr : r = l.region.id := (h.lent_of_ticket hl hticket).2
        refine h.postedIn_end hstep hp hloans rfl rfl ?_ ?_
        · intro r' hne
          rw [Ledger.get?_redeem, hr, if_neg hne.symm]
        · rw [Ledger.get?_redeem, if_pos hr]
      · refine h.postedIn_end hstep hp hloans rfl rfl (fun _ _ => rfl) ?_
        exact h.entry_eq_none hp hl (hticket _)
  | @boxLent K led rest hK r o hr ho =>
      rcases Multiset.mem_cons.mp hled with heq | hled
      · cases heq
        have hp := h.posted _ led (hK ▸ Multiset.mem_cons_self _ _)
        exact h.postedIn_redeem hstep hp rfl rfl
      · have hp := h.posted K' led' (hK ▸ Multiset.mem_cons_of_mem hled)
        have hne := h.recorded.ne_of_mem hK hled
        exact h.postedIn_of_boxed hstep hp (fun heq => absurd heq hne) rfl rfl
  | @boxOwned K r hr howned =>
      have hp := h.posted K' led' hled
      refine h.postedIn_of_boxed hstep hp (fun _ => ?_) rfl rfl
      -- an entry would be that of a loan of this region, which then shows an object
      rw [Option.eq_none_iff_forall_ne_some]
      intro o ho
      obtain ⟨l, -, hlent, hregion, -⟩ := h.lent_of_entry hled hr ho
      have haliased := (h.chronicled.lent K' _ hlent).1.aliased
      rw [show l.atStart.region = r from hregion, howned] at haliased
      exact absurd haliased (by simp)

/-- **Sound books stay sound.** -/
theorem Sound.step (h : b.Sound) (hstep : Step b b') : b'.Sound :=
  ⟨h.balanced.step hstep, h.chronicled_step hstep, h.recorded_step hstep, h.posted_step hstep⟩

theorem Sound.steps (h : b.Sound) (hsteps : Steps b b') : b'.Sound := by
  induction hsteps with
  | refl => exact h
  | tail _ hstep ih => exact ih.step hstep

lemma Steps.extends (hsteps : Steps b b') : b.heap.Extends b'.heap := by
  induction hsteps with
  | refl => exact Heap.Extends.refl _
  | tail _ hstep ih => exact ih.trans hstep.extends

end ForeignTypes.Books
