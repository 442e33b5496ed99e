import ForeignTypes.Proofs.Balance
import Mathlib.Data.List.Pairwise

/-!
# Sound books

The books of a session fit together in three ways.

* `Books.Balanced` — the references to an object are its handles and the loans that hold it.
* `Books.Chronicled`, `Books.Recorded` — the log knows every region, and each was made once.
* `Books.Posted` — what stands in a ledger is a loan of that context that was not brought back.
* `Books.Sound` — all of them.

Here the record is shown to be kept: **`Books.Sound.chronicled_step`** for the log itself, and
**`Books.Sound.recorded_step`** for the contexts, loans and copies that it knows of.
-/

namespace ForeignTypes.Books

variable {b b' : Books}

/-! ## The log -/

/-- A loan as the context `K` makes it.  Only a loan without a fault has a ticket. -/
structure MadeBy (K : ContextId) (l : Loan) : Prop where
  aliased : l.region.isAliased = true
  holding : l.isHolding = true
  ticket : l.ticket = if l.fault.isNone then some ⟨K, l.region.id⟩ else none

/-- Two events that did not make the same region. -/
def Apart (e e' : Event) : Prop :=
  ∀ r r', e.region? = some r → e'.region? = some r' → r.id ≠ r'.id

/-- The log knows of the region `r` that the context `K` boxed as the object `o`: it was made, and
if it shows an object, then it is this one, lent by this context. -/
structure Traced (log : List Event) (K : ContextId) (r : Region) (o : ObjectId) : Prop where
  made : ∃ e ∈ log, e.region? = some r
  lent : r.isAliased = true → ∃ l, .lent K l ∈ log ∧ l.region = r ∧ l.object = o

/-- **Record, first half.**  Each region was made once, and what was boxed had been lent. -/
structure Chronicled (b : Books) : Prop where
  apart : b.log.Pairwise Apart
  made : ∀ e ∈ b.log, ∀ r, e.region? = some r → r.id.index < b.regions
  lent : ∀ K l, .lent K l ∈ b.log →
    MadeBy K l ∧ K.index < b.contexts ∧ l.object.index < b.heap.objects.length
  owned : ∀ r, .owned r ∈ b.log → r.isAliased = false
  boxed : ∀ K r o, .boxed K r o ∈ b.log → Traced b.log K r o

/-- **Record, second half.**  Contexts, loans and copies of regions are those the log knows. -/
structure Recorded (b : Books) : Prop where
  ledgers_nodup : (b.ledgers.map Prod.fst).Nodup
  ledgers_made : ∀ K ∈ b.ledgers.map Prod.fst, K.index < b.contexts
  loans_lent : ∀ l ∈ b.loans, ∃ K, .lent K l.atStart ∈ b.log
  loans_nodup : (b.loans.map fun l => l.region.id).Nodup
  kept_made : ∀ r ∈ b.kept, ∃ e ∈ b.log, e.region? = some r

/-- The entries of the ledger of one context: each is that of a loan of this context that was not
brought back, and such a loan has its entry as long as its object lives. -/
structure PostedIn (b : Books) (K : ContextId) (led : Ledger) : Prop where
  entry_loan : ∀ r o, led.entries.get? r = some o →
    ∃ l ∈ b.loans, l.region.id = r ∧ l.object = o ∧ l.ticket = some ⟨K, r⟩
  entry_out : ∀ r o, .boxed K r o ∈ b.log → led.entries.get? r.id = none
  loan_entry : ∀ l ∈ b.loans, l.ticket = some ⟨K, l.region.id⟩ →
    b.heap.isAlive l.object = true → (∀ r o, .boxed K r o ∈ b.log → r.id ≠ l.region.id) →
    led.entries.get? l.region.id = some l.object

/-- **Entries.**  The entries of all ledgers are right. -/
def Posted (b : Books) : Prop := ∀ K led, (K, led) ∈ b.ledgers → b.PostedIn K led

structure Sound (b : Books) : Prop where
  balanced : b.Balanced
  chronicled : b.Chronicled
  recorded : b.Recorded
  posted : b.Posted

instance : Std.Symm Apart where
  symm := fun _ _ h r r' hr hr' heq => h r' r hr' hr heq.symm

/-- **Each region was made once**: two events that made regions of one identity are one event. -/
lemma Chronicled.event_eq (h : b.Chronicled) {e e' : Event} (he : e ∈ b.log) (he' : e' ∈ b.log)
    {r r' : Region} (hr : e.region? = some r) (hr' : e'.region? = some r') (hid : r.id = r'.id) :
    e = e' := by
  by_contra hne
  exact h.apart.forall he he' hne r r' hr hr' hid

lemma Recorded.made_of_hasRegion (h : b.Recorded) {r : Region} (hr : b.HasRegion r) :
    ∃ e ∈ b.log, e.region? = some r := by
  rcases hr with hr | ⟨l, hl, rfl⟩
  · exact h.kept_made r hr
  · obtain ⟨K, hK⟩ := h.loans_lent l hl
    exact ⟨_, hK, rfl⟩

/-- A loan of a region was made by the context of its ticket. -/
lemma Sound.lent_of_ticket (h : b.Sound) {l : Loan} (hl : l ∈ b.loans) {t : Ticket}
    (ht : l.ticket = some t) : .lent t.context l.atStart ∈ b.log ∧ t.region = l.region.id := by
  obtain ⟨K, hK⟩ := h.recorded.loans_lent l hl
  have hmade := (h.chronicled.lent K _ hK).1.ticket
  have hticket : l.atStart.ticket = some t := ht
  rw [hticket] at hmade
  split at hmade
  · obtain rfl := Option.some.inj hmade
    exact ⟨hK, rfl⟩
  · exact absurd hmade (by simp)

/-- **What stands in a ledger for a region that somebody holds** is the loan of that very region. -/
lemma Sound.lent_of_entry (h : b.Sound) {K : ContextId} {led : Ledger} (hK : (K, led) ∈ b.ledgers)
    {r : Region} (hr : b.HasRegion r) {o : ObjectId} (ho : led.entries.get? r.id = some o) :
    ∃ l ∈ b.loans, .lent K l.atStart ∈ b.log ∧ l.region = r ∧ l.object = o := by
  obtain ⟨l, hl, hid, hobj, hticket⟩ := (h.posted K led hK).entry_loan r.id o ho
  obtain ⟨hlent, -⟩ := h.lent_of_ticket hl hticket
  obtain ⟨e, he, hre⟩ := h.recorded.made_of_hasRegion hr
  have heq := h.chronicled.event_eq he hlent hre rfl hid.symm
  rw [heq] at hre
  exact ⟨l, hl, hlent, Option.some.inj hre, hobj⟩

/-! ## Steps -/

lemma madeBy_nextLoan (K : ContextId) (o : ObjectId) (address : Address) (length : Nat)
    (fault : Option Error) : MadeBy K (b.nextLoan K o address length fault) :=
  ⟨rfl, rfl, rfl⟩

lemma Traced.cons {log : List Event} {K : ContextId} {r : Region} {o : ObjectId}
    (h : Traced log K r o) (e : Event) : Traced (e :: log) K r o := by
  obtain ⟨⟨e', he', hr⟩, hlent⟩ := h
  refine ⟨⟨e', List.mem_cons_of_mem _ he', hr⟩, fun haliased => ?_⟩
  obtain ⟨l, hl, hregion, hobject⟩ := hlent haliased
  exact ⟨l, List.mem_cons_of_mem _ hl, hregion, hobject⟩

/-- The log of a step that makes a region of the next identity. -/
lemma Chronicled.made_cons (h : b.Chronicled) {e : Event} {r : Region} (hr : e.region? = some r)
    (hid : r.id = ⟨b.regions⟩) :
    (e :: b.log).Pairwise Apart ∧
      ∀ e' ∈ e :: b.log, ∀ r', e'.region? = some r' → r'.id.index < b.regions + 1 := by
  constructor
  · refine List.pairwise_cons.mpr ⟨?_, h.apart⟩
    intro e' he' r₁ r₂ hr₁ hr₂ heq
    obtain rfl := Option.some.inj (hr.symm.trans hr₁)
    have hlt := h.made e' he' r₂ hr₂
    rw [← heq, hid] at hlt
    exact absurd hlt (Nat.lt_irrefl _)
  · intro e' he' r' hr'
    rcases List.mem_cons.mp he' with rfl | he'
    · obtain rfl := Option.some.inj (hr.symm.trans hr')
      rw [hid]
      exact Nat.lt_succ_self _
    · exact Nat.lt_succ_of_lt (h.made e' he' r' hr')

/-- The log of a step that makes no region. -/
lemma Chronicled.boxed_cons (h : b.Chronicled) (K : ContextId) (r : Region) (o : ObjectId) :
    (.boxed K r o :: b.log).Pairwise Apart ∧
      ∀ e ∈ Event.boxed K r o :: b.log, ∀ r', e.region? = some r' → r'.id.index < b.regions := by
  constructor
  · refine List.pairwise_cons.mpr ⟨?_, h.apart⟩
    intro e' _ r₁ r₂ hr₁
    exact absurd hr₁ (by simp [Event.region?])
  · intro e' he' r' hr'
    rcases List.mem_cons.mp he' with rfl | he'
    · exact absurd hr' (by simp [Event.region?])
    · exact h.made e' he' r' hr'

/-- Lending an object, with or without a fault, is one more event. -/
lemma Chronicled.lend (h : b.Chronicled) {K : ContextId} {o : ObjectId} {address : Address}
    {length : Nat} {fault : Option Error} (hK : K.index < b.contexts)
    (ho : o.index < b.heap.objects.length)
    (hlog : b'.log = .lent K (b.nextLoan K o address length fault) :: b.log)
    (hregions : b'.regions = b.regions + 1) (hcontexts : b'.contexts = b.contexts)
    (hlength : b'.heap.objects.length = b.heap.objects.length) : b'.Chronicled := by
  obtain ⟨hapart, hmade⟩ := h.made_cons
    (e := .lent K (b.nextLoan K o address length fault)) rfl rfl
  constructor
  · rwa [hlog]
  · rwa [hlog, hregions]
  · intro K' l hl
    rw [hcontexts, hlength]
    rw [hlog, List.mem_cons] at hl
    rcases hl with hl | hl
    · cases hl
      exact ⟨madeBy_nextLoan K o address length fault, hK, ho⟩
    · exact h.lent K' l hl
  · intro r hr
    rw [hlog, List.mem_cons] at hr
    rcases hr with hr | hr
    · exact absurd hr (by simp)
    · exact h.owned r hr
  · intro K' r o' hr
    rw [hlog, List.mem_cons] at hr
    rcases hr with hr | hr
    · exact absurd hr (by simp)
    · rw [hlog]
      exact (h.boxed K' r o' hr).cons _

/-- Boxing a region is one more event.  If the region shows an object, it had been lent. -/
lemma Chronicled.box (h : b.Chronicled) {K : ContextId} {r : Region} {o : ObjectId}
    (hr : Traced b.log K r o)
    (hlog : b'.log = .boxed K r o :: b.log) (hregions : b'.regions = b.regions)
    (hcontexts : b'.contexts = b.contexts)
    (hlength : b.heap.objects.length ≤ b'.heap.objects.length) : b'.Chronicled := by
  obtain ⟨hapart, hmade⟩ := h.boxed_cons K r o
  constructor
  · rwa [hlog]
  · rwa [hlog, hregions]
  · intro K' l hl
    rw [hlog, List.mem_cons] at hl
    rcases hl with hl | hl
    · exact absurd hl (by simp)
    · obtain ⟨hby, hcontext, hobject⟩ := h.lent K' l hl
      exact ⟨hby, hcontexts ▸ hcontext, Nat.lt_of_lt_of_le hobject hlength⟩
  · intro r' hr'
    rw [hlog, List.mem_cons] at hr'
    rcases hr' with hr' | hr'
    · exact absurd hr' (by simp)
    · exact h.owned r' hr'
  · intro K' r' o' hr'
    rw [hlog, List.mem_cons] at hr'
    rw [hlog]
    rcases hr' with hr' | hr'
    · cases hr'
      exact hr.cons _
    · exact (h.boxed K' r' o' hr').cons _

theorem Sound.chronicled_step (h : b.Sound) (hstep : Step b b') : b'.Chronicled := by
  have hc := h.chronicled
  have hlen := hstep.length_le
  have hlent : ∀ K l, .lent K l ∈ b.log → MadeBy K l ∧ K.index < b.contexts ∧
      l.object.index < b'.heap.objects.length := by
    intro K l hl
    obtain ⟨hmade, hcontext, hobject⟩ := hc.lent K l hl
    exact ⟨hmade, hcontext, Nat.lt_of_lt_of_le hobject hlen⟩
  cases hstep with
  | make | take | drop | closeLedger | giveBack | endLoan | copy | forget =>
      exact ⟨hc.apart, hc.made, hlent, hc.owned, hc.boxed⟩
  | openLedger threshold =>
      refine ⟨hc.apart, hc.made, ?_, hc.owned, hc.boxed⟩
      intro K l hl
      obtain ⟨hmade, hcontext, hobject⟩ := hlent K l hl
      exact ⟨hmade, Nat.lt_succ_of_lt hcontext, hobject⟩
  | @lend K led _ hK _ _ halive _ _ =>
      have hcontext := h.recorded.ledgers_made K (by simp [hK])
      exact hc.lend hcontext (Heap.index_lt_of_isAlive halive) rfl rfl rfl (by simp)
  | @lendFaulty K led hK _ _ halive _ _ _ =>
      have hcontext := h.recorded.ledgers_made K (Multiset.mem_map_of_mem Prod.fst hK)
      exact hc.lend hcontext (Heap.index_lt_of_isAlive halive) rfl rfl rfl (by simp)
  | @boxLent K led _ hK r o hr ho =>
      -- the entry is that of a loan of this very region, so the log knows it was lent
      have hentry := (Ledger.peek_eq_some.mp ho).1
      obtain ⟨l, -, hl, hreg, hobj⟩ :=
        h.lent_of_entry (hK ▸ Multiset.mem_cons_self _ _) hr hentry
      have htraced : Traced b.log K r o :=
        ⟨h.recorded.made_of_hasRegion hr, fun _ => ⟨_, hl, hreg, hobj⟩⟩
      exact hc.box htraced rfl rfl rfl hlen
  | @boxOwned K r hr howned _ _ _ =>
      have htraced : Traced b.log K r b.heap.nextId :=
        ⟨h.recorded.made_of_hasRegion hr, fun haliased => absurd haliased (by simp [howned])⟩
      exact hc.box htraced rfl rfl rfl hlen
  | own bytes =>
      obtain ⟨hapart, hmade⟩ := hc.made_cons (e := .owned ⟨⟨b.regions⟩, .owned bytes⟩) rfl rfl
      refine ⟨hapart, hmade, ?_, ?_, ?_⟩
      · intro K l hl
        rcases List.mem_cons.mp hl with hl | hl
        · exact absurd hl (by simp)
        · exact hc.lent K l hl
      · intro r hr
        rcases List.mem_cons.mp hr with hr | hr
        · cases hr
          rfl
        · exact hc.owned r hr
      · intro K r o hr
        rcases List.mem_cons.mp hr with hr | hr
        · exact absurd hr (by simp)
        · exact (hc.boxed K r o hr).cons _

/-- A ledger that changes stays the ledger of its context. -/
lemma map_fst_replace {ledgers rest : Multiset (ContextId × Ledger)} {K : ContextId} {led : Ledger}
    (h : ledgers = (K, led) ::ₘ rest) (led' : Ledger) :
    ((K, led') ::ₘ rest).map Prod.fst = ledgers.map Prod.fst := by
  rw [h, Multiset.map_cons, Multiset.map_cons]

lemma map_fst_ledgersAfter (ledgers : Multiset (ContextId × Ledger)) (l : Loan) :
    (ledgersAfter ledgers l).map Prod.fst = ledgers.map Prod.fst := by
  rw [ledgersAfter]
  split
  · rw [Multiset.map_map]
    refine Multiset.map_congr rfl fun e _ => ?_
    simp only [Function.comp_apply, redeemFor]
    split <;> rfl
  · rfl

/-- The region that is made next is of none of the loans. -/
lemma Sound.next_notMem (h : b.Sound) :
    (⟨b.regions⟩ : RegionId) ∉ b.loans.map fun l => l.region.id := by
  intro hmem
  obtain ⟨l, hl, hid⟩ := Multiset.mem_map.mp hmem
  obtain ⟨K, hK⟩ := h.recorded.loans_lent l hl
  have hlt := h.chronicled.made _ hK _ rfl
  simp [Loan.atStart, hid] at hlt

/-- What was on record stays on record when one more event is told. -/
lemma Recorded.loans_lent_cons (h : b.Recorded) (e : Event) :
    ∀ l ∈ b.loans, ∃ K, .lent K l.atStart ∈ e :: b.log := by
  intro l hl
  obtain ⟨K, hK⟩ := h.loans_lent l hl
  exact ⟨K, List.mem_cons_of_mem _ hK⟩

lemma Recorded.kept_made_cons (h : b.Recorded) (e : Event) :
    ∀ r ∈ b.kept, ∃ e' ∈ e :: b.log, e'.region? = some r := by
  intro r hr
  obtain ⟨e', he', hre'⟩ := h.kept_made r hr
  exact ⟨e', List.mem_cons_of_mem _ he', hre'⟩

/-- The loans when one more object was lent. -/
lemma Sound.loans_lend (h : b.Sound) (K : ContextId) (o : ObjectId) (address : Address)
    (length : Nat) (fault : Option Error) :
    let loan := b.nextLoan K o address length fault
    (∀ l ∈ loan ::ₘ b.loans, ∃ K', .lent K' l.atStart ∈ Event.lent K loan :: b.log) ∧
      ((loan ::ₘ b.loans).map fun l => l.region.id).Nodup := by
  constructor
  · intro l hl
    rcases Multiset.mem_cons.mp hl with rfl | hl
    · exact ⟨K, List.mem_cons_self⟩
    · exact h.recorded.loans_lent_cons _ l hl
  · rw [Multiset.map_cons, Multiset.nodup_cons]
    exact ⟨h.next_notMem, h.recorded.loans_nodup⟩

theorem Sound.recorded_step (h : b.Sound) (hstep : Step b b') : b'.Recorded := by
  have hr := h.recorded
  cases hstep with
  | make | take | drop =>
      exact ⟨hr.ledgers_nodup, hr.ledgers_made, hr.loans_lent, hr.loans_nodup, hr.kept_made⟩
  | openLedger threshold =>
      refine ⟨?_, ?_, hr.loans_lent, hr.loans_nodup, hr.kept_made⟩
      · rw [Multiset.map_cons, Multiset.nodup_cons]
        refine ⟨fun hmem => ?_, hr.ledgers_nodup⟩
        exact absurd (hr.ledgers_made _ hmem) (Nat.lt_irrefl _)
      · intro K hK
        rw [Multiset.map_cons, Multiset.mem_cons] at hK
        rcases hK with rfl | hK
        · exact Nat.lt_succ_self _
        · exact Nat.lt_succ_of_lt (hr.ledgers_made K hK)
  | @closeLedger e ledgers hledgers =>
      have hnodup := hr.ledgers_nodup
      have hmade := hr.ledgers_made
      rw [hledgers, Multiset.map_cons] at hnodup hmade
      exact ⟨(Multiset.nodup_cons.mp hnodup).2, fun K hK => hmade K (Multiset.mem_cons_of_mem hK),
        hr.loans_lent, hr.loans_nodup, hr.kept_made⟩
  | lend hK _ _ address =>
      obtain ⟨hlent, hnodup⟩ := h.loans_lend _ _ address _ none
      refine ⟨?_, ?_, hlent, hnodup, hr.kept_made_cons _⟩
      · rw [map_fst_replace hK]
        exact hr.ledgers_nodup
      · rw [map_fst_replace hK]
        exact hr.ledgers_made
  | lendFaulty _ _ _ address fault =>
      obtain ⟨hlent, hnodup⟩ := h.loans_lend _ _ address _ (some fault)
      exact ⟨hr.ledgers_nodup, hr.ledgers_made, hlent, hnodup, hr.kept_made_cons _⟩
  | @giveBack l loans hloans =>
      have hnodup := hr.loans_nodup
      rw [hloans, Multiset.map_cons] at hnodup
      refine ⟨hr.ledgers_nodup, hr.ledgers_made, ?_, ?_, hr.kept_made⟩
      · intro l' hl'
        rcases Multiset.mem_cons.mp hl' with rfl | hl'
        · exact hr.loans_lent l (hloans ▸ Multiset.mem_cons_self l loans)
        · exact hr.loans_lent l' (hloans ▸ Multiset.mem_cons_of_mem hl')
      · rwa [Multiset.map_cons]
  | @endLoan l loans hloans =>
      have hnodup := hr.loans_nodup
      rw [hloans, Multiset.map_cons] at hnodup
      refine ⟨?_, ?_, ?_, (Multiset.nodup_cons.mp hnodup).2, hr.kept_made⟩
      · rw [map_fst_ledgersAfter]
        exact hr.ledgers_nodup
      · rw [map_fst_ledgersAfter]
        exact hr.ledgers_made
      · exact fun l' hl' => hr.loans_lent l' (hloans ▸ Multiset.mem_cons_of_mem hl')
  | boxLent hK _ _ =>
      refine ⟨?_, ?_, hr.loans_lent_cons _, hr.loans_nodup, hr.kept_made_cons _⟩
      · rw [map_fst_replace hK]
        exact hr.ledgers_nodup
      · rw [map_fst_replace hK]
        exact hr.ledgers_made
  | boxOwned =>
      exact ⟨hr.ledgers_nodup, hr.ledgers_made, hr.loans_lent_cons _, hr.loans_nodup,
        hr.kept_made_cons _⟩
  | own bytes =>
      refine ⟨hr.ledgers_nodup, hr.ledgers_made, hr.loans_lent_cons _, hr.loans_nodup, ?_⟩
      intro r hr'
      rcases Multiset.mem_cons.mp hr' with rfl | hr'
      · exact ⟨_, List.mem_cons_self, rfl⟩
      · exact hr.kept_made_cons _ r hr'
  | copy hregion =>
      refine ⟨hr.ledgers_nodup, hr.ledgers_made, hr.loans_lent, hr.loans_nodup, ?_⟩
      intro r hr'
      rcases Multiset.mem_cons.mp hr' with rfl | hr'
      · exact hr.made_of_hasRegion hregion
      · exact hr.kept_made r hr'
  | forget hkept =>
      refine ⟨hr.ledgers_nodup, hr.ledgers_made, hr.loans_lent, hr.loans_nodup, ?_⟩
      exact fun r hr' => hr.kept_made r (hkept ▸ Multiset.mem_cons_of_mem hr')

end ForeignTypes.Books
