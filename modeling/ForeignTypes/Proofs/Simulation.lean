import ForeignTypes.Proofs.Operations

/-!
# Every operation is a sequence of steps

The books follow the session: whatever a command does to a session, its books go by steps from the
books before to the books after, and the log takes down what happened.  Since steps keep the books
sound, the books of every session that commands lead to are sound.

* `Session.steps_unbox`, `Session.steps_box`, … — the commands that touch the books.
* **`Session.steps_perform`** — all commands.
* **`Session.Runs.sound`** — the books after any run.
-/

namespace ForeignTypes.Session

open Books SessionM

variable {s : Session} {log : List Event}

lemma steps_of_sameBooks {s' : Session} (h : SameBooks s s') :
    Steps (s.books log) (s'.books log) := by
  rw [h log]
  exact Relation.ReflTransGen.refl

lemma steps_of_within {α : Type} {m : SessionM α} (h : Within SameBooks m) :
    Steps (s.books log) ((m.run.run s).2.books log) :=
  steps_of_sameBooks (h s)

lemma step_of_eq {b b₁ b₂ : Books} (h : Step b b₁) (heq : b₂ = b₁) : Step b b₂ := heq ▸ h

/-! ## New objects -/

/-- An object was made, and the handle to it goes under a name. -/
lemma steps_of_adds {p' : Process} {type : CType} {bytes : List UInt8} {o : ObjectId}
    (h : s.process.Adds p' type bytes o) (name : String) :
    Steps (s.books log) (({ s with process := p' }.withObject name o).books log) := by
  obtain ⟨module, hheap⟩ := h.heap
  refine Relation.ReflTransGen.head ?_ (steps_withObject { s with process := p' } log name o)
  refine step_of_eq (Step.make type module bytes) ?_
  refine Books.ext hheap h.regions h.contexts rfl ?_ rfl rfl rfl
  rw [h.object]
  rfl

lemma sameBooks_of_spares {p' : Process} (h : s.process.Spares p') :
    SameBooks s { s with process := p' } :=
  fun _ => Books.ext h.heap h.regions h.contexts rfl rfl rfl rfl rfl

/-- A constructor makes its object, or leaves the books as they are. -/
lemma steps_made {answer : Process × Except Error ObjectId} {type : CType} {bytes : List UInt8}
    (hok : ∀ p o, answer = (p, .ok o) → s.process.Adds p type bytes o)
    (herror : ∀ p e, answer = (p, .error e) → s.process.Spares p) (name : String) :
    Steps (s.books log) ((s.made name answer).2.books log) := by
  rcases answer with ⟨p, e | o⟩
  · exact steps_of_sameBooks (sameBooks_of_spares (herror p e rfl))
  · exact steps_of_adds (hok p o rfl) name

lemma steps_makeRecord (name struct : String) (bytes : List UInt8) :
    Steps (s.books log) ((s.perform (.makeRecord name struct bytes)).2.books log) := by
  rw [perform_makeRecord]
  cases s.structs.get? struct with
  | none => exact Relation.ReflTransGen.refl
  | some id =>
      have hok := fun p o hmake => (@Process.adds_of_makeRecord s.process p id bytes o hmake).1
      exact steps_made hok (fun _ _ => Process.spares_of_makeRecord_error) name

lemma steps_construct (name struct : String) (bytes : List UInt8) :
    Steps (s.books log) ((s.perform (.construct name struct bytes)).2.books log) := by
  rw [perform_construct]
  cases s.structs.get? struct with
  | none => exact Relation.ReflTransGen.refl
  | some id =>
      have hok := fun p o hmake => (@Process.adds_of_construct s.process p id bytes o hmake).1
      exact steps_made hok (fun _ _ => Process.spares_of_construct_error) name

lemma steps_makeZeroed (name struct : String) :
    Steps (s.books log) ((s.perform (.makeZeroed name struct)).2.books log) := by
  rw [perform_makeZeroed]
  cases s.structs.get? struct with
  | none => exact Relation.ReflTransGen.refl
  | some id => exact steps_of_adds (Process.adds_makeZeroed s.process id) name

/-! ## Handles -/

/-- One more reference to a living object, and a name for it. -/
lemma steps_retain {o : ObjectId} (ho : s.process.heap.isAlive o = true) (name : String) :
    Steps (s.books log) (((s.retain o).withObject name o).books log) := by
  refine Relation.ReflTransGen.head ?_ (steps_withObject (s.retain o) log name o)
  exact Step.take ho

lemma steps_copyHandle (h : (s.books log).Balanced) (name object : String) :
    Steps (s.books log) ((s.perform (.copyHandle name object)).2.books log) := by
  rw [perform_copyHandle]
  cases ho : s.objects.get? object with
  | none => exact Relation.ReflTransGen.refl
  | some o => exact steps_retain (h.isAlive (Table.mem_values_of_get? ho)) name

lemma steps_upgrade (name weak : String) :
    Steps (s.books log) ((s.perform (.upgrade name weak)).2.books log) := by
  rw [perform_upgrade]
  cases s.weaks.get? weak with
  | none => exact Relation.ReflTransGen.refl
  | some o =>
      cases ho : s.process.heap.isAlive o with
      | true =>
          simp only [ho, if_true]
          exact steps_retain ho name
      | false =>
          simp only [ho]
          exact Relation.ReflTransGen.refl

lemma steps_dropHandle (object : String) :
    Steps (s.books log) ((s.perform (.dropHandle object)).2.books log) := by
  rw [perform_dropHandle]
  cases ho : s.objects.get? object with
  | none => exact Relation.ReflTransGen.refl
  | some o => exact Relation.ReflTransGen.single (Step.drop (Table.values_erase_of_some ho))

/-! ## Loans -/

lemma steps_releaseLoan (loan : String) :
    Steps (s.books log) ((s.perform (.releaseLoan loan)).2.books log) := by
  rw [perform_releaseLoan]
  cases hl : s.loans.get? loan with
  | none => exact Relation.ReflTransGen.refl
  | some l =>
      obtain ⟨rest, hvalues, hput⟩ := Table.values_replace hl
      refine Relation.ReflTransGen.single (step_of_eq (Step.giveBack hvalues) ?_)
      rw [heapAfter, ← hput]
      cases hholding : l.isHolding with
      | true =>
          simp only [hholding, if_true]
          rfl
      | false =>
          simp only [hholding]
          rfl

lemma steps_dropLoan (loan : String) :
    Steps (s.books log) ((s.perform (.dropLoan loan)).2.books log) := by
  rw [perform_dropLoan]
  cases hl : s.loans.get? loan with
  | none => exact Relation.ReflTransGen.refl
  | some l =>
      refine Relation.ReflTransGen.single ?_
      exact step_of_eq (Step.endLoan (Table.values_erase_of_some hl)) (books_endLoan _ l log)

/-- The loan that lending makes is the one that comes next. -/
lemma eq_nextLoan (log : List Event) {c : Context} {w : Workspace} {t : ValueType}
    {o : ObjectId} {x : ForeignObject} {address : Address} {loan : Loan}
    (h : Workspace.Lends ⟨s.process, c⟩ t o address w loan)
    (hregion : loan.region = ⟨⟨s.process.regions⟩, .aliased address x.bytes.length⟩) :
    loan = (s.books log).nextLoan c.id o address x.bytes.length loan.fault := by
  obtain ⟨region, object, fault, isHolding, ticket⟩ := loan
  obtain rfl := h.object
  obtain rfl := h.holding
  obtain rfl := hregion
  obtain rfl : ticket = if fault.isNone then some ⟨c.id, ⟨s.process.regions⟩⟩ else none := h.ticket
  rfl

/-- Lending, up to the name of the loan. -/
lemma step_lends (h : (s.books log).Balanced) {context object : String} {c : Context}
    {w : Workspace} {t : ValueType} {o : ObjectId} {address : Address} {loan : Loan}
    (hc : s.contexts.get? context = some c) (ho : s.objects.get? object = some o)
    (hlends : Workspace.Lends ⟨s.process, c⟩ t o address w loan) :
    Step (s.books log) { (s.withWork context w).books (.lent c.id loan :: log) with
      loans := loan ::ₘ s.loans.values } := by
  obtain ⟨x, hx, -, hregion⟩ := hlends.made
  have halive := h.isAlive (Table.mem_values_of_get? ho)
  have hloan := eq_nextLoan log hlends hregion
  have hid : loan.region.id = ⟨s.process.regions⟩ := by rw [hregion]
  obtain ⟨rest, hold, hnew⟩ := exists_ledgers_withWork log hc
  have hledger := hlends.ledger
  -- only a loan without a fault is entered in the ledger
  cases hfault : loan.fault with
  | none =>
      rw [hfault] at hloan hledger
      refine step_of_eq (Step.lend hold halive hx address) ?_
      refine Books.ext hlends.heap hlends.regions hlends.contexts ?_ rfl ?_ rfl ?_
      · show ((s.withWork context w).books log).ledgers = _
        rw [hnew w, hlends.id, hledger, hid, hlends.heap]
        rfl
      · rw [hloan]
        rfl
      · rw [hloan]
        rfl
  | some fault =>
      rw [hfault] at hloan hledger
      have hmem : (c.id, c.ledger) ∈ (s.books log).ledgers := hold ▸ Multiset.mem_cons_self _ _
      refine step_of_eq (Step.lendFaulty hmem halive hx address fault) ?_
      refine Books.ext hlends.heap hlends.regions hlends.contexts ?_ rfl ?_ rfl ?_
      · show ((s.withWork context w).books log).ledgers = _
        rw [hnew w, hlends.id, hledger, hold]
        rfl
      · rw [hloan]
        rfl
      · rw [hloan]
        rfl

lemma steps_unbox (h : (s.books log).Balanced) (context name : String) (t : ValueType)
    (object : String) (address : Option Nat) :
    Steps (s.books log) ((s.perform (.unbox context name t object address)).2.books
      ((⟨.unbox context name t object address, s⟩ : Performed).event?.toList ++ log)) := by
  rcases s.perform_unbox context name t object address with
    ⟨f, hp⟩ | ⟨c, o, w, loan, hc, ho, hl, hp⟩
  · rw [Performed.event?_of_error (congrArg Prod.fst hp), hp]
    exact Relation.ReflTransGen.refl
  · rw [Performed.event?_unbox hc (congrArg Prod.fst hp), hp]
    exact Relation.ReflTransGen.head (step_lends h hc ho hl)
      (steps_withLoan (s.withWork context w) (.lent c.id loan :: log) name loan)

lemma hasRegion_of_region? (log : List Event) {region : HeldRegion} {r : Region}
    (h : s.region? region = some r) : (s.books log).HasRegion r := by
  cases region with
  | lent loan =>
      obtain ⟨l, hl, rfl⟩ := Option.map_eq_some_iff.mp h
      exact .inr ⟨l, Table.mem_values_of_get? hl, rfl⟩
  | kept name => exact .inl (Table.mem_values_of_get? h)

/-- Boxing that fails leaves the books as they are, or makes an object and gives it up. -/
lemma steps_boxes_error {context : String} {c : Context} (hc : s.contexts.get? context = some c)
    {t : ValueType} {r : Region} {w : Workspace} {e : Error}
    (h : Workspace.Boxes ⟨s.process, c⟩ t r (w, .error e)) :
    Steps (s.books log) ((s.withWork context w).books log) := by
  have hsame : SameBooks s (s.withWork context ⟨s.process, c⟩) :=
    sameBooks_withWork hc (Workspace.Spares.refl _)
  cases h with
  | mismatch | unknown | unsupported => exact steps_of_sameBooks hsame
  | @failed _ _ process hspares _ =>
      refine steps_of_sameBooks (IsTrans.trans _ _ _ (sameBooks_of_spares hspares) ?_)
      exact sameBooks_withWork (s := { s with process }) hc (Workspace.Spares.refl _)
  | @givenUp _ _ made process type bytes o hadds hheap hregions hcontexts _ =>
      -- two steps: the object is made, and its one handle is let go
      obtain ⟨module, hmade⟩ := hadds.heap
      refine Relation.ReflTransGen.head (Step.make type module bytes) ?_
      refine Relation.ReflTransGen.single (step_of_eq
        (Step.drop (show _ = s.process.heap.nextId ::ₘ s.objects.values from rfl)) ?_)
      have hledgers := congrArg Books.ledgers (hsame log)
      refine Books.ext ?_ (hregions.trans hadds.regions) (hcontexts.trans hadds.contexts)
        hledgers rfl rfl rfl rfl
      show process.heap = _
      rw [hheap, hmade, hadds.object]
      rfl

/-- Boxing, up to the name of the handle. -/
lemma step_boxes {context : String} {region : HeldRegion} {c : Context}
    (hc : s.contexts.get? context = some c) {r : Region} (hr : s.region? region = some r)
    {t : ValueType} {w : Workspace} {o : ObjectId}
    (h : Workspace.Boxes ⟨s.process, c⟩ t r (w, .ok o)) :
    Step (s.books log) { (s.withWork context w).books (.boxed c.id r o :: log) with
      handles := o ::ₘ s.objects.values } := by
  obtain ⟨rest, hold, hnew⟩ := exists_ledgers_withWork log hc
  have hregion := hasRegion_of_region? log hr
  cases h with
  | lent ho _ =>
      refine step_of_eq (Step.boxLent hold hregion ho) ?_
      exact Books.ext rfl rfl rfl (hnew _) rfl rfl rfl rfl
  | @made _ id record struct bytes _ process ht hstorage _ _ _ hmake =>
      have howned := Region.isAliased_eq_false hstorage
      obtain ⟨hadds, -, -⟩ := Process.adds_of_construct hmake
      obtain ⟨module, hheap⟩ := hadds.heap
      rw [hadds.object]
      refine step_of_eq
        (Step.boxOwned (K := c.id) hregion howned (.struct struct) module bytes) ?_
      refine Books.ext hheap hadds.regions hadds.contexts ?_ rfl rfl rfl rfl
      show ((s.withWork context ⟨process, c⟩).books log).ledgers = _
      rw [hnew, hold]

lemma steps_box (context name : String) (t : ValueType) (region : HeldRegion) :
    Steps (s.books log) ((s.perform (.box context name t region)).2.books
      ((⟨.box context name t region, s⟩ : Performed).event?.toList ++ log)) := by
  rcases s.perform_box context name t region with ⟨-, f, hp⟩ | ⟨c, r, w, answer, hc, hr, hboxes, hp⟩
  · rw [Performed.event?_of_error (congrArg Prod.fst hp), hp]
    exact Relation.ReflTransGen.refl
  · cases answer with
    | error e =>
        rw [Performed.event?_of_error (congrArg Prod.fst hp), hp]
        exact steps_boxes_error hc hboxes
    | ok o =>
        rw [Performed.event?_box hc hr (congrArg Prod.fst hp), hp]
        exact Relation.ReflTransGen.head (step_boxes hc hr hboxes)
          (steps_withObject (s.withWork context w) (.boxed c.id r o :: log) name o)

/-! ## Regions -/

lemma steps_makeOwned (name : String) (bytes : List UInt8) :
    Steps (s.books log) ((s.perform (.makeOwned name bytes)).2.books
      ((⟨.makeOwned name bytes, s⟩ : Performed).event?.toList ++ log)) := by
  refine Relation.ReflTransGen.head (Step.own bytes) ?_
  exact steps_withRegion { s with process := s.process.newRegionId.1 } _ name

lemma steps_copyRegion (name : String) (region : HeldRegion) :
    Steps (s.books log) ((s.perform (.copyRegion name region)).2.books log) := by
  show Steps _ (((SessionM.copyRegion name region).run.run s).2.books log)
  rw [SessionM.copyRegion]
  cases hr : s.region? region with
  | none =>
      obtain ⟨kind, key, he⟩ := run_heldRegion_none hr
      rw [run_bind_error he]
      exact Relation.ReflTransGen.refl
  | some r =>
      rw [run_bind_ok (run_heldRegion_some hr), run_modify]
      refine Relation.ReflTransGen.head (Step.copy (hasRegion_of_region? log hr)) ?_
      exact steps_withRegion s log name

/-! ## Contexts -/

lemma steps_makeContext (name : String) (options : Options) (checked : Bool) :
    Steps (s.books log) ((s.perform (.makeContext name options checked)).2.books log) := by
  rcases s.perform_makeContext name options checked with ⟨f, hp⟩ | hp
  · rw [hp]
    exact Relation.ReflTransGen.refl
  · rw [hp]
    refine Relation.ReflTransGen.head (Step.openLedger options.pruneThreshold) ?_
    exact steps_withContext { s with process := (s.process.newContext options).1 } log name
      (s.process.newContext options).2

lemma steps_dropContext (name : String) :
    Steps (s.books log) ((s.perform (.dropContext name)).2.books log) := by
  show Steps _ ({ s with contexts := s.contexts.erase name }.books log)
  cases hc : s.contexts.get? name with
  | none =>
      have hvalues := Table.values_erase s.contexts name
      rw [hc] at hvalues
      refine steps_of_sameBooks fun log => Books.ext rfl rfl rfl ?_ rfl rfl rfl rfl
      exact congrArg (Multiset.map _) ((Multiset.zero_add _).symm.trans hvalues)
  | some c =>
      refine Relation.ReflTransGen.single (Step.closeLedger (e := (c.id, c.ledger)) ?_)
      exact (congrArg (Multiset.map _) (Table.values_erase_of_some hc)).trans
        (Multiset.map_cons _ _ _)

/-! ## All commands -/

/-- The books know nothing of types. -/
lemma overlooks_sameBooks : Overlooks SameBooks where
  types := fun _ _ _ => rfl
  work := sameBooks_withWork

/-- **Every command is a sequence of steps of the books.** -/
theorem steps_perform (h : (s.books log).Balanced) {α : Type} (c : Command α) :
    Steps (s.books log)
      ((s.perform c).2.books ((⟨c, s⟩ : Performed).event?.toList ++ log)) := by
  cases c with
  | makeContext name options checked => exact steps_makeContext name options checked
  | dropContext name => exact steps_dropContext name
  | declareStruct name d =>
      refine steps_of_within (within_bind (within_inProcess fun _ _ => rfl) fun id => ?_)
      exact within_bind (within_modify fun _ _ => rfl) fun _ => within_pure id
  | setFields struct fields =>
      refine steps_of_within (within_bind (within_lookup _ _ _) fun id => ?_)
      exact within_inProcess fun _ _ => rfl
  | layoutOf id =>
      exact steps_of_within (m := SessionM.layoutOf id) (within_inProcess fun _ _ => rfl)
  | extentOf t =>
      exact steps_of_within (m := SessionM.extentOf t) (within_inProcess fun _ _ => rfl)
  | resolveCType | mapScalar | deriveRecord | functionType | typeOf =>
      exact steps_of_within (overlooks_sameBooks.within rfl)
  | makeFunction name f =>
      exact steps_of_within (m := SessionM.makeFunction name f) (within_modify fun _ _ => rfl)
  | makeObject name t module bytes =>
      exact steps_of_adds (s.process.adds_makeObject t module bytes) name
  | makeRecord name struct bytes => exact steps_makeRecord name struct bytes
  | makeZeroed name struct => exact steps_makeZeroed name struct
  | makeScalar name scalar bytes => exact steps_of_adds (s.process.adds_makeObject _ _ bytes) name
  | construct name struct bytes => exact steps_construct name struct bytes
  | copyHandle name object => exact steps_copyHandle h name object
  | dropHandle object => exact steps_dropHandle object
  | makeWeak name object =>
      refine steps_of_within (within_bind (within_lookup _ _ _) fun o => ?_)
      exact within_modify fun _ _ => rfl
  | upgrade name weak => exact steps_upgrade name weak
  | unbox context name t object address => exact steps_unbox h context name t object address
  | box context name t region => exact steps_box context name t region
  | releaseLoan loan => exact steps_releaseLoan loan
  | dropLoan loan => exact steps_dropLoan loan
  | makeOwned name bytes => exact steps_makeOwned name bytes
  | copyRegion name region => exact steps_copyRegion name region
  | raise message =>
      exact steps_of_within (m := SessionM.raise message) (within_inProcess fun _ _ => rfl)
  | takeError => exact steps_of_within (m := SessionM.takeError) (within_inProcess fun _ _ => rfl)
  | makeModule name family actions =>
      refine steps_of_within (within_bind (within_inProcess fun _ _ => rfl) fun id => ?_)
      exact within_modify fun _ _ => rfl
  | provide | ensure => exact steps_of_within (overlooks_sameBooks.within rfl)
  | registerBuiltin family =>
      exact steps_of_within (fun _ _ => rfl : Within SameBooks (SessionM.registerBuiltin family))

/-! ## Runs -/

/-- The books of a session that has just started are sound. -/
theorem sound_start : (start.books []).Sound where
  balanced := by
    intro o
    simp [start, books, Process.newContext, Heap.refs, Heap.object?]
  chronicled := ⟨.nil, by simp [books], by simp [books], by simp [books], by simp [books]⟩
  recorded := by
    have hledgers : (start.books []).ledgers = {(⟨0⟩, .new Ledger.defaultThreshold)} := rfl
    constructor
    · rw [hledgers]
      exact Multiset.nodup_singleton _
    · rw [hledgers]
      simp [start, books, Process.newContext]
    · simp [start, books]
    · simp [start, books]
    · simp [start, books]
  posted := by
    intro K led hled
    have hledgers : (start.books []).ledgers = {(⟨0⟩, .new Ledger.defaultThreshold)} := rfl
    rw [hledgers, Multiset.mem_singleton] at hled
    cases hled
    constructor
    · simp [Ledger.new]
    · simp [Ledger.new]
    · simp [start, books]

variable {t : Session} {history : List Performed}

/-- **A run is a sequence of steps of the books.** -/
theorem Runs.steps (hruns : s.Runs history t) (log : List Event) (h : (s.books log).Sound) :
    Steps (s.books log) (t.books (logOf history ++ log)) := by
  induction hruns with
  | nil => exact Relation.ReflTransGen.refl
  | cons earlier c ih =>
      rw [logOf_cons, List.append_assoc]
      exact ih.trans (steps_perform (h.steps ih).balanced c)

/-- **The books of every session that commands lead to are sound.** -/
theorem Runs.sound (hruns : start.Runs history t) : (t.books (logOf history)).Sound := by
  have hsteps := hruns.steps [] sound_start
  rw [List.append_nil] at hsteps
  exact sound_start.steps hsteps

/-! ## One object, lent once -/

def madeOne : Session := (start.perform (.makeScalar "v" .int32 [1, 0, 0, 0])).2

def lentOne : Session := (madeOne.perform (.unbox "main" "x" .foreign "v" none)).2

def lentOneHistory : List Performed :=
  [⟨.unbox "main" "x" .foreign "v" none, madeOne⟩, ⟨.makeScalar "v" .int32 [1, 0, 0, 0], start⟩]

lemma runs_lentOne : start.Runs lentOneHistory lentOne :=
  (Runs.nil.cons (.makeScalar "v" .int32 [1, 0, 0, 0])).cons (.unbox "main" "x" .foreign "v" none)

end ForeignTypes.Session
