import ForeignTypes.Proofs.Simulation
import ForeignTypes.Proofs.Tuning

/-!
# Thresholds go unseen

The threshold of a context decides when its ledger is swept, and nothing else.  Take two runs of the
same commands in which some contexts are made with other thresholds.  At any time the two sessions
differ in nothing but ledgers and thresholds, and the two ledgers of a context both trim a third
one: the ledger that is never swept.  So the runs come to the same answers throughout.

* `Session.Matches`, `Session.Alike` — two such sessions, and two results of one command.
* `SessionM.Together` — an operation that keeps two sessions together.
* `Command.Tunes`, `Performed.Tunes` — the same command, but for the threshold of a new context.
* **`Session.Matches.perform`** — every command keeps two sessions together.
* **`Session.sweeps_unseen`** — sweeps and thresholds are invisible, at a bench and in sessions.
-/

namespace ForeignTypes

lemma Books.Steps.ages {b b' : Books} (hsteps : b.Steps b') : b.heap.Ages b'.heap := by
  induction hsteps with
  | refl => exact Heap.Ages.refl _
  | tail _ hstep ih => exact ih.trans ⟨hstep.extends, hstep.fades⟩

/-! ## Two sessions -/

namespace Session

/-- Two sessions that differ in nothing but ledgers and thresholds of contexts. -/
structure Matches (heap : Heap) (s s' : Session) : Prop where
  rest : s' = { s with contexts := s'.contexts }
  contexts : ∀ name,
    Option.Rel (Context.Matches heap) (s.contexts.get? name) (s'.contexts.get? name)

/-- Two sessions with the same answer. -/
def Alike {α : Type} (heap : Heap) (result result' : Except Failure α × Session) : Prop :=
  result'.1 = result.1 ∧ result.2.Matches heap result'.2

variable {s s' : Session} {heap heap' : Heap}

lemma Matches.get?_contexts (h : s.Matches heap s') (name : String) :
    (s.contexts.get? name = none ∧ s'.contexts.get? name = none) ∨
      ∃ c c', s.contexts.get? name = some c ∧ s'.contexts.get? name = some c' ∧
        c.Matches heap c' := by
  have hcontexts := h.contexts name
  revert hcontexts
  generalize s.contexts.get? name = found
  generalize s'.contexts.get? name = found'
  rintro (hc | -)
  · exact .inr ⟨_, _, rfl, rfl, hc⟩
  · exact .inl ⟨rfl, rfl⟩

lemma Matches.mono (h : s.Matches heap s') (hlater : heap.Ages heap') : s.Matches heap' s' := by
  refine ⟨h.rest, fun name => ?_⟩
  rcases h.get?_contexts name with ⟨hc, hc'⟩ | ⟨c, c', hc, hc', hmatch⟩
  · rw [hc, hc']
    exact .none
  · rw [hc, hc']
    exact .some (hmatch.mono hlater)

lemma Matches.exists_contexts (h : s.Matches heap s') :
    ∃ contexts, s' = { s with contexts } :=
  ⟨s'.contexts, h.rest⟩

lemma Matches.process (h : s.Matches heap s') : s'.process = s.process := by
  rw [h.rest]

/-- What does not concern contexts is done to both sessions alike. -/
lemma Matches.aside (h : s.Matches heap s') {f : Session → Session}
    (hf : ∀ s contexts, f { s with contexts } = { f s with contexts }) :
    (f s).Matches heap (f s') := by
  have hcontexts (s : Session) : (f s).contexts = s.contexts := by
    have hself := congrArg Session.contexts (hf s s.contexts)
    exact hself
  refine ⟨?_, fun name => ?_⟩
  · rw [hcontexts s', ← hf, ← h.rest]
  · rw [hcontexts, hcontexts]
    exact h.contexts name

/-- The contexts of a name are exchanged for two others. -/
lemma Matches.put (h : s.Matches heap s') {c c' : Context} (hc : c.Matches heap c')
    (name : String) :
    { s with contexts := s.contexts.put name c }.Matches heap
      { s' with contexts := s'.contexts.put name c' } := by
  refine ⟨?_, fun name' => ?_⟩
  · rw [h.rest]
  · simp only [Table.get?_put]
    split
    · exact .some hc
    · exact h.contexts name'

lemma Matches.withWork (h : s.Matches heap s') {w w' : Workspace} (hw : w.Matches heap w')
    (name : String) : (s.withWork name w).Matches heap (s'.withWork name w') := by
  have hprocess : { s with process := w.process }.Matches heap { s' with process := w.process } :=
    h.aside (f := fun s => { s with process := w.process }) fun _ _ => rfl
  rw [Session.withWork, Session.withWork, hw.process]
  exact hprocess.put hw.context name

lemma Matches.redeem (h : s.Matches heap s') (t : Ticket) :
    (s.redeem t).Matches heap (s'.redeem t) := by
  refine ⟨?_, fun name => ?_⟩
  · rw [h.rest]
    rfl
  · simp only [Session.redeem, updateContext, Table.get?_update]
    rcases h.get?_contexts name with ⟨hc, hc'⟩ | ⟨c, c', hc, hc', l, n, full, rfl, hl, hl'⟩
    · rw [hc, hc']
      exact .none
    · rw [hc, hc']
      refine .some ?_
      by_cases hid : c.id = t.context
      · simp only [Context.tuned, hid, if_true]
        exact ⟨_, n, _, rfl, hl.redeem t.region, hl'.redeem t.region⟩
      · simp only [Context.tuned, hid, if_false]
        exact ⟨l, n, full, rfl, hl, hl'⟩

lemma Matches.dropObject (h : s.Matches heap s') (o : ObjectId) :
    (s.dropObject o).Matches heap (s'.dropObject o) :=
  h.aside (f := (·.dropObject o)) fun _ _ => rfl

lemma Matches.endLoan (h : s.Matches heap s') (l : Loan) :
    (s.endLoan l).Matches heap (s'.endLoan l) := by
  have hreleased : (if l.isHolding then s.dropObject l.object else s).Matches heap
      (if l.isHolding then s'.dropObject l.object else s') := by
    split
    · exact h.dropObject l.object
    · exact h
  rw [Session.endLoan, Session.endLoan]
  cases l.ticket with
  | none => exact hreleased
  | some t => exact hreleased.redeem t

lemma Matches.withLoan (h : s.Matches heap s') (name : String) (l : Loan) :
    (s.withLoan name l).Matches heap (s'.withLoan name l) := by
  have hnamed : { s with loans := s.loans.put name l }.Matches heap
      { s' with loans := s'.loans.put name l } :=
    h.aside (f := fun s => { s with loans := s.loans.put name l }) fun _ _ => rfl
  have hloans : s'.loans = s.loans := by rw [h.rest]
  simp only [Session.withLoan]
  rw [hloans] at hnamed ⊢
  cases s.loans.get? name with
  | none => exact hnamed
  | some old => exact hnamed.endLoan old

lemma Matches.withObject (h : s.Matches heap s') (name : String) (o : ObjectId) :
    (s.withObject name o).Matches heap (s'.withObject name o) := by
  refine h.aside (f := (·.withObject name o)) fun s contexts => ?_
  simp only [Session.withObject]
  cases s.objects.get? name with
  | none => rfl
  | some old => rfl

end Session

/-! ## Operations -/

namespace SessionM

open Session

variable {α β : Type} {heap : Heap} {s s' : Session}

/-- The operation keeps two sessions together, and comes to the same answer in both. -/
def Together (heap : Heap) (m : SessionM α) : Prop :=
  ∀ s s', s.Matches heap s' → Alike heap (m.run.run s) (m.run.run s')

lemma alike_bind {m m' : SessionM α} {f : α → SessionM β}
    (hm : Alike heap (m.run.run s) (m'.run.run s')) (hf : ∀ a, Together heap (f a)) :
    Alike heap ((m >>= f).run.run s) ((m' >>= f).run.run s') := by
  rw [run_bind, run_bind]
  generalize m.run.run s = result at hm
  generalize m'.run.run s' = result' at hm
  obtain ⟨r, t⟩ := result
  obtain ⟨r', t'⟩ := result'
  obtain ⟨rfl, ht⟩ : r' = r ∧ t.Matches heap t' := hm
  cases r' with
  | error e => exact ⟨rfl, ht⟩
  | ok a => exact hf a t t' ht

lemma together_bind {m : SessionM α} {f : α → SessionM β} (hm : Together heap m)
    (hf : ∀ a, Together heap (f a)) : Together heap (m >>= f) :=
  fun s s' h => alike_bind (hm s s' h) hf

lemma together_pure (a : α) : Together heap (pure a) := fun _ _ h => ⟨rfl, h⟩

lemma together_result (r : Except Error α) : Together heap (result r) := by
  intro s s' h
  rw [run_result, run_result]
  exact ⟨rfl, h⟩

lemma together_lookup {kind : String} {table : Session → Table String α}
    (htable : ∀ s contexts, table { s with contexts } = table s) (name : String) :
    Together heap (lookup kind table name) := by
  intro s s' h
  have hsame : table s' = table s := by rw [h.rest, htable]
  rw [run_lookup, run_lookup, hsame]
  cases (table s).get? name with
  | none => exact ⟨rfl, h⟩
  | some a => exact ⟨rfl, h⟩

lemma together_heldRegion (region : HeldRegion) : Together heap (heldRegion region) := by
  cases region with
  | lent loan =>
      refine together_bind (together_lookup (fun _ _ => rfl) loan) fun l => ?_
      exact together_pure l.region
  | kept name => exact together_lookup (fun _ _ => rfl) name

lemma together_modify {f : Session → Session}
    (hf : ∀ s contexts, f { s with contexts } = { f s with contexts }) :
    Together heap (modify f : SessionM PUnit) :=
  fun _ _ h => ⟨rfl, h.aside hf⟩

lemma together_inProcess (f : Process → Process × α) : Together heap (inProcess f) := by
  intro s s' h
  rw [run_inProcess, run_inProcess, h.process]
  refine ⟨rfl, ?_⟩
  exact h.aside (f := fun s' => { s' with process := (f s.process).1 }) fun _ _ => rfl

lemma together_tryProcess (f : Process → Process × Except Error α) :
    Together heap (tryProcess f) :=
  together_bind (together_inProcess f) together_result

lemma together_nameObject (name : String) (o : ObjectId) : Together heap (nameObject name o) :=
  fun _ _ h => ⟨rfl, h.withObject name o⟩

lemma together_nameType (name : Option String) (t : ValueType) :
    Together heap (nameType name t) := by
  cases name with
  | none => exact together_pure ()
  | some name => exact together_modify fun _ _ => rfl

/-- Work in a context that comes to the same answer in both sessions. -/
lemma alike_inContext {f f' : Workspace → Workspace × Except Error α} (h : s.Matches heap s')
    (hf : ∀ w w', w.process = s.process → w.Matches heap w' → Workspace.Alike heap (f w) (f' w'))
    (name : String) :
    Alike heap ((inContext name f).run.run s) ((inContext name f').run.run s') := by
  rw [run_inContext, run_inContext, h.process]
  rcases h.get?_contexts name with ⟨hc, hc'⟩ | ⟨c, c', hc, hc', hmatch⟩
  · rw [hc, hc']
    exact ⟨rfl, h⟩
  · obtain ⟨hanswer, hwork⟩ := hf ⟨s.process, c⟩ ⟨s.process, c'⟩ rfl ⟨rfl, hmatch⟩
    simp only [hc, hc', hanswer]
    exact ⟨rfl, h.withWork hwork name⟩

lemma together_inContext {f : Workspace → Workspace × Except Error α} (hf : Workspace.Blind f)
    (name : String) : Together heap (inContext name f) :=
  fun _ _ h => alike_inContext h (fun _ _ _ hw => hw.blind hf) name

/-- What stands under a name is the same in both sessions. -/
lemma alike_lookup {kind : String} {table : Session → Table String α} {name : String}
    {m : α → SessionM β} (htable : ∀ s contexts, table { s with contexts } = table s)
    (h : s.Matches heap s') (hm : ∀ a, (table s).get? name = some a →
      Alike heap ((m a).run.run s) ((m a).run.run s')) :
    Alike heap ((lookup kind table name >>= m).run.run s)
      ((lookup kind table name >>= m).run.run s') := by
  have hsame : table s' = table s := by rw [h.rest, htable]
  cases ha : (table s).get? name with
  | none =>
      rw [run_bind_error (run_lookup_none ha), run_bind_error (run_lookup_none (hsame ▸ ha))]
      exact ⟨rfl, h⟩
  | some a =>
      rw [run_bind_ok (run_lookup_some ha), run_bind_ok (run_lookup_some (hsame ▸ ha))]
      exact hm a ha

lemma alike_heldRegion {region : HeldRegion} {m : Region → SessionM β} (h : s.Matches heap s')
    (hm : ∀ r, Alike heap ((m r).run.run s) ((m r).run.run s')) :
    Alike heap ((heldRegion region >>= m).run.run s)
      ((heldRegion region >>= m).run.run s') := by
  have hsame : s'.region? region = s.region? region := by
    rw [h.rest]
    rfl
  cases hr : s.region? region with
  | none =>
      obtain ⟨kind, key, he⟩ := run_heldRegion_none hr
      obtain ⟨kind', key', he'⟩ := run_heldRegion_none (hsame.trans hr)
      have hheld := together_heldRegion region s s' h
      rw [he, he'] at hheld
      obtain ⟨rfl, rfl⟩ := Failure.unknown.inj (Except.error.inj hheld.1)
      rw [run_bind_error he, run_bind_error he']
      exact ⟨rfl, h⟩
  | some r =>
      rw [run_bind_ok (run_heldRegion_some hr), run_bind_ok (run_heldRegion_some (hsame.trans hr))]
      exact hm r

/-- A type goes under a name, if one is given, and is the answer. -/
lemma together_typed {m : SessionM ValueType} (hm : Together heap m) (name : Option String) :
    Together heap (do let t ← m; nameType name t; return t) := by
  refine together_bind hm fun t => ?_
  exact together_bind (together_nameType name t) fun _ => together_pure t

/-- A handle to a new object goes under a name, and the object is the answer. -/
lemma together_made {m : SessionM ObjectId} (hm : Together heap m) (name : String) :
    Together heap (do let o ← m; nameObject name o; return o) := by
  refine together_bind hm fun o => ?_
  exact together_bind (together_nameObject name o) fun _ => together_pure o

end SessionM

/-! ## Commands -/

/-- The same command, but for the threshold of a context that it makes.  Options that are checked
are rejected with both thresholds or with neither. -/
inductive Command.Tunes : {α : Type} → Command α → Command α → Prop
  | same {α : Type} (c : Command α) : Tunes c c
  | threshold (name : String) (options : Options) (n : Nat) (checked : Bool)
      (h : checked = true → (n = 0 ↔ options.pruneThreshold = 0)) :
    Tunes (.makeContext name options checked)
      (.makeContext name { options with pruneThreshold := n } checked)

namespace Session

open SessionM

variable {s s' : Session} {heap : Heap}

/-- A context is made: two new contexts have empty ledgers. -/
lemma Matches.makeContext (h : s.Matches heap s') (name : String) (options : Options) (n : Nat)
    (checked : Bool) (hn : checked = true → (n = 0 ↔ options.pruneThreshold = 0)) :
    Alike heap (s.perform (.makeContext name options checked))
      (s'.perform (.makeContext name { options with pruneThreshold := n } checked)) := by
  have hmade : Alike heap (s.perform (.makeContext name options false))
      (s'.perform (.makeContext name { options with pruneThreshold := n } false)) := by
    have hnew : Context.Matches heap (.new ⟨s.process.contexts⟩ options)
        (.new ⟨s.process.contexts⟩ { options with pruneThreshold := n }) :=
      ⟨_, n, .new n, rfl, .of_empty rfl rfl, .of_empty rfl rfl⟩
    have hcounted := h.aside (f := fun s' => { s' with
      process := (s.process.newContext options).1 }) fun _ _ => rfl
    obtain ⟨contexts, rfl⟩ := h.exists_contexts
    exact ⟨rfl, hcounted.put hnew name⟩
  cases checked with
  | false => exact hmade
  | true =>
      have hvalidate :
          Options.validate { options with pruneThreshold := n } = options.validate := by
        simp only [Options.validate, hn rfl]
      cases hvalid : options.validate with
      | error f =>
          have hrejected {s : Session} {options : Options} (hvalid : options.validate = .error f) :
              s.perform (.makeContext name options true) = (.error (.cause f.error), s) := by
            show (SessionM.makeContext name options true).run.run s = _
            rw [SessionM.makeContext, if_pos rfl, hvalid]
            rfl
          rw [hrejected hvalid, hrejected (hvalidate.trans hvalid)]
          exact ⟨rfl, h⟩
      | ok valid =>
          have haccepted {s : Session} {options : Options} (hvalid : options.validate = .ok valid) :
              s.perform (.makeContext name options true)
                = s.perform (.makeContext name options false) := by
            show (SessionM.makeContext name options true).run.run s = _
            rw [SessionM.makeContext, if_pos rfl, hvalid]
            rfl
          rw [haccepted hvalid, haccepted (hvalidate.trans hvalid)]
          exact hmade

lemma Matches.dropContext (h : s.Matches heap s') (name : String) :
    Alike heap (s.perform (.dropContext name)) (s'.perform (.dropContext name)) := by
  refine ⟨?_, ?_, fun name' => ?_⟩
  · show Except.ok (s'.contexts.contains name) = Except.ok (s.contexts.contains name)
    rcases h.get?_contexts name with ⟨hc, hc'⟩ | ⟨c, c', hc, hc', -⟩
    · simp [Table.contains, hc, hc']
    · simp [Table.contains, hc, hc']
  · show { s' with contexts := s'.contexts.erase name } = _
    rw [h.rest]
    rfl
  · show Option.Rel _ ((s.contexts.erase name).get? name') ((s'.contexts.erase name).get? name')
    simp only [Table.get?_erase]
    split
    · exact .none
    · exact h.contexts name'

lemma Matches.dropHandle (h : s.Matches heap s') (object : String) :
    Alike heap (s.perform (.dropHandle object)) (s'.perform (.dropHandle object)) := by
  have hobjects : s'.objects = s.objects := by rw [h.rest]
  rw [perform_dropHandle, perform_dropHandle, hobjects]
  cases s.objects.get? object with
  | none => exact ⟨rfl, h⟩
  | some o =>
      have herased := h.aside (f := fun s' => { s' with objects := s.objects.erase object })
        fun _ _ => rfl
      exact ⟨rfl, herased.dropObject o⟩

lemma Matches.upgrade (h : s.Matches heap s') (name weak : String) :
    Alike heap (s.perform (.upgrade name weak)) (s'.perform (.upgrade name weak)) := by
  have hweaks : s'.weaks = s.weaks := by rw [h.rest]
  rw [perform_upgrade, perform_upgrade, hweaks, h.process]
  cases s.weaks.get? weak with
  | none => exact ⟨rfl, h⟩
  | some o =>
      have hretained := h.aside (f := (·.retain o)) fun _ _ => rfl
      simp only
      split
      · exact ⟨rfl, hretained.withObject name o⟩
      · exact ⟨rfl, h⟩

lemma Matches.dropLoan (h : s.Matches heap s') (loan : String) :
    Alike heap (s.perform (.dropLoan loan)) (s'.perform (.dropLoan loan)) := by
  have hloans : s'.loans = s.loans := by rw [h.rest]
  rw [perform_dropLoan, perform_dropLoan, hloans]
  cases s.loans.get? loan with
  | none => exact ⟨rfl, h⟩
  | some l =>
      have herased := h.aside (f := fun s' => { s' with loans := s.loans.erase loan })
        fun _ _ => rfl
      exact ⟨rfl, herased.endLoan l⟩

lemma Matches.unbox (h : s.Matches s.process.heap s') {log : List Event}
    (hbalanced : (s.books log).Balanced) (context name : String) (t : ValueType)
    (object : String) (address : Option Nat) :
    Alike s.process.heap (s.perform (.unbox context name t object address))
      (s'.perform (.unbox context name t object address)) := by
  refine alike_lookup (fun _ _ => rfl) h fun o ho => ?_
  have halive : s.process.heap.isAlive o = true :=
    hbalanced.isAlive (Table.mem_values_of_get? ho)
  rw [run_bind_ok (run_get s), run_bind_ok (run_get s'), h.process]
  refine alike_bind (alike_inContext h (fun w w' hw hmatch => ?_) context) fun loan => ?_
  · rw [← hw] at hmatch halive ⊢
    exact hmatch.lend halive t _
  · intro t t' ht
    rw [run_bind_ok (run_get t), run_bind_ok (run_get t'), ht.process]
    exact ⟨rfl, ht.withLoan name loan⟩

lemma Matches.box (h : s.Matches s.process.heap s') (context name : String) (t : ValueType)
    (region : HeldRegion) :
    Alike s.process.heap (s.perform (.box context name t region))
      (s'.perform (.box context name t region)) := by
  refine alike_heldRegion h fun r => ?_
  refine alike_bind (alike_inContext h (fun w w' hw hmatch => ?_) context) fun o => ?_
  · rw [← hw] at hmatch ⊢
    exact hmatch.box t r
  · exact together_bind (together_nameObject name o) fun _ => together_pure o

/-- **Every command keeps two sessions together**, and comes to the same answer. -/
theorem Matches.perform (h : s.Matches s.process.heap s') {log : List Event}
    (hbalanced : (s.books log).Balanced) {α : Type} {c c' : Command α} (hc : c.Tunes c') :
    Alike s.process.heap (s.perform c) (s'.perform c') := by
  cases hc with
  | threshold name options n checked hn => exact h.makeContext name options n checked hn
  | same c =>
      have htogether {m : SessionM α} (hm : Together s.process.heap m) :
          Alike s.process.heap (m.run.run s) (m.run.run s') := hm s s' h
      cases c with
      | makeContext name options checked =>
          exact h.makeContext name options options.pruneThreshold checked fun _ => Iff.rfl
      | dropContext name => exact h.dropContext name
      | declareStruct name d =>
          refine htogether (together_bind (together_inProcess _) fun id => ?_)
          exact together_bind (together_modify fun _ _ => rfl) fun _ => together_pure id
      | setFields struct fields =>
          refine htogether (together_bind (together_lookup (fun _ _ => rfl) struct) fun id => ?_)
          exact together_inProcess _
      | layoutOf id => exact htogether (m := SessionM.layoutOf id) (together_inProcess _)
      | extentOf t => exact htogether (m := SessionM.extentOf t) (together_inProcess _)
      | resolveCType context t name =>
          exact htogether (together_typed (together_inContext (fun _ _ _ => rfl) context) name)
      | mapScalar context scalar t =>
          exact htogether (m := SessionM.mapScalar context scalar t)
            (together_inContext (fun _ _ _ => rfl) context)
      | deriveRecord context struct name =>
          refine htogether (together_bind (together_lookup (fun _ _ => rfl) struct) fun id => ?_)
          refine together_typed (together_inContext ?_ context) name
          exact fun w l n => w.deriveRecord_tuned l n id
      | makeFunction name f =>
          exact htogether (m := SessionM.makeFunction name f) (together_modify fun _ _ => rfl)
      | functionType context function name =>
          refine htogether (together_bind (together_lookup (fun _ _ => rfl) function) fun f => ?_)
          refine together_typed (together_inContext ?_ context) name
          exact fun w l n => w.functionType_tuned l n f
      | typeOf context object name =>
          refine htogether (together_bind (together_lookup (fun _ _ => rfl) object) fun o => ?_)
          exact together_typed (together_inContext (Workspace.blind_typeOf o) context) name
      | makeObject name t module bytes | makeScalar name scalar bytes =>
          exact htogether (together_made (together_inProcess _) name)
      | makeRecord name struct bytes | construct name struct bytes =>
          refine htogether (together_bind (together_lookup (fun _ _ => rfl) struct) fun id => ?_)
          exact together_made (together_tryProcess _) name
      | makeZeroed name struct =>
          refine htogether (together_bind (together_lookup (fun _ _ => rfl) struct) fun id => ?_)
          exact together_made (together_inProcess _) name
      | copyHandle name object =>
          refine htogether (together_bind (together_lookup (fun _ _ => rfl) object) fun o => ?_)
          refine together_bind (together_inProcess _) fun _ => ?_
          exact together_bind (together_nameObject name o) fun _ => together_pure o
      | dropHandle object => exact h.dropHandle object
      | makeWeak name object =>
          refine htogether (together_bind (together_lookup (fun _ _ => rfl) object) fun o => ?_)
          exact together_modify fun _ _ => rfl
      | upgrade name weak => exact h.upgrade name weak
      | unbox context name t object address => exact h.unbox hbalanced context name t object address
      | box context name t region => exact h.box context name t region
      | releaseLoan loan =>
          refine htogether (together_bind (together_lookup (fun _ _ => rfl) loan) fun l => ?_)
          refine together_modify fun s contexts => ?_
          cases l.isHolding with
          | false => rfl
          | true => rfl
      | dropLoan loan => exact h.dropLoan loan
      | makeOwned name bytes =>
          refine htogether (together_bind (together_inProcess _) fun r => ?_)
          exact together_bind (together_modify fun _ _ => rfl) fun _ => together_pure r
      | copyRegion name region =>
          refine htogether (together_bind (together_heldRegion region) fun r => ?_)
          exact together_modify fun _ _ => rfl
      | raise message => exact htogether (m := SessionM.raise message) (together_inProcess _)
      | takeError => exact htogether (m := SessionM.takeError) (together_inProcess _)
      | makeModule name family actions =>
          refine htogether (together_bind (together_inProcess _) fun id => ?_)
          exact together_modify fun _ _ => rfl
      | provide context module =>
          refine htogether (together_bind (together_lookup (fun _ _ => rfl) module) fun m => ?_)
          refine together_inContext (fun w l n => ?_) context
          rw [w.provideModule_tuned l n m]
      | ensure context path =>
          exact htogether (m := SessionM.ensure context path)
            (together_inContext (Workspace.blind_ensure path) context)
      | registerBuiltin family =>
          have hput := h.aside (f := fun s' => { s' with
            registry := (s.registry.register family .builtin).1 }) fun _ _ => rfl
          obtain ⟨contexts, rfl⟩ := h.exists_contexts
          exact ⟨rfl, hput⟩

end Session

/-! ## Runs -/

/-- The same command was performed, but for the threshold of a context that it made. -/
inductive Performed.Tunes : Performed → Performed → Prop
  | intro {α : Type} {c c' : Command α} (h : c.Tunes c') (s s' : Session) :
    Tunes ⟨c, s⟩ ⟨c', s'⟩

namespace Session

variable {s s' : Session} {history history' : List Performed}

lemma matches_start (heap : Heap) : start.Matches heap start := by
  have hempty : { start with contexts := {} }.Matches heap { start with contexts := {} } :=
    ⟨rfl, fun _ => .none⟩
  exact hempty.put ⟨_, _, .new 0, rfl, .of_empty rfl rfl, .of_empty rfl rfl⟩ "main"

/-- By induction on the runs; what a command leaves matches in the heap that it leaves, since
objects only age. -/
lemma Runs.matches (hruns : start.Runs history s) (hruns' : start.Runs history' s')
    (htunes : List.Forall₂ Performed.Tunes history history') : s.Matches s.process.heap s' := by
  induction hruns generalizing history' s' with
  | nil =>
      cases htunes
      cases hruns'
      exact matches_start _
  | @cons history t earlier α c ih =>
      cases htunes with
      | cons hlast htunes =>
          cases hlast with
          | @intro α c c' hc t t' =>
              cases hruns' with
              | cons earlier' =>
                  have halike := (ih earlier' htunes).perform earlier.sound.balanced hc
                  exact halike.2.mono (steps_perform earlier.sound.balanced c).ages

/-- **Sweeps are invisible.**

* A ledger is worked along a list of tasks, and so is one that is never swept.  All around the two
  stays the same; every look finds the same in both; the first has the entries of the second, but
  for some whose object is dead.
* Two runs of the same commands, in which contexts may be made with other thresholds, come to the
  same answers: whatever command is performed next, lending and boxing among them. -/
theorem sweeps_unseen :
    (∀ n tasks,
      let b := (Bench.new n).work tasks
      let full := (Bench.new n).workUnswept tasks
      full = { b with ledger := full.ledger } ∧ (∀ r, b.peek r = full.peek r) ∧
        Option.Rel (fun l f =>
          (∀ r o, l.entries.get? r = some o → f.entries.get? r = some o) ∧
          ∀ r o, f.entries.get? r = some o → l.entries.get? r = none → b.heap.isAlive o = false)
          b.ledger full.ledger) ∧
    ∀ history history' s s', start.Runs history s → start.Runs history' s' →
      List.Forall₂ Performed.Tunes history history' →
      ∀ α (c c' : Command α), c.Tunes c' → (s'.perform c').1 = (s.perform c).1 := by
  refine ⟨fun n tasks => ((Bench.trims_new n).work tasks).looks, ?_⟩
  intro history history' s s' hruns hruns' htunes α c c' hc
  exact ((hruns.matches hruns' htunes).perform hruns.sound.balanced hc).1

/-- A context with a threshold lends an object that dies, and then another one. -/
def lentTwice (n : Nat) : Session :=
  let made := (start.perform (.makeContext "c" { pruneThreshold := n } true)).2
  let first := (made.perform (.makeScalar "v" .int32 [1, 0, 0, 0])).2
  let lent := (first.perform (.unbox "c" "x" .foreign "v" none)).2
  let given := (lent.perform (.releaseLoan "x")).2
  let dead := (given.perform (.dropHandle "v")).2
  let second := (dead.perform (.makeScalar "w" .int32 [2, 0, 0, 0])).2
  (second.perform (.unbox "c" "y" .foreign "w" none)).2

/-- With a threshold of one the dead object is swept out, with a larger one it is not; boxing comes
to the same answers. -/
theorem sweeps_unseen_lentTwice :
    ((lentTwice 1).contexts.get? "c").map (·.ledger.size) = some 1 ∧
    ((lentTwice 64).contexts.get? "c").map (·.ledger.size) = some 2 ∧
    ∀ t region, ((lentTwice 64).perform (.box "c" "back" t region)).1
      = ((lentTwice 1).perform (.box "c" "back" t region)).1 := by
  have hruns (n : Nat) := (((((((Runs.nil (s := start)).cons
    (.makeContext "c" { pruneThreshold := n } true)).cons
    (.makeScalar "v" .int32 [1, 0, 0, 0])).cons
    (.unbox "c" "x" .foreign "v" none)).cons
    (.releaseLoan "x")).cons
    (.dropHandle "v")).cons
    (.makeScalar "w" .int32 [2, 0, 0, 0])).cons
    (.unbox "c" "y" .foreign "w" none)
  refine ⟨rfl, rfl, fun t region => ?_⟩
  refine sweeps_unseen.2 _ _ _ _ (hruns 1) (hruns 64) ?_ _ _ _ (.same _)
  have hsame {α : Type} (c : Command α) (s s' : Session) : Performed.Tunes ⟨c, s⟩ ⟨c, s'⟩ :=
    ⟨.same c, s, s'⟩
  refine .cons (hsame _ _ _) (.cons (hsame _ _ _) (.cons (hsame _ _ _) (.cons (hsame _ _ _)
    (.cons (hsame _ _ _) (.cons (hsame _ _ _) (.cons ⟨?_, _, _⟩ .nil))))))
  exact .threshold "c" { pruneThreshold := 1 } 64 true fun _ => by decide

end Session

end ForeignTypes
