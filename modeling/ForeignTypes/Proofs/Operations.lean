import ForeignTypes.Proofs.Bookkeeping
import ForeignTypes.Proofs.Lending

/-!
# The operations, one by one

What each operation answers and leaves that moves an object, a loan or a region, or that works with
the types of a context.  An operation whose names stand for nothing leaves the session as it was.

* `Session.perform_unbox`, `Session.perform_box` — lending and boxing.
* `Session.perform_releaseLoan`, `Session.perform_dropLoan`, … — loans and handles.
* `Session.perform_deriveRecord`, `Session.perform_typeOf`, … — types.
-/

namespace ForeignTypes.Session

open SessionM

variable (s : Session)

/-! ## Lending and boxing -/

/-- The address that the foreign runtime reports for an object, unless another one is given. -/
def reported (address : Option Nat) (o : ObjectId) : Address :=
  (address.map Address.number).getD (s.process.heap.addressOf o)

section

variable {s} {context name object : String} {t : ValueType} {address : Option Nat} {c : Context}
  {o : ObjectId} {region : HeldRegion} {r : Region}

lemma perform_unbox_ok {w : Workspace} {loan : Loan} (hc : s.contexts.get? context = some c)
    (ho : s.objects.get? object = some o)
    (h : Workspace.unbox ⟨s.process, c⟩ t o (s.reported address o) = .ok (w, loan)) :
    s.perform (.unbox context name t object address)
      = (.ok (loan, w.process.heap.refs o), (s.withWork context w).withLoan name loan) := by
  refine (run_bind_ok (run_lookup_some ho)).trans ?_
  refine (run_bind_ok (run_get s)).trans ?_
  refine (run_bind_ok (run_inContext_ok (w := w) (a := loan) hc ?_)).trans ?_
  · simp only [reported] at h
    simp only [h]
  · rfl

lemma perform_unbox_error {e : Error} (hc : s.contexts.get? context = some c)
    (ho : s.objects.get? object = some o)
    (h : Workspace.unbox ⟨s.process, c⟩ t o (s.reported address o) = .error e) :
    s.perform (.unbox context name t object address) = (.error (.cause e), s) := by
  refine (run_bind_ok (run_lookup_some ho)).trans ?_
  refine (run_bind_ok (run_get s)).trans ?_
  refine (run_bind_error (run_inContext_error (w := ⟨s.process, c⟩) (e := e) hc ?_)).trans ?_
  · simp only [reported] at h
    simp only [h]
  · rw [withWork_self hc]

lemma perform_box_ok {w : Workspace} (hc : s.contexts.get? context = some c)
    (hr : s.region? region = some r) (h : Workspace.box ⟨s.process, c⟩ t r = (w, .ok o)) :
    s.perform (.box context name t region)
      = (.ok o, (s.withWork context w).withObject name o) := by
  refine (run_bind_ok (run_heldRegion_some hr)).trans ?_
  refine (run_bind_ok (run_inContext_ok hc h)).trans ?_
  rfl

lemma perform_box_error {w : Workspace} {e : Error} (hc : s.contexts.get? context = some c)
    (hr : s.region? region = some r) (h : Workspace.box ⟨s.process, c⟩ t r = (w, .error e)) :
    s.perform (.box context name t region) = (.error (.cause e), s.withWork context w) := by
  refine (run_bind_ok (run_heldRegion_some hr)).trans ?_
  refine (run_bind_error (run_inContext_error hc h)).trans ?_
  rfl

end

/-- **Lending**: nothing happens, or the loan goes under its name. -/
theorem perform_unbox (context name : String) (t : ValueType) (object : String)
    (address : Option Nat) :
    (∃ f, s.perform (.unbox context name t object address) = (.error f, s)) ∨
      ∃ c o w loan, s.contexts.get? context = some c ∧ s.objects.get? object = some o ∧
        Workspace.Lends ⟨s.process, c⟩ t o (s.reported address o) w loan ∧
        s.perform (.unbox context name t object address)
          = (.ok (loan, w.process.heap.refs o), (s.withWork context w).withLoan name loan) := by
  cases ho : s.objects.get? object with
  | none => exact .inl ⟨_, run_bind_error (run_lookup_none ho)⟩
  | some o =>
      cases hc : s.contexts.get? context with
      | none =>
          left
          refine ⟨.unknown "context" context, ?_⟩
          refine (run_bind_ok (run_lookup_some ho)).trans ?_
          exact (run_bind_ok (run_get s)).trans (run_bind_error (run_inContext_none hc))
      | some c =>
          cases hunbox : Workspace.unbox ⟨s.process, c⟩ t o (s.reported address o) with
          | error e => exact .inl ⟨_, perform_unbox_error hc ho hunbox⟩
          | ok lent =>
              obtain ⟨w, loan⟩ := lent
              exact .inr ⟨c, o, w, loan, rfl, rfl, Workspace.lends_of_unbox hunbox,
                perform_unbox_ok hc ho hunbox⟩

/-- **Boxing**: the names stand for nothing, and nothing happens; or the work is done in the
context, and an object that comes of it goes under its name. -/
theorem perform_box (context name : String) (t : ValueType) (region : HeldRegion) :
    ((s.contexts.get? context = none ∨ s.region? region = none) ∧
        ∃ f, s.perform (.box context name t region) = (.error f, s)) ∨
      ∃ c r w answer, s.contexts.get? context = some c ∧ s.region? region = some r ∧
        Workspace.Boxes ⟨s.process, c⟩ t r (w, answer) ∧
        s.perform (.box context name t region) = match answer with
          | .ok o => (.ok o, (s.withWork context w).withObject name o)
          | .error e => (.error (.cause e), s.withWork context w) := by
  cases hr : s.region? region with
  | none =>
      obtain ⟨kind, key, he⟩ := run_heldRegion_none hr
      exact .inl ⟨.inr rfl, _, run_bind_error he⟩
  | some r =>
      cases hc : s.contexts.get? context with
      | none =>
          left
          refine ⟨.inl rfl, .unknown "context" context, ?_⟩
          refine (run_bind_ok (run_heldRegion_some hr)).trans ?_
          exact run_bind_error (run_inContext_none hc)
      | some c =>
          have hboxes := Workspace.boxes_box ⟨s.process, c⟩ t r
          cases hbox : Workspace.box ⟨s.process, c⟩ t r with
          | mk w answer =>
              rw [hbox] at hboxes
              refine .inr ⟨c, r, w, answer, rfl, rfl, hboxes, ?_⟩
              cases answer with
              | ok o => exact perform_box_ok hc hr hbox
              | error e => exact perform_box_error hc hr hbox

/-- Boxing fails for a cause only if the names stand for something. -/
lemma exists_of_box_cause {s : Session} {context name : String} {t : ValueType}
    {region : HeldRegion} {e : Error}
    (h : (s.perform (.box context name t region)).1 = .error (.cause e)) :
    ∃ c r, s.contexts.get? context = some c ∧ s.region? region = some r := by
  cases hr : s.region? region with
  | none =>
      obtain ⟨kind, key, he⟩ := run_heldRegion_none hr
      rw [show s.perform (.box context name t region) = _ from run_bind_error he] at h
      exact absurd h (by simp)
  | some r =>
      cases hc : s.contexts.get? context with
      | none =>
          have hp : s.perform (.box context name t region) = _ :=
            (run_bind_ok (run_heldRegion_some hr)).trans (run_bind_error (run_inContext_none hc))
          rw [hp] at h
          exact absurd h (by simp)
      | some c => exact ⟨c, r, rfl, rfl⟩

/-! ## New objects -/

/-- What comes of a constructor that may fail: the handle to the new object goes under the name. -/
def made (name : String) :
    Process × Except Error ObjectId → Except Failure ObjectId × Session
  | (p, .ok o) => (.ok o, { s with process := p }.withObject name o)
  | (p, .error e) => (.error (.cause e), { s with process := p })

lemma run_construct (f : Process → Process × Except Error ObjectId) (name : String) :
    (do let o ← tryProcess f; nameObject name o; return o : SessionM ObjectId).run.run s
      = s.made name (f s.process) := by
  have hrun : (tryProcess f).run.run s
      = ((f s.process).2.mapError .cause, { s with process := (f s.process).1 }) :=
    (run_bind_ok (run_inProcess f s)).trans (run_result _ _)
  cases hf : f s.process with
  | mk p answer =>
      rw [hf] at hrun
      cases answer with
      | ok o => exact (run_bind_ok hrun).trans rfl
      | error e => exact run_bind_error hrun

theorem perform_makeRecord (name struct : String) (bytes : List UInt8) :
    s.perform (.makeRecord name struct bytes) = match s.structs.get? struct with
      | some id => s.made name (s.process.makeRecord id bytes)
      | none => (.error (.unknown "class" struct), s) := by
  cases hid : s.structs.get? struct with
  | some id => exact (run_bind_ok (run_lookup_some hid)).trans (s.run_construct _ name)
  | none => exact run_bind_error (run_lookup_none hid)

theorem perform_construct (name struct : String) (bytes : List UInt8) :
    s.perform (.construct name struct bytes) = match s.structs.get? struct with
      | some id => s.made name (s.process.construct id bytes)
      | none => (.error (.unknown "class" struct), s) := by
  cases hid : s.structs.get? struct with
  | some id => exact (run_bind_ok (run_lookup_some hid)).trans (s.run_construct _ name)
  | none => exact run_bind_error (run_lookup_none hid)

theorem perform_makeZeroed (name struct : String) :
    s.perform (.makeZeroed name struct) = match s.structs.get? struct with
      | some id => s.made name ((s.process.makeZeroed id).1, .ok (s.process.makeZeroed id).2)
      | none => (.error (.unknown "class" struct), s) := by
  cases hid : s.structs.get? struct with
  | some id => exact (run_bind_ok (run_lookup_some hid)).trans rfl
  | none => exact run_bind_error (run_lookup_none hid)

/-! ## Loans and handles that are let go -/

/-- Giving the reference of a loan back before it ends. -/
theorem perform_releaseLoan (loan : String) :
    s.perform (.releaseLoan loan) = match s.loans.get? loan with
      | some l =>
        let released := { s with loans := s.loans.put loan { l with isHolding := false } }
        (.ok (), if l.isHolding then released.dropObject l.object else released)
      | none => (.error (.unknown "value" loan), s) := by
  cases hl : s.loans.get? loan with
  | some l => exact (run_bind_ok (run_lookup_some hl)).trans (run_modify _ s)
  | none => exact run_bind_error (run_lookup_none hl)

theorem perform_dropLoan (loan : String) :
    s.perform (.dropLoan loan) = match s.loans.get? loan with
      | some l => (.ok true, { s with loans := s.loans.erase loan }.endLoan l)
      | none => (.ok false, s) := by
  refine (run_bind_ok (run_get s)).trans ?_
  cases s.loans.get? loan with
  | some l => rfl
  | none => rfl

theorem perform_dropHandle (object : String) :
    s.perform (.dropHandle object) = match s.objects.get? object with
      | some o => (.ok true, { s with objects := s.objects.erase object }.dropObject o)
      | none => (.ok false, s) := by
  refine (run_bind_ok (run_get s)).trans ?_
  cases s.objects.get? object with
  | some o => rfl
  | none => rfl

/-! ## Handles that are taken -/

/-- The session after one more reference to an object was taken. -/
def retain (o : ObjectId) : Session :=
  { s with process := { s.process with heap := s.process.heap.retain o } }

theorem perform_copyHandle (name object : String) :
    s.perform (.copyHandle name object) = match s.objects.get? object with
      | some o => (.ok o, (s.retain o).withObject name o)
      | none => (.error (.unknown "object" object), s) := by
  cases ho : s.objects.get? object with
  | some o => exact (run_bind_ok (run_lookup_some ho)).trans rfl
  | none => exact run_bind_error (run_lookup_none ho)

theorem perform_upgrade (name weak : String) :
    s.perform (.upgrade name weak) = match s.weaks.get? weak with
      | some o =>
        if s.process.heap.isAlive o then (.ok (some o), (s.retain o).withObject name o)
        else (.ok none, s)
      | none => (.error (.unknown "weak" weak), s) := by
  cases ho : s.weaks.get? weak with
  | some o =>
      refine (run_bind_ok (run_lookup_some ho)).trans ?_
      refine (run_bind_ok (run_get s)).trans ?_
      cases halive : s.process.heap.isAlive o with
      | true =>
          simp only [halive, if_true]
          rfl
      | false =>
          simp only [halive]
          rfl
  | none => exact run_bind_error (run_lookup_none ho)

/-! ## Contexts and types -/

/-- A context is made, unless its options are checked and found wrong. -/
theorem perform_makeContext (name : String) (options : Options) (checked : Bool) :
    (∃ f, s.perform (.makeContext name options checked) = (.error f, s)) ∨
      s.perform (.makeContext name options checked)
        = (.ok (), { s with
          process := (s.process.newContext options).1
          contexts := s.contexts.put name (s.process.newContext options).2 }) := by
  cases checked with
  | false => exact .inr rfl
  | true =>
      show (∃ f, (SessionM.makeContext name options true).run.run s = (.error f, s)) ∨
        (SessionM.makeContext name options true).run.run s = _
      rw [SessionM.makeContext, if_pos rfl]
      cases options.validate with
      | error f => exact .inl ⟨_, rfl⟩
      | ok valid => exact .inr rfl

lemma perform_makeContext_of_validate (name : String) {options : Options}
    (h : options.validate = .ok ()) :
    s.perform (.makeContext name options true)
      = (.ok (), { s with
        process := (s.process.newContext options).1
        contexts := s.contexts.put name (s.process.newContext options).2 }) := by
  show (SessionM.makeContext name options true).run.run s = _
  rw [SessionM.makeContext, if_pos rfl, h]
  rfl

/-- What comes of work in a context: the failure counts as the answer. -/
def worked {α : Type} (context : String) :
    Workspace × Except Error α → Except Failure α × Session
  | (w, r) => (r.mapError .cause, s.withWork context w)

/-- What comes of work in a context that is to answer a type: the type goes under the name. -/
def typed (context : String) (name : Option String) :
    Workspace × Except Error ValueType → Except Failure ValueType × Session
  | (w, .ok t) =>
    match name with
    | some name => (.ok t, { s.withWork context w with types := s.types.put name t })
    | none => (.ok t, s.withWork context w)
  | (w, .error e) => (.error (.cause e), s.withWork context w)

variable {s} {context : String} {c : Context}

section

variable {α : Type} {kind : String} {table : Session → Table String α} {key : String}

lemma run_typed {a : α} (ha : (table s).get? key = some a) (hc : s.contexts.get? context = some c)
    (f : α → Workspace → Workspace × Except Error ValueType) (name : Option String) :
    (do
      let a ← lookup kind table key
      let t ← inContext context (f a)
      nameType name t
      return t : SessionM ValueType).run.run s = s.typed context name (f a ⟨s.process, c⟩) := by
  refine (run_bind_ok (run_lookup_some ha)).trans ?_
  rcases hf : f a ⟨s.process, c⟩ with ⟨w, e | t⟩
  · exact run_bind_error (run_inContext_error hc hf)
  · refine (run_bind_ok (run_inContext_ok hc hf)).trans ?_
    cases name with
    | none => rfl
    | some name => rfl

lemma run_inContext_worked (hc : s.contexts.get? context = some c)
    (f : Workspace → Workspace × Except Error α) :
    (inContext context f).run.run s = s.worked context (f ⟨s.process, c⟩) := by
  rw [run_inContext, hc]
  rfl

/-- Without the thing or the context that is named, there is nothing to work with. -/
lemma exists_error_of_lookup {β : Type} {m : α → SessionM β}
    (hm : ∀ a, s.contexts.get? context = none → ∃ e, (m a).run.run s = (.error e, s))
    (h : (table s).get? key = none ∨ s.contexts.get? context = none) :
    ∃ e, (lookup kind table key >>= m).run.run s = (.error e, s) := by
  cases ha : (table s).get? key with
  | none => exact ⟨_, run_bind_error (run_lookup_none ha)⟩
  | some a =>
      obtain ⟨e, he⟩ := hm a (h.resolve_left (by simp [ha]))
      exact ⟨e, (run_bind_ok (run_lookup_some ha)).trans he⟩

end

theorem perform_deriveRecord {struct : String} {id : StructId}
    (hid : s.structs.get? struct = some id) (hc : s.contexts.get? context = some c)
    (name : Option String) :
    s.perform (.deriveRecord context struct name)
      = s.typed context name (Workspace.deriveRecord ⟨s.process, c⟩ id) :=
  run_typed hid hc (fun id w => w.deriveRecord id) name

theorem perform_typeOf {object : String} {o : ObjectId} (ho : s.objects.get? object = some o)
    (hc : s.contexts.get? context = some c) (name : Option String) :
    s.perform (.typeOf context object name)
      = s.typed context name (Workspace.typeOf ⟨s.process, c⟩ o) :=
  run_typed ho hc (fun o w => w.typeOf o) name

theorem perform_mapScalar (hc : s.contexts.get? context = some c) (scalar : CScalar)
    (t : ValueType) :
    s.perform (.mapScalar context scalar t)
      = s.worked context (Workspace.mapScalar ⟨s.process, c⟩ scalar t, .ok ()) :=
  run_inContext_worked hc fun w => (w.mapScalar scalar t, .ok ())

theorem perform_ensure (hc : s.contexts.get? context = some c) (path : String) :
    s.perform (.ensure context path) = s.worked context (Workspace.ensure ⟨s.process, c⟩ path) :=
  run_inContext_worked hc fun w => w.ensure path

theorem perform_provide {module : String} {m : ModuleId} (hm : s.modules.get? module = some m)
    (hc : s.contexts.get? context = some c) :
    s.perform (.provide context module)
      = s.worked context (Workspace.provideModule ⟨s.process, c⟩ m, .ok ()) := by
  refine (run_bind_ok (run_lookup_some hm)).trans ?_
  exact run_inContext_worked hc fun w => (w.provideModule m, .ok ())

end ForeignTypes.Session
