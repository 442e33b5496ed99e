import ForeignTypes.Proofs.Events
import ForeignTypes.Proofs.Typing
import ForeignTypes.Proofs.Values

/-!
# How an operation runs

An operation of a session is put together from a few parts: looking a name up, working in the
process or in a context, and putting something under a name.  Here is what each of them answers and
leaves, so that the operations themselves can be followed part by part.

* `SessionM.run_bind`, `run_lookup`, `run_inProcess`, `run_inContext`, … — the parts.
* `Session.withObject`, `Session.withLoan` — the session after a name was given.
* `SessionM.Within` — a relation that holds between what an operation finds and what it leaves.
* `Command.isTyping`, **`SessionM.Overlooks.within`** — the commands that change nothing but what is
  known of types, and the relations that do not see it.
-/

namespace ForeignTypes

/-! ## Giving names -/

namespace Session

def withObject (s : Session) (name : String) (o : ObjectId) : Session :=
  match s.objects.get? name with
  | some old => { s with objects := s.objects.put name o }.dropObject old
  | none => { s with objects := s.objects.put name o }

lemma objects_withObject (s : Session) (name : String) (o : ObjectId) :
    (s.withObject name o).objects = s.objects.put name o := by
  rw [withObject]
  cases s.objects.get? name with
  | some old => rfl
  | none => rfl

lemma contexts_withObject (s : Session) (name : String) (o : ObjectId) :
    (s.withObject name o).contexts = s.contexts := by
  rw [withObject]
  cases s.objects.get? name with
  | some old => rfl
  | none => rfl

lemma foreign_withObject (s : Session) (name : String) (o : ObjectId) :
    (s.withObject name o).process.foreign = s.process.foreign := by
  rw [withObject]
  cases s.objects.get? name with
  | some old => rfl
  | none => rfl

def withLoan (s : Session) (name : String) (l : Loan) : Session :=
  match s.loans.get? name with
  | some old => { s with loans := s.loans.put name l }.endLoan old
  | none => { s with loans := s.loans.put name l }

def withWork (s : Session) (name : String) (w : Workspace) : Session :=
  { s with process := w.process, contexts := s.contexts.put name w.context }

/-- Work that leaves the context as it was concerns the process alone. -/
lemma withWork_context {s : Session} {name : String} {c : Context}
    (hc : s.contexts.get? name = some c) (process : Process) :
    s.withWork name ⟨process, c⟩ = { s with process } := by
  rw [withWork, Table.put_get? hc]

/-- Work that does nothing leaves the session as it was. -/
lemma withWork_self {s : Session} {name : String} {c : Context}
    (hc : s.contexts.get? name = some c) : s.withWork name ⟨s.process, c⟩ = s :=
  withWork_context hc s.process

end Session

/-- The commands that carry types across or run support modules, and do nothing else. -/
def Command.isTyping : {α : Type} → Command α → Bool
  | _, resolveCType _ _ _ => true
  | _, mapScalar _ _ _ => true
  | _, deriveRecord _ _ _ => true
  | _, functionType _ _ _ => true
  | _, typeOf _ _ _ => true
  | _, provide _ _ => true
  | _, ensure _ _ => true
  | _, _ => false

namespace SessionM

variable {α β : Type}

/-! ## The parts of an operation -/

lemma run_bind (m : SessionM α) (f : α → SessionM β) (s : Session) :
    (m >>= f).run.run s = match m.run.run s with
      | (.ok a, s') => (f a).run.run s'
      | (.error e, s') => (.error e, s') := by
  simp only [ExceptT.run_bind, StateT.run_bind]
  show (match m.run.run s with | (r, s') => _ ) = _
  rcases m.run.run s with ⟨r | a, s'⟩
  · rfl
  · rfl

lemma run_bind_ok {m : SessionM α} {f : α → SessionM β} {s s' : Session} {a : α}
    (h : m.run.run s = (.ok a, s')) : (m >>= f).run.run s = (f a).run.run s' := by
  rw [run_bind, h]

lemma run_bind_error {m : SessionM α} {f : α → SessionM β} {s s' : Session} {e : Failure}
    (h : m.run.run s = (.error e, s')) : (m >>= f).run.run s = (.error e, s') := by
  rw [run_bind, h]

lemma run_get (s : Session) : (get : SessionM Session).run.run s = (.ok s, s) := rfl

lemma run_set (s s' : Session) : (set s' : SessionM PUnit).run.run s = (.ok (), s') := rfl

lemma run_modify (f : Session → Session) (s : Session) :
    (modify f : SessionM PUnit).run.run s = (.ok (), f s) := rfl

lemma run_lookup (kind : String) (table : Session → Table String α) (name : String)
    (s : Session) :
    (lookup kind table name).run.run s = match (table s).get? name with
      | some a => (.ok a, s)
      | none => (.error (.unknown kind name), s) := by
  simp only [lookup, run_bind, run_get]
  cases (table s).get? name with
  | some a => rfl
  | none => rfl

lemma run_lookup_some {kind : String} {table : Session → Table String α} {name : String}
    {s : Session} {a : α} (h : (table s).get? name = some a) :
    (lookup kind table name).run.run s = (.ok a, s) := by
  rw [run_lookup, h]

lemma run_lookup_none {kind : String} {table : Session → Table String α} {name : String}
    {s : Session} (h : (table s).get? name = none) :
    (lookup kind table name).run.run s = (.error (.unknown kind name), s) := by
  rw [run_lookup, h]

lemma run_inProcess (f : Process → Process × α) (s : Session) :
    (inProcess f).run.run s = (.ok (f s.process).2, { s with process := (f s.process).1 }) := rfl

lemma run_result (r : Except Error α) (s : Session) :
    (result r).run.run s = (r.mapError .cause, s) := by
  cases r with
  | ok a => rfl
  | error e => rfl

lemma run_inContext (name : String) (f : Workspace → Workspace × Except Error α) (s : Session) :
    (inContext name f).run.run s = match s.contexts.get? name with
      | some c =>
        ((f ⟨s.process, c⟩).2.mapError .cause, s.withWork name (f ⟨s.process, c⟩).1)
      | none => (.error (.unknown "context" name), s) := by
  simp only [inContext, contextNamed, run_bind, run_lookup]
  cases s.contexts.get? name with
  | none => rfl
  | some c => simp only [run_get, run_set, run_result, Session.withWork]

lemma run_inContext_ok {name : String} {f : Workspace → Workspace × Except Error α} {s : Session}
    {c : Context} {w : Workspace} {a : α} (hc : s.contexts.get? name = some c)
    (hf : f ⟨s.process, c⟩ = (w, .ok a)) :
    (inContext name f).run.run s = (.ok a, s.withWork name w) := by
  rw [run_inContext, hc]
  simp only [hf, Except.mapError]

lemma run_inContext_error {name : String} {f : Workspace → Workspace × Except Error α}
    {s : Session} {c : Context} {w : Workspace} {e : Error} (hc : s.contexts.get? name = some c)
    (hf : f ⟨s.process, c⟩ = (w, .error e)) :
    (inContext name f).run.run s = (.error (.cause e), s.withWork name w) := by
  rw [run_inContext, hc]
  simp only [hf, Except.mapError]

lemma run_inContext_none {name : String} {f : Workspace → Workspace × Except Error α}
    {s : Session} (hc : s.contexts.get? name = none) :
    (inContext name f).run.run s = (.error (.unknown "context" name), s) := by
  rw [run_inContext, hc]

lemma run_heldRegion_some {region : HeldRegion} {s : Session} {r : Region}
    (h : s.region? region = some r) : (heldRegion region).run.run s = (.ok r, s) := by
  cases region with
  | lent loan =>
      obtain ⟨l, hl, rfl⟩ := Option.map_eq_some_iff.mp h
      exact run_bind_ok (run_lookup_some hl)
  | kept name => exact run_lookup_some h

lemma run_heldRegion_none {region : HeldRegion} {s : Session} (h : s.region? region = none) :
    ∃ kind key, (heldRegion region).run.run s = (.error (.unknown kind key), s) := by
  cases region with
  | lent loan => exact ⟨_, _, run_bind_error (run_lookup_none (Option.map_eq_none_iff.mp h))⟩
  | kept name => exact ⟨_, _, run_lookup_none h⟩

/-! ## What every part of an operation keeps -/

/-- The operation leads from every session to one in the relation `R` to it. -/
def Within (R : Session → Session → Prop) (m : SessionM α) : Prop := ∀ s, R s (m.run.run s).2

section

variable {R : Session → Session → Prop}

lemma within_bind [IsTrans Session R] {m : SessionM α} {f : α → SessionM β} (hm : Within R m)
    (hf : ∀ a, Within R (f a)) : Within R (m >>= f) := by
  intro s
  have hs := hm s
  rw [run_bind]
  generalize m.run.run s = answer at hs
  obtain ⟨r | a, s'⟩ := answer
  · exact hs
  · exact IsTrans.trans _ _ _ hs (hf a s')

lemma within_modify {f : Session → Session} (hf : ∀ s, R s (f s)) :
    Within R (modify f : SessionM PUnit) := hf

lemma within_inProcess {f : Process → Process × α}
    (hf : ∀ s : Session, R s { s with process := (f s.process).1 }) : Within R (inProcess f) := hf

variable [Std.Refl R]

lemma within_pure (a : α) : Within R (pure a) := fun s => Std.Refl.refl s

lemma within_lookup (kind : String) (table : Session → Table String α) (name : String) :
    Within R (lookup kind table name) := by
  intro s
  rw [run_lookup]
  cases (table s).get? name with
  | some a => exact Std.Refl.refl s
  | none => exact Std.Refl.refl s

lemma within_heldRegion (region : HeldRegion) : Within R (heldRegion region) := by
  intro s
  cases hr : s.region? region with
  | some r =>
      rw [run_heldRegion_some hr]
      exact Std.Refl.refl s
  | none =>
      obtain ⟨kind, key, he⟩ := run_heldRegion_none hr
      rw [he]
      exact Std.Refl.refl s

lemma within_inContext {name : String} {f : Workspace → Workspace × Except Error α}
    (hf : ∀ s c, s.contexts.get? name = some c → R s (s.withWork name (f ⟨s.process, c⟩).1)) :
    Within R (inContext name f) := by
  intro s
  rw [run_inContext]
  cases hc : s.contexts.get? name with
  | none => exact Std.Refl.refl s
  | some c => exact hf s c hc

lemma within_readContext {name : String} {f : Workspace → Except Error α} :
    Within R (readContext name f) := by
  refine within_inContext fun s c hc => ?_
  rw [Session.withWork_self hc]
  exact Std.Refl.refl s

/-- A type goes under a name, if one is given, and is the answer. -/
lemma within_named [IsTrans Session R] (ht : ∀ (s : Session) types, R s { s with types })
    (name : Option String) (t : ValueType) :
    Within R (do nameType name t; return t : SessionM ValueType) := by
  refine within_bind ?_ fun _ => within_pure t
  cases name with
  | some name => exact within_modify fun s => ht s _
  | none => exact within_pure ()

/-! ## Commands that only type -/

/-- The relation does not see what is known of types. -/
structure Overlooks (R : Session → Session → Prop) : Prop where
  types : ∀ (s : Session) types, R s { s with types }
  work : ∀ {s : Session} {name : String} {c : Context}, s.contexts.get? name = some c →
    ∀ {w : Workspace}, Workspace.Spares ⟨s.process, c⟩ w → R s (s.withWork name w)

lemma Overlooks.inContext (hR : Overlooks R) {name : String}
    {f : Workspace → Workspace × Except Error α} (hf : ∀ w : Workspace, w.Spares (f w).1) :
    Within R (inContext name f) :=
  within_inContext fun _ _ hc => hR.work hc (hf _)

/-- Carrying types across and running support modules is not seen by such a relation. -/
theorem Overlooks.within [IsTrans Session R] (hR : Overlooks R) {c : Command α}
    (hc : c.isTyping = true) : Within R c.perform := by
  cases c with
  | resolveCType context t name =>
      exact within_bind within_readContext fun v => within_named hR.types name v
  | mapScalar context scalar t =>
      show Within R (SessionM.mapScalar context scalar t)
      exact hR.inContext fun w => w.spares_mapScalar scalar t
  | deriveRecord context struct name =>
      refine within_bind (within_lookup _ _ _) fun id => ?_
      refine within_bind (hR.inContext ?_) (within_named hR.types name)
      exact fun w => w.spares_deriveRecord id
  | functionType context function name =>
      refine within_bind (within_lookup _ _ _) fun f => ?_
      refine within_bind (hR.inContext ?_) (within_named hR.types name)
      exact fun w => w.spares_functionType f
  | typeOf context object name =>
      refine within_bind (within_lookup _ _ _) fun o => ?_
      refine within_bind (hR.inContext ?_) (within_named hR.types name)
      exact fun w => w.spares_typeOf o
  | provide context module =>
      refine within_bind (within_lookup _ _ _) fun m => ?_
      exact hR.inContext fun w => w.spares_provideModule m
  | ensure context path =>
      show Within R (SessionM.ensure context path)
      exact hR.inContext fun w => w.spares_ensure path
  | _ => exact absurd hc (by simp [Command.isTyping])

end

end SessionM

end ForeignTypes
