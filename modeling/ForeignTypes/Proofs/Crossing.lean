import ForeignTypes.Proofs.RoundTrip

/-!
# What goes across

Objects go across as records and as foreign values.  At any other type nothing is lent, and a region
that the ledger does not know is not brought back: the type is refused, and nothing changes.  Where
the ledger knows the region, boxing looks at the type only if it is a record, so a region that was
lent comes back at types at which it could not have been lent.

* `Workspace.unbox_of_not_composite`, `box_of_unknown`, `box_of_known` — the two operations at such a
  type.
* **`Session.Runs.only_composites_cross`** — the same after any run.
* **`Session.not_box_refused`** — a region that comes back at an integer type.
-/

namespace ForeignTypes

/-! ## In a context -/

namespace Workspace

variable {w : Workspace} {t : ValueType} {r : Region} {o : ObjectId}

lemma recordOf?_of_not_composite (types : TypeStore) (ht : t.isComposite = false) :
    types.recordOf? t = none := by
  cases t with
  | record id => exact absurd ht (by simp [ValueType.isComposite])
  | _ => rfl

/-- No object is lent at a type that is neither a record nor that of foreign values. -/
lemma unbox_of_not_composite (ht : t.isComposite = false) (o : ObjectId) (address : Address) :
    w.unbox t o address = .error (.unsupportedValueType (w.process.types.textOf t)) := by
  rw [unbox]
  cases w.process.heap.object? o with
  | none => rfl
  | some x =>
      have hclass : w.checkClass t x = .error (.unsupportedValueType (w.process.types.textOf t)) := by
        cases t with
        | record | foreign => exact absurd ht (by simp [ValueType.isComposite])
        | _ => rfl
      simp only [hclass]

/-- Nor does a region come back that the ledger does not know. -/
lemma box_of_unknown (ht : t.isComposite = false)
    (ho : w.context.ledger.peek w.process.heap.isAlive r.id = none) :
    w.box t r = (w, .error (.unsupportedValueType (w.process.types.textOf t))) := by
  rw [box.eq_def, ho]
  cases t with
  | record | foreign => exact absurd ht (by simp [ValueType.isComposite])
  | _ => rfl

/-- A region that the ledger knows comes back, since the type says nothing of a class. -/
lemma box_of_known (ht : t.isComposite = false)
    (ho : w.context.ledger.peek w.process.heap.isAlive r.id = some o) :
    w.box t r = (⟨{ w.process with heap := w.process.heap.retain o },
      { w.context with ledger := w.context.ledger.redeem r.id }⟩, .ok o) := by
  have hnone : w.mismatch? t o = none := by
    rw [mismatch?, recordOf?_of_not_composite w.process.types ht]
    rfl
  rw [box.eq_def, ho]
  simp only [hnone]

end Workspace

/-! ## After any run -/

namespace Session

variable {s : Session} {history : List Performed} {context : String} {c : Context}
  {region : HeldRegion} {r : Region} {o : ObjectId} {t : ValueType}

/-- A region that is not pending is refused at such a type. -/
lemma Runs.box_refused (hruns : start.Runs history s) (hc : s.contexts.get? context = some c)
    (hr : s.region? region = some r) (ht : t.isComposite = false) (name : String)
    (hnot : ∀ o, ¬s.Pending (logOf history) c.id r o) :
    s.perform (.box context name t region)
      = (.error (.cause (.unsupportedValueType (s.process.types.textOf t))), s) := by
  have hpeek : c.ledger.peek s.process.heap.isAlive r.id = none := by
    refine Option.eq_none_iff_forall_ne_some.mpr fun o ho => ?_
    exact hnot o ((hruns.peek_iff_pending hc hr).mp ho)
  have hbox : Workspace.box ⟨s.process, c⟩ t r
      = (⟨s.process, c⟩, .error (.unsupportedValueType (s.process.types.textOf t))) :=
    Workspace.box_of_unknown ht hpeek
  rw [perform_box_error hc hr hbox, withWork_self hc]

/-- A pending region comes back at such a type. -/
lemma Runs.box_accepted (hruns : start.Runs history s) (hc : s.contexts.get? context = some c)
    (hr : s.region? region = some r) (ht : t.isComposite = false) (name : String)
    (hpending : s.Pending (logOf history) c.id r o) :
    (s.perform (.box context name t region)).1 = .ok o := by
  have ho := (hruns.peek_iff_pending hc hr).mpr hpending
  rw [perform_box_ok hc hr (Workspace.box_of_known ht ho)]

/-- **Only records and foreign values go across**, but for the regions that are pending.  After every
run, at a type that is neither a record nor that of foreign values,

* no object is lent: the error names the type, and nothing changes;
* a region that somebody holds is refused likewise exactly if it is not pending in the context;
* a region that is pending there comes back as the object that was lent. -/
theorem Runs.only_composites_cross (hruns : start.Runs history s)
    (hc : s.contexts.get? context = some c) (ht : t.isComposite = false) (name : String) :
    (∀ object o address, s.objects.get? object = some o →
      s.perform (.unbox context name t object address)
        = (.error (.cause (.unsupportedValueType (s.process.types.textOf t))), s)) ∧
    (∀ region r, s.region? region = some r →
      (s.perform (.box context name t region)
          = (.error (.cause (.unsupportedValueType (s.process.types.textOf t))), s) ↔
        ∀ o, ¬s.Pending (logOf history) c.id r o)) ∧
    ∀ region r o, s.region? region = some r → s.Pending (logOf history) c.id r o →
      (s.perform (.box context name t region)).1 = .ok o := by
  refine ⟨fun object o address ho => ?_, fun region r hr => ⟨fun hrefused o hpending => ?_, ?_⟩,
    fun region r o hr => hruns.box_accepted hc hr ht name⟩
  · exact perform_unbox_error hc ho (Workspace.unbox_of_not_composite ht o _)
  · have haccepted := hruns.box_accepted hc hr ht name hpending
    rw [hrefused] at haccepted
    exact absurd haccepted (by simp)
  · exact hruns.box_refused hc hr ht name

/-- The session in which the one object that was lent came back. -/
def boxedOne : Session := (lentOne.perform (.box "main" "w" .foreign (.lent "x"))).2

/-- After its round trip the region is refused at an integer type. -/
theorem only_composites_cross_boxedOne :
    boxedOne.perform (.box "main" "u" (.int true .w32) (.lent "x"))
      = (.error (.cause (.unsupportedValueType "int32")), boxedOne) := by
  have hruns := runs_lentOne.cons (.box "main" "w" .foreign (.lent "x"))
  obtain ⟨c, hc, hnone⟩ : ∃ c, boxedOne.contexts.get? "main" = some c ∧
      c.ledger.peek boxedOne.process.heap.isAlive ⟨0⟩ = none := ⟨_, rfl, rfl⟩
  obtain ⟨r, hr, hid⟩ : ∃ r, boxedOne.region? (.lent "x") = some r ∧ r.id = ⟨0⟩ := ⟨_, rfl, rfl⟩
  refine ((hruns.only_composites_cross hc rfl "u").2.1 (.lent "x") r hr).mpr fun o hpending => ?_
  have ho := (hruns.peek_iff_pending hc hr).mpr hpending
  rw [hid] at ho
  exact absurd (hnone.symm.trans ho) (by simp)

/-- A region that is pending is not refused: the one object that was lent comes back at an integer
type. -/
theorem not_box_refused :
    ¬∀ history s context c name t region r, start.Runs history s →
      s.contexts.get? context = some c → s.region? region = some r → t.isComposite = false →
      s.perform (.box context name t region)
        = (.error (.cause (.unsupportedValueType (s.process.types.textOf t))), s) := by
  intro hall
  obtain ⟨c, hc, ho⟩ : ∃ c, lentOne.contexts.get? "main" = some c ∧
      c.ledger.peek lentOne.process.heap.isAlive ⟨0⟩ = some ⟨0⟩ := ⟨_, rfl, rfl⟩
  obtain ⟨r, hr, hid⟩ : ∃ r, lentOne.region? (.lent "x") = some r ∧ r.id = ⟨0⟩ := ⟨_, rfl, rfl⟩
  have hpending := (runs_lentOne.peek_iff_pending hc hr).mp (hid ▸ ho)
  have ht : (ValueType.int true .w32).isComposite = false := rfl
  have haccepted := runs_lentOne.box_accepted hc hr ht "u" hpending
  rw [hall _ _ _ _ "u" _ _ _ runs_lentOne hc hr ht] at haccepted
  exact absurd haccepted (by simp)

end Session

end ForeignTypes
