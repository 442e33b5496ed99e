import ForeignTypes.Proofs.Coverage
import ForeignTypes.Proofs.Failures
import ForeignTypes.Proofs.Stability

/-!
# Bytes that become objects

A region of native code is never pending: no object was lent as it.  Boxing it at a record makes a
new object of the record's class, which the context looks up by identity; the record itself may
come from another context, or from another time.  The bytes have to cover the record and the class,
and no error may be outstanding when the object is there.

* `Session.Receives` — a new object came, and its handle goes under a name.
* `Session.Runs.receives` — an object that was constructed is received.
* **`Session.Runs.owned_boxed`** — boxing a region of native code, from end to end.
-/

namespace ForeignTypes

/-! ## In a context -/

namespace Workspace

variable {w : Workspace} {t : ValueType} {id : TypeId} {record : RecordType} {struct : StructId}
  {bytes : List UInt8}

/-- A region that the ledger does not know is taken by its bytes. -/
lemma box_of_owned {r : Region} (hpeek : w.context.ledger.peek w.process.heap.isAlive r.id = none)
    (hr : r.storage = .owned bytes) (hrecord : w.process.types.record? id = some record) :
    w.box (.record id) r = w.boxOwned record (.record id) bytes := by
  rw [box.eq_def, hpeek]
  simp only [hr, hrecord]

/-- The context does not hear of bytes that are boxed. -/
lemma context_boxOwned (w : Workspace) (record : RecordType) (t : ValueType) (bytes : List UInt8) :
    (w.boxOwned record t bytes).1.context = w.context := by
  have howned := w.boxesOwned record t bytes
  generalize w.boxOwned record t bytes = answer at howned ⊢
  cases howned with
  | unknown | shortOfRecord | shortOfClass | givenUp | made => rfl

/-- The class of a record that the context has is looked up under its own identity. -/
lemma EntriesFit.structOf?_eq (h : w.EntriesFit) (ht : w.context.records.get? struct = some t) :
    w.context.records.structOf? struct = some struct := by
  obtain ⟨e, he, -⟩ := Option.map_eq_some_iff.mp ht
  rw [RecordCache.structOf?, he, Option.map_some, (h struct e he).struct]

lemma structOf?_eq_none (h : w.context.records.get? struct = none) :
    w.context.records.structOf? struct = none := by
  rw [RecordCache.structOf?, Option.map_eq_none_iff.mp h]
  rfl

/-- The type of an object is the record that the context has, if its support is there. -/
lemma typeOf_of_isReady {o : ObjectId} {x : ForeignObject}
    (ho : w.process.heap.object? o = some x) (hx : x.type = .struct struct)
    (hready : w.context.support.isReady (familyOf x.module) = true)
    (ht : w.context.records.get? struct = some t) : (w.typeOf o).2 = .ok t := by
  rw [typeOf, ho]
  simp only [ensure_of_isReady hready, hx]
  exact deriveRecord_of_get? ht

end Workspace

/-! ## After every run -/

namespace Session

variable {s s' : Session} {history : List Performed} {context : String} {c : Context}
  {region : HeldRegion} {r : Region} {id : TypeId} {record : RecordType} {bytes : List UInt8}

/-- Boxing bytes of native code changes no context. -/
lemma contexts_box_of_owned {t : ValueType} (hc : s.contexts.get? context = some c)
    (hr : s.region? region = some r)
    (hbox : Workspace.box ⟨s.process, c⟩ t r = Workspace.boxOwned ⟨s.process, c⟩ record t bytes)
    (name : String) : (s.perform (.box context name t region)).2.contexts = s.contexts := by
  have hcontext := Workspace.context_boxOwned ⟨s.process, c⟩ record t bytes
  rcases hanswer : Workspace.boxOwned ⟨s.process, c⟩ record t bytes with ⟨⟨process, c'⟩, e | o⟩
  · rw [hanswer] at hbox hcontext
    obtain rfl : c' = c := hcontext
    rw [perform_box_error hc hr hbox, withWork_context hc]
  · rw [hanswer] at hbox hcontext
    obtain rfl : c' = c := hcontext
    rw [perform_box_ok hc hr hbox, contexts_withObject, withWork_context hc]

/-- The session `s` goes into `s'` when the new object `o` comes, which is `x`: its one handle goes
under the name, and the foreign runtime has constructed one more. -/
structure Receives (s s' : Session) (name : String) (o : ObjectId) (x : ForeignObject) : Prop where
  isNew : s.process.heap.object? o = none
  handle : ∀ name', s'.objects.get? name' = some o ↔ name' = name
  object : s'.process.heap.object? o = some x
  contexts : s'.contexts = s.contexts
  foreign : s'.process.foreign
    = { s.process.foreign with constructed := s.process.foreign.constructed + 1 }

/-- No handle is to an object that was not made yet. -/
lemma Runs.handle_ne_nextId (hruns : start.Runs history s) {name : String} {o : ObjectId}
    (ho : s.objects.get? name = some o) : o ≠ s.process.heap.nextId := by
  have halive := hruns.sound.balanced.isAlive (Table.mem_values_of_get? ho)
  exact Heap.ne_nextId (Heap.index_lt_of_isAlive halive)

/-- Letting the handle that had the name go changes no other object. -/
lemma object?_withObject {name : String} {o : ObjectId} (hne : s.objects.get? name ≠ some o)
    (o' : ObjectId) :
    (s.withObject name o').process.heap.object? o = s.process.heap.object? o := by
  rw [withObject]
  cases hold : s.objects.get? name with
  | none => rfl
  | some old =>
      have hother : old ≠ o := fun heq => hne (heq ▸ hold)
      exact Heap.object?_release_of_ne _ hother

lemma Runs.receives (hruns : start.Runs history s) (struct : StructId) (bytes : List UInt8)
    (name : String) :
    s.Receives ({ s with process := s.process.afterConstruct struct bytes }.withObject name
      s.process.heap.nextId) name s.process.heap.nextId
      ⟨.struct struct, s.process.moduleOf struct, bytes, 1⟩ := by
  obtain ⟨hsane, -⟩ := hruns.growsClasses sane_start
  have hmodule := (Process.undisturbed_sizeOf hsane struct).moduleOf struct
  have hobject := s.process.heap.object?_alloc_nextId (.struct struct)
    ((s.process.sizeOf struct).1.moduleOf struct) bytes
  rw [← hmodule]
  have hfresh : ∀ name', s.objects.get? name' ≠ some s.process.heap.nextId :=
    fun name' ho => hruns.handle_ne_nextId ho rfl
  refine ⟨by simp [Heap.object?, Heap.nextId], fun name' => ?_, ?_, ?_, ?_⟩
  · rw [objects_withObject, Table.get?_put]
    split
    · next heq => simp [heq]
    · next hne => simp [hfresh, Ne.symm hne]
  · have hsame := object?_withObject
      (s := { s with process := s.process.afterConstruct struct bytes }) (hfresh name)
    exact (hsame _).trans hobject
  · exact contexts_withObject _ _ _
  · exact foreign_withObject _ _ _

/-- An object that was received is of the type of the record, if the context has it and its support
is there. -/
lemma Receives.typeOf {name : String} {o : ObjectId} {struct : StructId} {module : String}
    {t : ValueType} (h : s.Receives s' name o ⟨.struct struct, module, bytes, 1⟩)
    (hc : s.contexts.get? context = some c) (ht : c.records.get? struct = some t)
    (hready : c.support.isReady (familyOf module) = true) :
    (s'.perform (.typeOf context name none)).1 = .ok t := by
  have hc' : s'.contexts.get? context = some c := by rw [h.contexts, hc]
  rw [perform_typeOf ((h.handle name).mpr rfl) hc', answer_typed]
  exact Workspace.typeOf_of_isReady h.object rfl hready ht

/-- **Bytes that become an object.**  After every run, let `r` be a region of native code that
somebody holds, and let it be boxed at a record, in a context that is there.

* No ledger has an entry for the region, and boxing it changes none.
* If the context has no record for the class, the type is refused, and nothing changes.
* Otherwise, if there are too few bytes for the record, or for the class, then no object is made.
* Otherwise, if an error is outstanding, boxing fails with it.
* Otherwise the answer is a new object of the class, which has the bytes and one reference.  If the
  context has this very record, and the support of the class is there, then it is the type of the
  object. -/
theorem Runs.owned_boxed (hruns : start.Runs history s) (hc : s.contexts.get? context = some c)
    (hr : s.region? region = some r) (howned : r.storage = .owned bytes)
    (hrecord : s.process.types.record? id = some record) (name : String) :
    (∀ name' c', s.contexts.get? name' = some c' → c'.ledger.entries.get? r.id = none) ∧
    (s.perform (.box context name (.record id) region)).2.contexts = s.contexts ∧
    (c.records.get? record.struct = none →
      s.perform (.box context name (.record id) region)
        = (.error (.cause (.unsupportedValueType (s.process.types.textOf (.record id)))), s)) ∧
    ∀ t, c.records.get? record.struct = some t →
      (bytes.length < record.layout.size →
        s.perform (.box context name (.record id) region) = (.error (.cause
          (.bufferTooSmall record.name record.layout.size bytes.length)), s)) ∧
      (record.layout.size ≤ bytes.length →
        ∀ n, (s.process.sizeOf record.struct).2 = some n → bytes.length < n →
        ∃ process, s.perform (.box context name (.record id) region) = (.error (.cause
            (.bufferTooSmall (s.process.structs.nameOf record.struct) n bytes.length)),
            { s with process }) ∧
          s.process.Undisturbed process ∧ process.heap = s.process.heap ∧
          process.foreign = s.process.foreign) ∧
      (record.layout.size ≤ bytes.length →
        (∀ n, (s.process.sizeOf record.struct).2 = some n → n ≤ bytes.length) →
        (∀ message, s.process.foreign.outstanding = some message →
          ∃ process, s.perform (.box context name (.record id) region)
              = (.error (.cause (.fault message)), { s with process }) ∧
            s.process.Undisturbed process ∧
            process.foreign = ⟨none, s.process.foreign.constructed + 1⟩) ∧
        (s.process.foreign.outstanding = none →
          ∃ o, (s.perform (.box context name (.record id) region)).1 = .ok o ∧
            s.Receives (s.perform (.box context name (.record id) region)).2 name o
              ⟨.struct record.struct, s.process.moduleOf record.struct, bytes, 1⟩ ∧
            (t = .record id →
              c.support.isReady (familyOf (s.process.moduleOf record.struct)) = true →
              ((s.perform (.box context name (.record id) region)).2.perform
                (.typeOf context name none)).1 = .ok (.record id)))) := by
  obtain ⟨hsane, -⟩ := hruns.growsClasses sane_start
  obtain ⟨-, hfit⟩ := hruns.records hc
  have hnative := Region.isAliased_eq_false howned
  have hbox : Workspace.box ⟨s.process, c⟩ (.record id) r
      = Workspace.boxOwned ⟨s.process, c⟩ record (.record id) bytes :=
    Workspace.box_of_owned (hruns.peek_eq_none hc hr hnative) howned hrecord
  refine ⟨fun name' c' hc' => hruns.entry_eq_none hc' hr hnative, ?_, ?_, ?_⟩
  · exact contexts_box_of_owned hc hr hbox name
  · intro hnone
    rw [Workspace.boxOwned_of_unknown (Workspace.structOf?_eq_none hnone)] at hbox
    rw [perform_box_error hc hr hbox, withWork_self hc]
  · intro t ht
    have hstruct := hfit.structOf?_eq ht
    refine ⟨fun hlt => ?_, fun hle n hn hlt => ?_, fun hle hn => ⟨fun message hmessage => ?_,
      fun hnone => ?_⟩⟩
    · rw [Workspace.boxOwned_of_lt_record hstruct hlt] at hbox
      rw [perform_box_error hc hr hbox, withWork_self hc]
    · have hsame := Process.undisturbed_sizeOf hsane record.struct
      rw [Workspace.boxOwned_of_lt_class hstruct hle hn hlt, hsame.nameOf] at hbox
      rw [perform_box_error hc hr hbox, withWork_context hc]
      exact ⟨_, rfl, hsame, rfl, rfl⟩
    · rw [Workspace.boxOwned_of_outstanding hstruct hle hn hmessage] at hbox
      rw [perform_box_error hc hr hbox, withWork_context hc]
      exact ⟨_, rfl, Process.undisturbed_afterGivingUp hsane record.struct bytes, rfl⟩
    · rw [Workspace.boxOwned_of_none hstruct hle hn hnone] at hbox
      rw [perform_box_ok hc hr hbox, withWork_context hc]
      have hreceives := hruns.receives record.struct bytes name
      refine ⟨s.process.heap.nextId, rfl, hreceives, fun hcached hready => ?_⟩
      exact hreceives.typeOf hc (hcached ▸ ht) hready

/-- The session in which a class has its record and its support, and native code made bytes. -/
def ownedPoint : Session :=
  ((((start.perform (.declareStruct "P"
    ⟨"Point", "native.records", none, some [⟨"x", .scalar .int32, none⟩]⟩)).2.perform
    (.deriveRecord "main" "P" none)).2.perform (.ensure "main" "native.records")).2.perform
    (.makeOwned "b" [1, 0, 0, 0, 9])).2

/-- The bytes become an object of the record's type; there is one more of them than it needs. -/
theorem owned_boxed_ownedPoint :
    ∃ o, (ownedPoint.perform (.box "main" "w" (.record ⟨0⟩) (.kept "b"))).1 = .ok o ∧
      ownedPoint.Receives (ownedPoint.perform (.box "main" "w" (.record ⟨0⟩) (.kept "b"))).2 "w" o
        ⟨.struct ⟨0⟩, "native.records", [1, 0, 0, 0, 9], 1⟩ ∧
      ((ownedPoint.perform (.box "main" "w" (.record ⟨0⟩) (.kept "b"))).2.perform
        (.typeOf "main" "w" none)).1 = .ok (.record ⟨0⟩) := by
  have hruns := ((((Runs.nil (s := start)).cons (.declareStruct "P"
    ⟨"Point", "native.records", none, some [⟨"x", .scalar .int32, none⟩]⟩)).cons
    (.deriveRecord "main" "P" none)).cons (.ensure "main" "native.records")).cons
    (.makeOwned "b" [1, 0, 0, 0, 9])
  have hcontext : (ownedPoint.contexts.get? "main").map (fun c =>
      (c.records.get? ⟨0⟩, c.support.isReady (familyOf "native.records")))
      = some (some (.record ⟨0⟩), true) := by
    decide +kernel
  obtain ⟨c, hc, hknown⟩ := Option.map_eq_some_iff.mp hcontext
  obtain ⟨ht, hready⟩ := Prod.mk.inj hknown
  have hr : ownedPoint.region? (.kept "b") = some ⟨⟨0⟩, .owned [1, 0, 0, 0, 9]⟩ := by
    decide +kernel
  have hrecord : ownedPoint.process.types.record? ⟨0⟩
      = some (.ofFields .words {} ⟨0⟩ "Point" [⟨"x", .int true .w32⟩] none) := by
    decide +kernel
  have hmodule : ownedPoint.process.moduleOf ⟨0⟩ = "native.records" := by
    decide +kernel
  have hsize : (ownedPoint.process.sizeOf ⟨0⟩).2 = some 4 := by
    decide +kernel
  obtain ⟨-, -, -, hboxed⟩ := hruns.owned_boxed hc hr rfl hrecord "w"
  obtain ⟨-, -, hcovered⟩ := hboxed _ ht
  obtain ⟨-, hmade⟩ := hcovered (by decide) fun n hn => by
    obtain rfl := Option.some.inj (hsize.symm.trans hn)
    decide
  obtain ⟨o, ho, hreceives, htype⟩ := hmade (by decide +kernel)
  rw [← hmodule] at hready ⊢
  exact ⟨o, ho, hreceives, htype rfl hready⟩

end Session

end ForeignTypes
