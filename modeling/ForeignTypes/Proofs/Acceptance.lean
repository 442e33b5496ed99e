import ForeignTypes.Proofs.Normal
import ForeignTypes.Proofs.Stability

/-!
# Classes that have a record

Whether the record of a class can be derived is decided by the declaration of the class and the
scalars that are mapped at the moment: the class is complete, and each of its fields is layers of
pointer around a scalar that is mapped, without a width in bits.  Otherwise the first field that is
not gives the error.  No other class is looked into, so that a class that leads back to itself is
refused however long the way, and nothing is kept of an attempt that failed.

* `FieldDecl.Crosses`, `FieldDecl.Refused` — what becomes of a field.
* **`FieldDecl.derive_eq_error_iff`** — a field that is refused, and why.
* `StructTable.Refuses`, `StructTable.Refers` — why a class has no record, and the classes it leads
  to.
* **`RecordCache.derive_eq_error_iff`** — a class that is refused, and why.
* `Workspace.Decided`, **`Workspace.decided_of_new`** — one attempt.
* **`Session.derivations_decided`** — every attempt is decided by the same rule.
-/

namespace ForeignTypes

variable {m : ScalarMap} {structs structs' : StructTable} {self id : StructId} {e : Error}

/-! ## Fields -/

namespace FieldDecl

variable {f : FieldDecl} {field : RecordField}

/-- The field goes across: it is layers of pointer around a scalar that is mapped, without a width
in bits, and keeps its name and its layers. -/
structure Crosses (m : ScalarMap) (f : FieldDecl) (field : RecordField) : Prop where
  whole : f.bits = none
  scalar : ∃ s v, f.type.peel = .scalar s ∧ m.toValueType? s = some v ∧
    field = ⟨f.name, .pointers f.type.depth v⟩

/-- Why a field of the class `self` does not go across.  The first of these reasons counts. -/
inductive Refused (structs : StructTable) (m : ScalarMap) (self : StructId) (f : FieldDecl) :
    Error → Prop
  | bits {n : Nat} (h : f.bits = some n) :
    Refused structs m self f (.bitField (structs.nameOf self) f.name n)
  /-- Under its layers of pointer is the class itself. -/
  | recursive (hbits : f.bits = none) (h : f.type.peel = .struct self) :
    Refused structs m self f (.recursiveRecord (structs.nameOf self) f.name)
  | void (hbits : f.bits = none) (h : f.type = .void) :
    Refused structs m self f
      (.unsupportedCType ("void field '" ++ f.name ++ "' in " ++ structs.nameOf self))
  /-- There is `void` below a pointer, another struct, or a scalar that is not mapped. -/
  | unsupported (hbits : f.bits = none) (hself : f.type.peel ≠ .struct self)
    (hvoid : f.type ≠ .void) (h : ∀ s, f.type.peel = .scalar s → m.toValueType? s = none) :
    Refused structs m self f (.unsupportedCType (structs.textOf f.type))

/-- **What goes across as a field**, innermost pointee first. -/
theorem derive_eq_ok_iff_crosses : f.derive structs m self = .ok field ↔ f.Crosses m field := by
  rw [derive_eq_ok_iff]
  constructor
  · rintro ⟨hbits, -, hvoid, t, ht, rfl⟩
    rw [ScalarMap.valueTypeOf?_of_ne_void hvoid] at ht
    obtain ⟨s, v, hpeel, hv, rfl⟩ := ScalarMap.innerValueType?_eq_some_iff.mp ht
    exact ⟨hbits, s, v, hpeel, hv, rfl⟩
  · rintro ⟨hbits, s, v, hpeel, hv, rfl⟩
    have hvoid : f.type ≠ .void := by
      intro h
      rw [h] at hpeel
      exact absurd hpeel (by simp [CType.peel])
    refine ⟨hbits, by simp [hpeel], hvoid, _, ?_, rfl⟩
    rw [ScalarMap.valueTypeOf?_of_ne_void hvoid]
    exact ScalarMap.innerValueType?_eq_some_iff.mpr ⟨s, v, hpeel, hv, rfl⟩

lemma exists_crosses_iff : (∃ field, f.Crosses m field) ↔
    f.bits = none ∧ ∃ s, f.type.peel = .scalar s ∧ (m.toValueType? s).isSome = true := by
  constructor
  · rintro ⟨field, hbits, s, v, hpeel, hv, -⟩
    exact ⟨hbits, s, hpeel, by rw [hv]; rfl⟩
  · rintro ⟨hbits, s, hpeel, hs⟩
    obtain ⟨v, hv⟩ := Option.isSome_iff_exists.mp hs
    exact ⟨_, hbits, s, v, hpeel, hv, rfl⟩

/-- A field that is refused is derived to the error. -/
lemma Refused.derive (h : f.Refused structs m self e) : f.derive structs m self = .error e := by
  cases h with
  | bits h => simp [FieldDecl.derive, h]
  | recursive hbits h => simp [FieldDecl.derive, hbits, h]
  | void hbits h => simp [FieldDecl.derive, hbits, h, CType.peel]
  | unsupported hbits hself hvoid h =>
      cases hpeel : f.type.peel with
      | struct inner =>
          have hne : inner ≠ self := fun heq => hself (heq ▸ hpeel)
          simp [FieldDecl.derive, hbits, hpeel, hne]
      | pointer t => exact absurd hpeel (f.type.peel_ne_pointer t)
      | void | scalar s =>
          have hnone : m.valueTypeOf? f.type = none := by
            rw [ScalarMap.valueTypeOf?_of_ne_void hvoid, Option.eq_none_iff_forall_ne_some]
            intro t ht
            obtain ⟨s', v, hpeel', hv, -⟩ := ScalarMap.innerValueType?_eq_some_iff.mp ht
            exact absurd ((h s' hpeel').symm.trans hv) (by simp)
          simp [FieldDecl.derive, hbits, hpeel, hvoid, hnone]

/-- Each field goes across or is refused. -/
lemma crosses_or_refused (structs : StructTable) (m : ScalarMap) (self : StructId)
    (f : FieldDecl) : (∃ field, f.Crosses m field) ∨ ∃ e, f.Refused structs m self e := by
  cases hbits : f.bits with
  | some n => exact .inr ⟨_, .bits hbits⟩
  | none =>
      by_cases hself : f.type.peel = .struct self
      · exact .inr ⟨_, .recursive hbits hself⟩
      · by_cases hvoid : f.type = .void
        · exact .inr ⟨_, .void hbits hvoid⟩
        · by_cases hscalar : ∃ s v, f.type.peel = .scalar s ∧ m.toValueType? s = some v
          · obtain ⟨s, v, hpeel, hv⟩ := hscalar
            exact .inl ⟨_, hbits, s, v, hpeel, hv, rfl⟩
          · refine .inr ⟨_, .unsupported hbits hself hvoid fun s hpeel => ?_⟩
            rw [Option.eq_none_iff_forall_ne_some]
            exact fun v hv => hscalar ⟨s, v, hpeel, hv⟩

/-- **What is refused as a field, and why.** -/
theorem derive_eq_error_iff : f.derive structs m self = .error e ↔ f.Refused structs m self e := by
  refine ⟨fun hderived => ?_, Refused.derive⟩
  rcases crosses_or_refused structs m self f with ⟨field, hcrosses⟩ | ⟨e', hrefused⟩
  · exact absurd (hderived.symm.trans (derive_eq_ok_iff_crosses.mpr hcrosses)) (by simp)
  · obtain rfl := Except.error.inj (hderived.symm.trans hrefused.derive)
    exact hrefused

end FieldDecl

/-! ## Classes -/

/-- Each member of a list is related to something exactly if the list is to some list. -/
lemma exists_forall₂_iff {α β : Type} {R : α → β → Prop} {xs : List α} :
    (∃ ys, List.Forall₂ R xs ys) ↔ ∀ x ∈ xs, ∃ y, R x y := by
  induction xs with
  | nil => simp
  | cons x xs ih =>
      rw [List.forall_mem_cons, ← ih]
      constructor
      · rintro ⟨_, _ | ⟨hx, hxs⟩⟩
        exact ⟨⟨_, hx⟩, ⟨_, hxs⟩⟩
      · rintro ⟨⟨y, hx⟩, ⟨ys, hxs⟩⟩
        exact ⟨_, .cons hx hxs⟩

namespace StructTable

/-- Why a class has no record: its fields are not given, or the first of them that does not go
across is refused. -/
inductive Refuses (structs : StructTable) (m : ScalarMap) (id : StructId) : Error → Prop
  | incomplete (h : structs.fields? id = none) :
    Refuses structs m id (.unsupportedCType (structs.nameOf id ++ " (fields not declared)"))
  | field {before after : List FieldDecl} {f : FieldDecl} {e : Error}
    (hfields : structs.fields? id = some (before ++ f :: after))
    (hbefore : ∀ g ∈ before, ∃ field, g.Crosses m field) (h : f.Refused structs m id e) :
    Refuses structs m id e

/-- A field of the one class leads to the other, through any number of pointers. -/
def Refers (structs : StructTable) (id id' : StructId) : Prop :=
  ∃ fields, structs.fields? id = some fields ∧ ∃ f ∈ fields, f.type.peel = .struct id'

end StructTable

lemma FieldDecl.mapM_derive_eq_ok_iff {fields : List FieldDecl} {derived : List RecordField} :
    fields.mapM (FieldDecl.derive structs m self) = .ok derived ↔
      List.Forall₂ (FieldDecl.Crosses m) fields derived := by
  simp only [mapM_eq_ok_iff, FieldDecl.derive_eq_ok_iff_crosses]

namespace StructTable

/-- Each class has fields that go across or is refused. -/
lemma cross_or_refuses (structs : StructTable) (m : ScalarMap) (id : StructId) :
    (∃ fields derived, structs.fields? id = some fields ∧
        List.Forall₂ (FieldDecl.Crosses m) fields derived) ∨
      ∃ e, structs.Refuses m id e := by
  cases hfields : structs.fields? id with
  | none => exact .inr ⟨_, .incomplete hfields⟩
  | some fields =>
      cases hderived : fields.mapM (FieldDecl.derive structs m id) with
      | ok derived =>
          exact .inl ⟨fields, derived, rfl, FieldDecl.mapM_derive_eq_ok_iff.mp hderived⟩
      | error e =>
          obtain ⟨before, f, after, rfl, hbefore, hf⟩ := mapM_eq_error_iff.mp hderived
          simp only [FieldDecl.derive_eq_ok_iff_crosses] at hbefore
          exact .inr ⟨e, .field hfields hbefore (FieldDecl.derive_eq_error_iff.mp hf)⟩

/-- A reason looks into no other class: it is one wherever the class has the same declaration and
the others have the same names. -/
lemma Refuses.congr (h : structs.Refuses m id e) (hdecl : structs'.decl? id = structs.decl? id)
    (hnames : structs'.nameOf = structs.nameOf) : structs'.Refuses m id e := by
  have hfields : structs'.fields? id = structs.fields? id := by rw [fields?, hdecl, fields?]
  cases h with
  | incomplete h =>
      rw [← hnames]
      exact .incomplete (hfields.trans h)
  | field h hbefore hf =>
      refine .field (hfields.trans h) hbefore ?_
      cases hf with
      | bits h => exact hnames ▸ .bits h
      | recursive hbits h => exact hnames ▸ .recursive hbits h
      | void hbits h => exact hnames ▸ .void hbits h
      | unsupported hbits hself hvoid h =>
          have htext : structs.textOf = structs'.textOf := by
            funext t
            rw [textOf, textOf, hnames]
          rw [htext]
          exact .unsupported hbits hself hvoid h

/-- **A class that leads to another has no record.** -/
lemma exists_refuses_of_refers {id' : StructId} (h : structs.Refers id id') (m : ScalarMap) :
    ∃ e, structs.Refuses m id e := by
  refine (structs.cross_or_refuses m id).resolve_left ?_
  rintro ⟨fields, derived, hfields, hcross⟩
  obtain ⟨fields', hfields', f, hf, hpeel⟩ := h
  obtain rfl := Option.some.inj (hfields.symm.trans hfields')
  obtain ⟨field, -, s, v, hscalar, -⟩ := exists_forall₂_iff.mp ⟨derived, hcross⟩ f hf
  exact absurd (hpeel.symm.trans hscalar) (by simp)

end StructTable

namespace RecordCache

variable {c : RecordCache} {types : TypeStore}

/-- A class that is refused fails with that reason. -/
lemma derive_of_refuses (hnew : c.get? id = none) (h : structs.Refuses m id e) :
    c.derive structs m types id = .error e := by
  cases h with
  | incomplete h =>
      rw [derive, hnew]
      cases hd : structs.decl? id with
      | none => rfl
      | some d =>
          obtain ⟨name, module, pack, fields⟩ := d
          obtain rfl : fields = none := by simpa [StructTable.fields?, hd] using h
          rfl
  | @field before after f e hfields hbefore hf =>
      obtain ⟨⟨name, module, pack, fields⟩, hd, hdfields⟩ := StructTable.exists_decl hfields
      obtain rfl : fields = some (before ++ f :: after) := hdfields
      have hderived : (before ++ f :: after).mapM (FieldDecl.derive structs m id) = .error e := by
        refine mapM_eq_error_iff.mpr ⟨before, f, after, rfl, fun g hg => ?_, hf.derive⟩
        obtain ⟨field, hcrosses⟩ := hbefore g hg
        exact ⟨field, FieldDecl.derive_eq_ok_iff_crosses.mpr hcrosses⟩
      simp only [derive, hnew, hd, hderived]

/-- A class with fields that go across has a record. -/
lemma exists_derive_of_crosses (hnew : c.get? id = none) {fields : List FieldDecl}
    {derived : List RecordField} (hfields : structs.fields? id = some fields)
    (h : List.Forall₂ (FieldDecl.Crosses m) fields derived) (types : TypeStore) :
    ∃ answer, c.derive structs m types id = .ok answer := by
  obtain ⟨⟨name, module, pack, fields'⟩, hd, hdfields⟩ := StructTable.exists_decl hfields
  obtain rfl : fields' = some fields := hdfields
  have hderived : fields.mapM (FieldDecl.derive structs m id) = .ok derived :=
    FieldDecl.mapM_derive_eq_ok_iff.mpr h
  simp only [derive, hnew, hd, hderived]
  exact ⟨_, rfl⟩

/-- **Why asking for the record of a new class fails.** -/
theorem derive_eq_error_iff (hnew : c.get? id = none) (types : TypeStore) :
    c.derive structs m types id = .error e ↔ structs.Refuses m id e := by
  refine ⟨fun hderived => ?_, derive_of_refuses hnew⟩
  rcases structs.cross_or_refuses m id with ⟨fields, derived, hfields, hcross⟩ | ⟨e', hrefuses⟩
  · obtain ⟨answer, hanswer⟩ := exists_derive_of_crosses hnew hfields hcross types
    exact absurd (hderived.symm.trans hanswer) (by simp)
  · obtain rfl := Except.error.inj (hderived.symm.trans (derive_of_refuses hnew hrefuses))
    exact hrefuses

end RecordCache

namespace Workspace

variable {w w' : Workspace} {t : ValueType}

lemma deriveRecord_eq_error_iff (hnew : w.context.records.get? id = none) :
    (w.deriveRecord id).2 = .error e ↔ w.process.structs.Refuses w.context.scalars id e := by
  rw [← RecordCache.derive_eq_error_iff hnew w.process.types, deriveRecord]
  cases w.context.records.derive w.process.structs w.context.scalars w.process.types id with
  | error e => simp
  | ok answer => simp

/-- **The record of a new class**: it has the name and the limit of the class, and its fields in
order, each with its layers around the value type of its scalar. -/
lemma record_of_deriveRecord (hnew : w.context.records.get? id = none)
    (ht : (w.deriveRecord id).2 = .ok t) :
    ∃ r d fields, (w.deriveRecord id).1.process.types.recordOf? t = some r ∧
      w.process.structs.decl? id = some d ∧ d.fields = some fields ∧
      r.struct = id ∧ r.name = d.name ∧ r.pack = d.pack ∧
      List.Forall₂ (FieldDecl.Crosses w.context.scalars) fields r.fields := by
  rcases w.deriveRecord_cases id with ⟨e, -, h⟩ | ⟨t', ht', -⟩ | ⟨r, -, rfl, hr, h⟩
  · simp [h] at ht
  · exact absurd (hnew.symm.trans ht') (by simp)
  · rw [h] at ht ⊢
    obtain rfl := Except.ok.inj ht
    obtain ⟨d, fields, hd, hfields, hderived, heq⟩ := hr
    exact ⟨r, d, fields, w.recordOf?_withRecord r, hd, hfields, rfl, congrArg RecordType.name heq,
      congrArg RecordType.pack heq, FieldDecl.mapM_derive_eq_ok_iff.mp hderived⟩

/-- The fields of the class are given, and each is layers of pointer around a scalar that is mapped,
without a width in bits. -/
def Acceptable (w : Workspace) (id : StructId) : Prop :=
  ∃ fields, w.process.structs.fields? id = some fields ∧ ∀ f ∈ fields, f.bits = none ∧
    ∃ s, f.type.peel = .scalar s ∧ (w.context.scalars.toValueType? s).isSome = true

/-- These are the classes whose fields go across to some fields of a record. -/
lemma acceptable_iff : w.Acceptable id ↔ ∃ fields derived,
    w.process.structs.fields? id = some fields ∧
      List.Forall₂ (FieldDecl.Crosses w.context.scalars) fields derived := by
  refine exists_congr fun fields => ?_
  rw [exists_and_left, exists_forall₂_iff]
  simp only [FieldDecl.exists_crosses_iff]

lemma exists_deriveRecord_iff (hnew : w.context.records.get? id = none) :
    (∃ t, (w.deriveRecord id).2 = .ok t) ↔ w.Acceptable id := by
  constructor
  · rintro ⟨t, ht⟩
    obtain ⟨r, d, fields, -, hd, hfields, -, -, -, hcross⟩ := record_of_deriveRecord hnew ht
    refine acceptable_iff.mpr ⟨fields, r.fields, ?_, hcross⟩
    rw [StructTable.fields?, hd]
    exact hfields
  · intro h
    obtain ⟨fields, derived, hfields, hcross⟩ := acceptable_iff.mp h
    obtain ⟨answer, hanswer⟩ := RecordCache.exists_derive_of_crosses hnew hfields hcross
      w.process.types
    exact ⟨answer.2.2, by rw [deriveRecord, hanswer]⟩

/-- A failure leaves no trace. -/
lemma deriveRecord_of_error (h : (w.deriveRecord id).2 = .error e) :
    w.deriveRecord id = (w, .error e) := by
  rcases w.deriveRecord_cases id with ⟨e', -, heq⟩ | ⟨t, -, heq⟩ | ⟨r, -, -, -, heq⟩
  · rw [heq] at h ⊢
    rw [← h]
  · simp [heq] at h
  · simp [heq] at h

/-- What asking for the record of a class comes to, by a rule that knows its declaration and the
scalars that are mapped, and nothing else. -/
structure Decided (w : Workspace) (id : StructId) : Prop where
  /-- It succeeds exactly if the fields of the class are given and all of them go across. -/
  accepted : (∃ t, (w.deriveRecord id).2 = .ok t) ↔ w.Acceptable id
  /-- Then the class is kept with the answer, and no other class with another; and the record has the
  fields of the class in order, each with its layers around the value type of its scalar. -/
  described : ∀ t, (w.deriveRecord id).2 = .ok t →
    (∀ id' t', (w.deriveRecord id).1.context.records.get? id' = some t' ↔
      w.context.records.get? id' = some t' ∨ id' = id ∧ t' = t) ∧
    ∃ r d fields, (w.deriveRecord id).1.process.types.recordOf? t = some r ∧
      w.process.structs.decl? id = some d ∧ d.fields = some fields ∧
      r.struct = id ∧ r.name = d.name ∧ r.pack = d.pack ∧
      List.Forall₂ (FieldDecl.Crosses w.context.scalars) fields r.fields
  /-- Otherwise the fields are not given, or the first that does not go across is the reason. -/
  refused : ∀ e, (w.deriveRecord id).2 = .error e ↔
    w.process.structs.Refuses w.context.scalars id e
  unchanged : ∀ e, (w.deriveRecord id).2 = .error e → (w.deriveRecord id).1 = w
  /-- A class that leads back to itself, however long the way, has no record. -/
  circular : Relation.TransGen w.process.structs.Refers id id →
    ∃ e, (w.deriveRecord id).2 = .error e
  /-- No other class is looked into: their names alone are used. -/
  alone : ∀ w' : Workspace, w'.context.records.get? id = none →
    w'.context.scalars = w.context.scalars →
    w'.process.structs.decl? id = w.process.structs.decl? id →
    w'.process.structs.nameOf = w.process.structs.nameOf →
    ∀ e, (w'.deriveRecord id).2 = .error e ↔ (w.deriveRecord id).2 = .error e

/-- **Every attempt for a class that has no record yet is decided.** -/
theorem decided_of_new (hnew : w.context.records.get? id = none) : w.Decided id where
  accepted := exists_deriveRecord_iff hnew
  described := by
    intro t ht
    refine ⟨fun id' t' => ?_, record_of_deriveRecord hnew ht⟩
    rw [get?_records_deriveRecord, ht, Except.ok.injEq, eq_comm (a := t)]
  refused := fun e => deriveRecord_eq_error_iff hnew
  unchanged := fun e he => congrArg Prod.fst (deriveRecord_of_error he)
  circular := by
    intro hcircle
    obtain ⟨id', hrefers, -⟩ := Relation.TransGen.head'_iff.mp hcircle
    obtain ⟨e, hrefuses⟩ := StructTable.exists_refuses_of_refers hrefers w.context.scalars
    exact ⟨e, (deriveRecord_eq_error_iff hnew).mpr hrefuses⟩
  alone := by
    intro w' hnew' hscalars hdecl hnames e
    rw [deriveRecord_eq_error_iff hnew, deriveRecord_eq_error_iff hnew', hscalars]
    exact ⟨fun h => h.congr hdecl.symm hnames.symm, fun h => h.congr hdecl hnames⟩

/-- Two classes that lead to each other: the first is refused for its own field. -/
example :
    let structs : StructTable := { decls := [
      ⟨"A", "native.records", none, some [⟨"b", .pointer (.pointer (.struct ⟨1⟩)), none⟩]⟩,
      ⟨"B", "native.records", none, some [⟨"a", .pointer (.struct ⟨0⟩), none⟩]⟩] }
    (deriveRecord ⟨{ structs }, .new ⟨0⟩ {}⟩ ⟨0⟩).2
      = .error (.unsupportedCType "POINTER(POINTER(B))") := by
  decide

end Workspace

/-! ## Along a run -/

namespace Session

variable {s : Session} {history : List Performed} {context struct : String} {c : Context}

lemma perform_deriveRecord_ok (hc : s.contexts.get? context = some c)
    (hid : s.structs.get? struct = some id) (type : Option String) {t : ValueType} :
    (s.perform (.deriveRecord context struct type)).1 = .ok t ↔
      (Workspace.deriveRecord ⟨s.process, c⟩ id).2 = .ok t := by
  rw [perform_deriveRecord hid hc, answer_typed]

/-- A command that fails does so for the reason for which the record cannot be derived, and leaves
the session as it was. -/
lemma perform_deriveRecord_error (hc : s.contexts.get? context = some c)
    (hid : s.structs.get? struct = some id) (type : Option String) {f : Failure}
    (hf : (s.perform (.deriveRecord context struct type)).1 = .error f) :
    (∃ e, f = .cause e ∧ (Workspace.deriveRecord ⟨s.process, c⟩ id).2 = .error e) ∧
      (s.perform (.deriveRecord context struct type)).2 = s := by
  cases hderived : (Workspace.deriveRecord ⟨s.process, c⟩ id).2 with
  | ok t =>
      have hok := (perform_deriveRecord_ok hc hid type).mpr hderived
      exact absurd (hf.symm.trans hok) (by simp)
  | error e =>
      rw [perform_deriveRecord hid hc, Workspace.deriveRecord_of_error hderived] at hf ⊢
      exact ⟨⟨e, (Except.error.inj hf).symm, rfl⟩, withWork_self hc⟩

/-- **Records are derived by one rule.**

* In every workspace, for every class that has no record there yet, the declaration of the class and
  the scalars that are mapped decide what comes of asking for it.
* After a run in which every attempt for a class failed in a context, however many there were, the
  rule decides the next one by what the class and the map are then; and a command that fails leaves
  the session as it was. -/
theorem derivations_decided :
    (∀ (w : Workspace) (id : StructId), w.context.records.get? id = none → w.Decided id) ∧
    ∀ (history : List Performed) (s : Session) (context struct : String) (c : Context)
      (id : StructId) (type : Option String),
      start.Runs history s → s.contexts.get? context = some c → s.structs.get? struct = some id →
      (∀ t, ¬Typed (happeningsIn history c.id) id t) →
      ((∃ t, (s.perform (.deriveRecord context struct type)).1 = .ok t) ↔
        Workspace.Acceptable ⟨s.process, c⟩ id) ∧
      (∀ f, (s.perform (.deriveRecord context struct type)).1 = .error f →
        (∃ e, f = .cause e ∧ s.process.structs.Refuses c.scalars id e) ∧
          (s.perform (.deriveRecord context struct type)).2 = s) := by
  refine ⟨fun w id hnew => Workspace.decided_of_new hnew, ?_⟩
  intro history s context struct c id type hruns hc hid hfailed
  have hnew : c.records.get? id = none := by
    rw [Option.eq_none_iff_forall_ne_some]
    exact fun t ht => hfailed t (((hruns.records hc).1 id t).mp ht)
  have hdecided : Workspace.Decided ⟨s.process, c⟩ id := Workspace.decided_of_new hnew
  refine ⟨?_, fun f hf => ?_⟩
  · simp only [perform_deriveRecord_ok hc hid]
    exact hdecided.accepted
  · obtain ⟨⟨e, rfl, he⟩, hsame⟩ := perform_deriveRecord_error hc hid type hf
    exact ⟨⟨e, rfl, (hdecided.refused e).mp he⟩, hsame⟩

/-- A class is asked for in vain before the scalar of its field is mapped. -/
def refusedOnce : Session :=
  ((start.perform (.declareStruct "C"
    ⟨"Com", "native.records", none, some [⟨"hr", .pointer (.scalar .hresult), none⟩]⟩)).2.perform
    (.deriveRecord "main" "C" none)).2

/-- The next attempt fails alike, and one after the scalar is mapped succeeds. -/
theorem derivations_decided_refusedOnce :
    (∃ e, (refusedOnce.perform (.deriveRecord "main" "C" none)).1 = .error e) ∧
      ∃ t, ((refusedOnce.perform (.mapScalar "main" .hresult (.int true .w32))).2.perform
        (.deriveRecord "main" "C" none)).1 = .ok t := by
  have hruns := (((Runs.nil (s := start)).cons (.declareStruct "C"
    ⟨"Com", "native.records", none, some [⟨"hr", .pointer (.scalar .hresult), none⟩]⟩)).cons
    (.deriveRecord "main" "C" none)).cons (.mapScalar "main" .hresult (.int true .w32))
  obtain ⟨c, hc, hnew, hmapped⟩ : ∃ c,
      (refusedOnce.perform (.mapScalar "main" .hresult (.int true .w32))).2.contexts.get? "main"
        = some c ∧ c.records.get? ⟨0⟩ = none ∧
      c.scalars.toValueType? .hresult = some (.int true .w32) := ⟨_, rfl, rfl, rfl⟩
  have hfailed : ∀ t, ¬Typed (happeningsIn _ c.id) ⟨0⟩ t := fun t ht =>
    absurd (hnew.symm.trans (((hruns.records hc).1 ⟨0⟩ t).mpr ht)) (by simp)
  obtain ⟨haccepted, -⟩ := derivations_decided.2 _ _ "main" "C" c ⟨0⟩ none hruns hc rfl hfailed
  refine ⟨⟨_, rfl⟩, haccepted.mpr ⟨_, rfl, fun f hf => ?_⟩⟩
  obtain rfl := List.mem_singleton.mp hf
  exact ⟨rfl, .hresult, rfl, by rw [hmapped]; rfl⟩

end Session

end ForeignTypes
