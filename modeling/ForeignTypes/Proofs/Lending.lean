import ForeignTypes.Proofs.Events
import ForeignTypes.Proofs.Objects

/-!
# What lending and boxing do

Unboxing has one way to succeed; a fault only decides whether the ledger hears of the loan.  Boxing
has two ways, by the ledger and as a new object, and each way to fail says which of them was barred.

* `Process.Adds` — an object was made, and nothing else happened that matters to objects.
* `Workspace.Lends`, **`Workspace.lends_of_unbox`** — what a loan is, and what it changes.
* `Workspace.Boxes`, **`Workspace.boxes_box`** — the ways in which boxing ends.
* `Workspace.boxOwned_of_unknown`, `boxOwned_of_none`, …, **`Workspace.boxesOwned`** — those for
  bytes of native code, in full.
* **`Workspace.box_cases`** — boxing brings an object back, is refused, or comes to those bytes.
-/

namespace ForeignTypes

/-- Without an error there is none to take. -/
lemma ForeignSide.takeError_of_none {f : ForeignSide} (h : f.outstanding = none) :
    f.takeError.1 = f := by
  rw [takeError, ← h]

/-! ## New objects -/

namespace Process

/-- Nothing changed but what is known of layouts and of the foreign runtime. -/
structure Spares (p p' : Process) : Prop where
  heap : p'.heap = p.heap
  regions : p'.regions = p.regions
  contexts : p'.contexts = p.contexts

structure Adds (p p' : Process) (type : CType) (bytes : List UInt8) (o : ObjectId) : Prop where
  heap : ∃ module, p'.heap = (p.heap.alloc type module bytes).1
  object : o = p.heap.nextId
  regions : p'.regions = p.regions
  contexts : p'.contexts = p.contexts

variable {p p' : Process} {id : StructId} {bytes : List UInt8} {o : ObjectId}

lemma adds_makeObject (p : Process) (type : CType) (module : String) (bytes : List UInt8) :
    p.Adds (p.makeObject type module bytes).1 type bytes (p.makeObject type module bytes).2 :=
  ⟨⟨module, rfl⟩, rfl, rfl, rfl⟩

lemma adds_makeZeroed (p : Process) (id : StructId) :
    p.Adds (p.makeZeroed id).1 (.struct id) (List.replicate ((p.sizeOf id).2.getD 0) 0)
      (p.makeZeroed id).2 :=
  ⟨⟨_, rfl⟩, rfl, rfl, rfl⟩

lemma spares_of_makeRecord_error {e : Error} (h : p.makeRecord id bytes = (p', .error e)) :
    p.Spares p' := by
  simp only [makeRecord] at h
  split at h
  · split at h
    · obtain ⟨rfl, -⟩ := Prod.mk.inj h
      exact ⟨rfl, rfl, rfl⟩
    · exact absurd h (by simp)
  · exact absurd h (by simp)

/-- An object of a struct class has as many bytes as the class, if its size is known. -/
lemma adds_of_makeRecord (h : p.makeRecord id bytes = (p', .ok o)) :
    p.Adds p' (.struct id) bytes o ∧ (∀ n, (p.sizeOf id).2 = some n → n ≤ bytes.length) ∧
      p'.foreign = p.foreign := by
  simp only [makeRecord] at h
  split at h
  · next hsize =>
      split at h
      · exact absurd h (by simp)
      · next hle =>
          obtain ⟨rfl, ho⟩ := Prod.mk.inj h
          refine ⟨⟨⟨_, rfl⟩, (Except.ok.inj ho).symm, rfl, rfl⟩, ?_, rfl⟩
          intro n hn
          obtain rfl := Option.some.inj (hsize.symm.trans hn)
          exact Nat.le_of_not_lt hle
  · next hsize =>
      obtain ⟨rfl, ho⟩ := Prod.mk.inj h
      refine ⟨⟨⟨_, rfl⟩, (Except.ok.inj ho).symm, rfl, rfl⟩, ?_, rfl⟩
      intro n hn
      exact absurd (hsize.symm.trans hn) (by simp)

lemma spares_of_construct_error {e : Error} (h : p.construct id bytes = (p', .error e)) :
    p.Spares p' := by
  simp only [construct] at h
  split at h
  · next hmake =>
      obtain ⟨rfl, -⟩ := Prod.mk.inj h
      exact spares_of_makeRecord_error hmake
  · exact absurd h (by simp)

lemma adds_of_construct (h : p.construct id bytes = (p', .ok o)) :
    p.Adds p' (.struct id) bytes o ∧ (∀ n, (p.sizeOf id).2 = some n → n ≤ bytes.length) ∧
      p'.foreign.outstanding = p.foreign.outstanding := by
  simp only [construct] at h
  split at h
  · exact absurd h (by simp)
  · next hmake =>
      obtain ⟨rfl, ho⟩ := Prod.mk.inj h
      obtain rfl := Except.ok.inj ho
      obtain ⟨hadds, hsize, hforeign⟩ := adds_of_makeRecord hmake
      refine ⟨⟨hadds.heap, hadds.object, hadds.regions, hadds.contexts⟩, hsize, ?_⟩
      rw [← hforeign]

/-- The process after an object of a struct class was constructed from these bytes. -/
def afterConstruct (p : Process) (id : StructId) (bytes : List UInt8) : Process :=
  let sized := (p.sizeOf id).1
  let made := (sized.makeObject (.struct id) (sized.moduleOf id) bytes).1
  { made with foreign := { made.foreign with constructed := made.foreign.constructed + 1 } }

/-- The process after such an object was given up for an error that was outstanding. -/
def afterGivingUp (p : Process) (id : StructId) (bytes : List UInt8) : Process :=
  let made := p.afterConstruct id bytes
  { made with foreign := made.foreign.takeError.1, heap := made.heap.release p.heap.nextId }

lemma construct_of_lt {n : Nat} (hn : (p.sizeOf id).2 = some n) (hlt : bytes.length < n) :
    p.construct id bytes = ((p.sizeOf id).1,
      .error (.bufferTooSmall ((p.sizeOf id).1.structs.nameOf id) n bytes.length)) := by
  rcases hsize : p.sizeOf id with ⟨p', size⟩
  rw [hsize] at hn
  obtain rfl : size = some n := hn
  simp only [construct, makeRecord, hsize, if_pos hlt]

lemma construct_of_le (hle : ∀ n, (p.sizeOf id).2 = some n → n ≤ bytes.length) :
    p.construct id bytes = (p.afterConstruct id bytes, .ok p.heap.nextId) := by
  have hheap : (p.sizeOf id).1.heap = p.heap := rfl
  rcases hsize : p.sizeOf id with ⟨p', _ | n⟩
  · rw [← hheap]
    simp only [construct, makeRecord, afterConstruct, hsize]
    rfl
  · have hn := Nat.not_lt.mpr (hle n (by rw [hsize]))
    rw [← hheap]
    simp only [construct, makeRecord, afterConstruct, hsize, if_neg hn]
    rfl

end Process

namespace Workspace

variable {w w' : Workspace} {t : ValueType} {o : ObjectId}

/-! ## Lending -/

/-- The object `o` was lent as a value of the type `t`. -/
structure Lends (w : Workspace) (t : ValueType) (o : ObjectId) (address : Address)
    (w' : Workspace) (loan : Loan) : Prop where
  made : ∃ x, w.process.heap.object? o = some x ∧ w.checkClass t x = .ok () ∧
    loan.region = ⟨⟨w.process.regions⟩, .aliased address x.bytes.length⟩
  object : loan.object = o
  holding : loan.isHolding = true
  fault : loan.fault = w.process.foreign.outstanding.map .fault
  ticket : loan.ticket = if loan.fault.isNone then some ⟨w.context.id, loan.region.id⟩ else none
  structs : w'.process.structs = w.process.structs
  foreign : w'.process.foreign = w.process.foreign.takeError.1
  heap : w'.process.heap = w.process.heap.retain o
  regions : w'.process.regions = w.process.regions + 1
  contexts : w'.process.contexts = w.process.contexts
  id : w'.context.id = w.context.id
  ledger : w'.context.ledger = if loan.fault.isNone then
    w.context.ledger.insert w'.process.heap.isAlive loan.region.id o else w.context.ledger

/-- **Lending succeeds in one way.** -/
theorem lends_of_unbox {address : Address} {loan : Loan}
    (h : w.unbox t o address = .ok (w', loan)) : w.Lends t o address w' loan := by
  simp only [unbox] at h
  split at h
  · exact absurd h (by simp)
  · next x hx =>
      split at h
      · exact absurd h (by simp)
      · next hcheck =>
          split at h
          · next foreign message hforeign =>
              obtain ⟨rfl, rfl⟩ := Prod.mk.inj (Except.ok.inj h)
              obtain ⟨htaken, hfault⟩ := Prod.mk.inj hforeign
              have hfault : w.process.foreign.outstanding = some message := hfault
              exact ⟨⟨x, hx, hcheck, rfl⟩, rfl, rfl, by rw [hfault]; rfl, rfl, rfl, htaken.symm,
                rfl, rfl, rfl, rfl, rfl⟩
          · next foreign hforeign =>
              obtain ⟨rfl, rfl⟩ := Prod.mk.inj (Except.ok.inj h)
              have hfault : w.process.foreign.outstanding = none := (Prod.mk.inj hforeign).2
              have htaken : w.process.foreign.takeError.1 = w.process.foreign :=
                ForeignSide.takeError_of_none hfault
              exact ⟨⟨x, hx, hcheck, rfl⟩, rfl, rfl, by rw [hfault]; rfl, rfl, rfl, htaken.symm,
                rfl, rfl, rfl, rfl, rfl⟩

/-- **With an error outstanding** every loan is given with it as its fault, and the context stays as
it was. -/
lemma unbox_of_outstanding {address : Address} {x : ForeignObject} {message : String}
    (hx : w.process.heap.object? o = some x) (hcheck : w.checkClass t x = .ok ())
    (hmessage : w.process.foreign.outstanding = some message) :
    w.unbox t o address = .ok
      ({ w with process := { w.process with
          heap := w.process.heap.retain o
          regions := w.process.regions + 1
          foreign := w.process.foreign.takeError.1 } },
        ⟨⟨⟨w.process.regions⟩, .aliased address x.bytes.length⟩, o, some (.fault message), true,
          none⟩) := by
  simp only [unbox, hx, hcheck, Process.newRegionId, ForeignSide.takeError, hmessage]

/-! ## Boxing -/

/-- The ways in which boxing the region `r` at the type `t` ends. -/
inductive Boxes (w : Workspace) (t : ValueType) (r : Region) :
    Workspace × Except Error ObjectId → Prop
  /-- The ledger knows the region, and the object is of the right class. -/
  | lent {o : ObjectId} (ho : w.context.ledger.peek w.process.heap.isAlive r.id = some o)
      (hclass : ∀ record x, w.process.types.recordOf? t = some record →
        w.process.heap.object? o = some x → record.matches x.type = true) :
    Boxes w t r
      (⟨{ w.process with heap := w.process.heap.retain o },
        { w.context with ledger := w.context.ledger.redeem r.id }⟩, .ok o)
  /-- The ledger knows the region, and the object is of another class. -/
  | mismatch {o : ObjectId} {record : RecordType} {x : ForeignObject}
      (ho : w.context.ledger.peek w.process.heap.isAlive r.id = some o)
      (hrecord : w.process.types.recordOf? t = some record)
      (hx : w.process.heap.object? o = some x) (hclass : record.matches x.type = false) :
    Boxes w t r
      (w, .error (.classMismatch record.name (w.process.structs.textOf x.type)))
  /-- The region shows an object, and the ledger does not know it. -/
  | unknown {address : Address}
      (ho : w.context.ledger.peek w.process.heap.isAlive r.id = none)
      (haddress : r.address? = some address) (ht : t = .foreign ∨ ∃ id, t = .record id) :
    Boxes w t r (w, .error (.fault
      ("no live foreign object owns the representation at " ++ address.text)))
  /-- The type is not one that objects go across as. -/
  | unsupported (ho : w.context.ledger.peek w.process.heap.isAlive r.id = none)
      (ht : r.isAliased = true → t ≠ .foreign ∧ ∀ id, t ≠ .record id) (e : Error) :
    Boxes w t r (w, .error e)
  /-- The region is one of native code, and no object came of it. -/
  | failed (ho : w.context.ledger.peek w.process.heap.isAlive r.id = none)
      (howned : r.isAliased = false) {process : Process} (hspares : w.process.Spares process)
      (e : Error) :
    Boxes w t r ({ w with process }, .error e)
  /-- The region is one of native code, and the object that came of it was given up. -/
  | givenUp (ho : w.context.ledger.peek w.process.heap.isAlive r.id = none)
      (howned : r.isAliased = false) {made process : Process} {type : CType} {bytes : List UInt8}
      {o : ObjectId} (hadds : w.process.Adds made type bytes o)
      (hheap : process.heap = made.heap.release o) (hregions : process.regions = made.regions)
      (hcontexts : process.contexts = made.contexts) (e : Error) :
    Boxes w t r ({ w with process }, .error e)
  /-- The region is one of native code, and became a new object of the record's class. -/
  | made (ho : w.context.ledger.peek w.process.heap.isAlive r.id = none)
      {id : TypeId} {record : RecordType} {struct : StructId} {bytes : List UInt8} {o : ObjectId}
      {process : Process} (ht : t = .record id) (hr : r.storage = .owned bytes)
      (hrecord : w.process.types.record? id = some record)
      (hstruct : w.context.records.structOf? record.struct = some struct)
      (hsize : record.layout.size ≤ bytes.length)
      (hmake : w.process.construct struct bytes = (process, .ok o)) :
    Boxes w t r ({ w with process }, .ok o)

section Owned

variable {record : RecordType} {struct : StructId} {bytes : List UInt8}

lemma boxOwned_of_unknown (hstruct : w.context.records.structOf? record.struct = none) :
    w.boxOwned record t bytes
      = (w, .error (.unsupportedValueType (w.process.types.textOf t))) := by
  simp only [boxOwned, hstruct]

/-- There are too few bytes for the record, -/
lemma boxOwned_of_lt_record (hstruct : w.context.records.structOf? record.struct = some struct)
    (hlt : bytes.length < record.layout.size) :
    w.boxOwned record t bytes
      = (w, .error (.bufferTooSmall record.name record.layout.size bytes.length)) := by
  simp only [boxOwned, hstruct, if_pos hlt]

/-- or enough for the record, and too few for the class, -/
lemma boxOwned_of_lt_class {n : Nat}
    (hstruct : w.context.records.structOf? record.struct = some struct)
    (hle : record.layout.size ≤ bytes.length) (hn : (w.process.sizeOf struct).2 = some n)
    (hlt : bytes.length < n) :
    w.boxOwned record t bytes = ({ w with process := (w.process.sizeOf struct).1 },
      .error (.bufferTooSmall ((w.process.sizeOf struct).1.structs.nameOf struct) n
        bytes.length)) := by
  simp only [boxOwned, hstruct, if_neg (Nat.not_lt.mpr hle), Process.construct_of_lt hn hlt]

/-- or enough for both while an error is outstanding, -/
lemma boxOwned_of_outstanding {message : String}
    (hstruct : w.context.records.structOf? record.struct = some struct)
    (hle : record.layout.size ≤ bytes.length)
    (hn : ∀ n, (w.process.sizeOf struct).2 = some n → n ≤ bytes.length)
    (hmessage : w.process.foreign.outstanding = some message) :
    w.boxOwned record t bytes
      = ({ w with process := w.process.afterGivingUp struct bytes }, .error (.fault message)) := by
  have htake : (w.process.afterConstruct struct bytes).foreign.takeError
      = ((w.process.afterConstruct struct bytes).foreign.takeError.1, some message) :=
    Prod.ext rfl hmessage
  simp only [boxOwned, hstruct, if_neg (Nat.not_lt.mpr hle), Process.construct_of_le hn]
  rw [htake]
  rfl

/-- or enough for both, and no error. -/
lemma boxOwned_of_none (hstruct : w.context.records.structOf? record.struct = some struct)
    (hle : record.layout.size ≤ bytes.length)
    (hn : ∀ n, (w.process.sizeOf struct).2 = some n → n ≤ bytes.length)
    (hnone : w.process.foreign.outstanding = none) :
    w.boxOwned record t bytes
      = ({ w with process := w.process.afterConstruct struct bytes },
        .ok w.process.heap.nextId) := by
  have htake : (w.process.afterConstruct struct bytes).foreign.takeError
      = ((w.process.afterConstruct struct bytes).foreign.takeError.1, none) :=
    Prod.ext rfl hnone
  simp only [boxOwned, hstruct, if_neg (Nat.not_lt.mpr hle), Process.construct_of_le hn]
  rw [htake]

end Owned

/-- The ways in which boxing bytes of native code as the record `r` ends: the class is looked up by
its identity, the bytes are counted against the record and against the class, and the object is
given up if an error is outstanding. -/
inductive BoxesOwned (w : Workspace) (r : RecordType) (t : ValueType) (bytes : List UInt8) :
    Workspace × Except Error ObjectId → Prop
  | unknown (hid : w.context.records.structOf? r.struct = none) :
    BoxesOwned w r t bytes (w, .error (.unsupportedValueType (w.process.types.textOf t)))
  | shortOfRecord {id : StructId} (hid : w.context.records.structOf? r.struct = some id)
      (hlt : bytes.length < r.layout.size) :
    BoxesOwned w r t bytes (w, .error (.bufferTooSmall r.name r.layout.size bytes.length))
  | shortOfClass {id : StructId} {n : Nat} (hid : w.context.records.structOf? r.struct = some id)
      (hle : r.layout.size ≤ bytes.length) (hn : (w.process.sizeOf id).2 = some n)
      (hlt : bytes.length < n) :
    BoxesOwned w r t bytes ({ w with process := (w.process.sizeOf id).1 },
      .error (.bufferTooSmall ((w.process.sizeOf id).1.structs.nameOf id) n bytes.length))
  | givenUp {id : StructId} {message : String}
      (hid : w.context.records.structOf? r.struct = some id) (hle : r.layout.size ≤ bytes.length)
      (hn : ∀ n, (w.process.sizeOf id).2 = some n → n ≤ bytes.length)
      (hmessage : w.process.foreign.outstanding = some message) :
    BoxesOwned w r t bytes ({ w with process := w.process.afterGivingUp id bytes },
      .error (.fault message))
  | made {id : StructId} (hid : w.context.records.structOf? r.struct = some id)
      (hle : r.layout.size ≤ bytes.length)
      (hn : ∀ n, (w.process.sizeOf id).2 = some n → n ≤ bytes.length)
      (hnone : w.process.foreign.outstanding = none) :
    BoxesOwned w r t bytes ({ w with process := w.process.afterConstruct id bytes },
      .ok w.process.heap.nextId)

/-- **There is no other way.** -/
theorem boxesOwned (w : Workspace) (r : RecordType) (t : ValueType) (bytes : List UInt8) :
    w.BoxesOwned r t bytes (w.boxOwned r t bytes) := by
  cases hid : w.context.records.structOf? r.struct with
  | none =>
      rw [boxOwned_of_unknown hid]
      exact .unknown hid
  | some id =>
      by_cases hlt : bytes.length < r.layout.size
      · rw [boxOwned_of_lt_record hid hlt]
        exact .shortOfRecord hid hlt
      · have hle := Nat.le_of_not_lt hlt
        by_cases hn : ∀ n, (w.process.sizeOf id).2 = some n → n ≤ bytes.length
        · cases hmessage : w.process.foreign.outstanding with
          | some message =>
              rw [boxOwned_of_outstanding hid hle hn hmessage]
              exact .givenUp hid hle hn hmessage
          | none =>
              rw [boxOwned_of_none hid hle hn hmessage]
              exact .made hid hle hn hmessage
        · simp only [not_forall, Nat.not_le] at hn
          obtain ⟨n, hn, hlt⟩ := hn
          rw [boxOwned_of_lt_class hid hle hn hlt]
          exact .shortOfClass hid hle hn hlt

/-- A region of native code is boxed in one way, and fails in several. -/
lemma boxes_boxOwned {r : Region} {id : TypeId} {record : RecordType} {bytes : List UInt8}
    (ho : w.context.ledger.peek w.process.heap.isAlive r.id = none)
    (hr : r.storage = .owned bytes) (hrecord : w.process.types.record? id = some record) :
    Boxes w (.record id) r (w.boxOwned record (.record id) bytes) := by
  have howned := Region.isAliased_eq_false hr
  have hsame : w.process.Spares w.process := ⟨rfl, rfl, rfl⟩
  have hboxes := w.boxesOwned record (.record id) bytes
  generalize w.boxOwned record (.record id) bytes = answer at hboxes ⊢
  cases hboxes with
  | unknown hid => exact .failed ho howned hsame _
  | shortOfRecord hid hlt => exact .failed ho howned hsame _
  | @shortOfClass id n hid hle hn hlt =>
      have hspares : w.process.Spares (w.process.sizeOf id).1 := ⟨rfl, rfl, rfl⟩
      exact .failed ho howned hspares _
  | givenUp hid hle hn hmessage =>
      have hadds := (Process.adds_of_construct (Process.construct_of_le hn)).1
      refine .givenUp ho howned hadds ?_ ?_ ?_ _
      · rfl
      · rfl
      · rfl
  | made hid hle hn hnone =>
      exact .made ho rfl hr hrecord hid hle (Process.construct_of_le hn)

lemma mismatch?_eq_none (h : w.mismatch? t o = none) {record : RecordType} {x : ForeignObject}
    (hrecord : w.process.types.recordOf? t = some record)
    (hx : w.process.heap.object? o = some x) : record.matches x.type = true := by
  by_contra hclass
  simp [mismatch?, hrecord, hx, hclass] at h

lemma mismatch?_eq_some {e : Error} (h : w.mismatch? t o = some e) :
    ∃ record x, w.process.types.recordOf? t = some record ∧ w.process.heap.object? o = some x ∧
      record.matches x.type = false ∧
      e = .classMismatch record.name (w.process.structs.textOf x.type) := by
  simp only [mismatch?, Option.bind_eq_bind, Option.bind_eq_some_iff] at h
  obtain ⟨record, hrecord, x, hx, h⟩ := h
  split at h
  · exact absurd h (by simp)
  · next hclass =>
      exact ⟨record, x, hrecord, hx, by simpa using hclass, (Option.some.inj h).symm⟩

/-- **Boxing** brings an object back, is refused, or makes an object of the bytes of native code.  A
refusal changes nothing, and blames a class only if the ledger knows the region. -/
theorem box_cases (w : Workspace) (t : ValueType) (r : Region) :
    (∃ o, w.context.ledger.peek w.process.heap.isAlive r.id = some o ∧ w.mismatch? t o = none ∧
      w.box t r = (⟨{ w.process with heap := w.process.heap.retain o },
        { w.context with ledger := w.context.ledger.redeem r.id }⟩, .ok o)) ∨
    (∃ e, w.box t r = (w, .error e) ∧ ∀ want found, e = .classMismatch want found →
      ∃ o, w.context.ledger.peek w.process.heap.isAlive r.id = some o ∧ w.mismatch? t o = some e) ∨
    ∃ id record bytes, t = .record id ∧ r.storage = .owned bytes ∧
      w.process.types.record? id = some record ∧
      w.context.ledger.peek w.process.heap.isAlive r.id = none ∧
      w.box t r = w.boxOwned record t bytes := by
  generalize hbox : w.box t r = answer
  rw [box.eq_def] at hbox
  split at hbox
  · next o ho =>
      split at hbox
      · next e he => exact .inr (.inl ⟨e, hbox.symm, fun _ _ _ => ⟨o, ho, he⟩⟩)
      · next hnone => exact .inl ⟨o, ho, hnone, hbox.symm⟩
  · next ho =>
      split at hbox
      · next id bytes hr =>
          split at hbox
          · next record hrecord =>
              exact .inr (.inr ⟨id, record, bytes, rfl, hr, hrecord, ho, hbox.symm⟩)
          · exact .inr (.inl ⟨_, hbox.symm, by simp⟩)
      · exact .inr (.inl ⟨_, hbox.symm, by simp⟩)
      · exact .inr (.inl ⟨_, hbox.symm, by simp⟩)
      · exact .inr (.inl ⟨_, hbox.symm, by simp⟩)

/-- **Boxing ends in one of these ways.** -/
theorem boxes_box (w : Workspace) (t : ValueType) (r : Region) : w.Boxes t r (w.box t r) := by
  rw [box.eq_def]
  split
  · next o ho =>
      split
      · next e he =>
          obtain ⟨record, x, hrecord, hx, hclass, rfl⟩ := mismatch?_eq_some he
          exact .mismatch ho hrecord hx hclass
      · next hnone => exact .lent ho fun _ _ => mismatch?_eq_none hnone
  · next ho =>
      split
      · next id bytes hr =>
          split
          · next record hrecord => exact boxes_boxOwned ho hr hrecord
          · refine .unsupported ho (fun haliased => ?_) _
            exact absurd (haliased.symm.trans (Region.isAliased_eq_false hr)) (by simp)
      · next id address length hr =>
          exact .unknown ho (by rw [Region.address?, hr]) (.inr ⟨id, rfl⟩)
      · next address length hr =>
          exact .unknown ho (by rw [Region.address?, hr]) (.inl rfl)
      · next _ hrecord hforeign =>
          refine .unsupported ho (fun haliased => ?_) _
          obtain ⟨address, length, hr⟩ := Region.isAliased_iff.mp haliased
          exact ⟨fun ht => hforeign address length ht hr,
            fun id ht => hrecord id address length ht hr⟩

end Workspace

end ForeignTypes
