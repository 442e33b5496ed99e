import ForeignTypes.Workspace

/-!
# Lending objects and bringing them back

*Unboxing* lends a foreign object to the native side: the loan takes a reference, the region shows
the object's storage, and the ledger remembers which object the region belongs to.  *Boxing* brings
a region back: a region that the ledger knows is the object it was lent from, once; a region that
native code made itself becomes a new object.

The foreign runtime may have an error outstanding.  Unboxing then gives a loan with a fault, which
the ledger never sees; boxing a region of native code gives up the object it had constructed.

* `RecordType.matches` — is an object of the record's class?
* `Workspace.unbox` — lend an object; a failure changes nothing.
* `Workspace.box` — bring a region back.
* `Workspace.boxOwned` — a new object from the bytes of native code.
-/

namespace ForeignTypes

/-- Is a C type the struct class from which the record was derived? -/
def RecordType.matches (r : RecordType) (t : CType) : Bool := t = .struct r.struct

namespace Workspace

/-- An object goes across as a record if it is of the record's class, and as a foreign value in any
case.  Nothing else goes across. -/
def checkClass (w : Workspace) (t : ValueType) (object : ForeignObject) : Except Error Unit :=
  match t with
  | .foreign => .ok ()
  | .record id =>
    match w.process.types.record? id with
    | some r =>
      if r.matches object.type then .ok ()
      else .error (.classMismatch r.name (w.process.structs.textOf object.type))
    | none => .error (.unsupportedValueType (w.process.types.textOf t))
  | t => .error (.unsupportedValueType (w.process.types.textOf t))

/-- Lend an object as a value of a type.  The foreign runtime says where the bytes lie. -/
def unbox (w : Workspace) (t : ValueType) (o : ObjectId) (address : Address) :
    Except Error (Workspace × Loan) :=
  match w.process.heap.object? o with
  | none => .error (.unsupportedValueType (w.process.types.textOf t))
  | some object =>
    match w.checkClass t object with
    | .error e => .error e
    | .ok () =>
      let (process, id) := { w.process with heap := w.process.heap.retain o }.newRegionId
      let region : Region := ⟨id, .aliased address object.bytes.length⟩
      match process.foreign.takeError with
      | (foreign, some message) =>
        let loan : Loan := ⟨region, o, some (.fault message), true, none⟩
        .ok ({ w with process := { process with foreign } }, loan)
      | (_, none) =>
        let ledger := w.context.ledger.insert process.heap.isAlive id o
        let loan : Loan := ⟨region, o, none, true, some ⟨w.context.id, id⟩⟩
        .ok ({ process, context := { w.context with ledger } }, loan)

/-- Make a new object of the record `r` from the bytes of native code.  An error that the foreign
runtime has outstanding when the object is made is reported, and the object is given up. -/
def boxOwned (w : Workspace) (r : RecordType) (t : ValueType) (bytes : List UInt8) :
    Workspace × Except Error ObjectId :=
  match w.context.records.structOf? r.struct with
  | none => (w, .error (.unsupportedValueType (w.process.types.textOf t)))
  | some id =>
    if bytes.length < r.layout.size then
      (w, .error (.bufferTooSmall r.name r.layout.size bytes.length))
    else
      match w.process.construct id bytes with
      | (process, .error e) => ({ w with process }, .error e)
      | (process, .ok o) =>
        match process.foreign.takeError with
        | (foreign, some message) =>
          let process := { process with foreign, heap := process.heap.release o }
          ({ w with process }, .error (.fault message))
        | (_, none) => ({ w with process }, .ok o)

/-- What speaks against bringing an object back at a type: the type is a record of another class. -/
def mismatch? (w : Workspace) (t : ValueType) (o : ObjectId) : Option Error := do
  let r ← w.process.types.recordOf? t
  let object ← w.process.heap.object? o
  if r.matches object.type then none
  else some (.classMismatch r.name (w.process.structs.textOf object.type))

/-- Bring a region back as an object.  The answer is a handle, which counts as a reference. -/
def box (w : Workspace) (t : ValueType) (region : Region) : Workspace × Except Error ObjectId :=
  match w.context.ledger.peek w.process.heap.isAlive region.id with
  | some o =>
    match w.mismatch? t o with
    | some e => (w, .error e)
    | none =>
      let process := { w.process with heap := w.process.heap.retain o }
      let context := { w.context with ledger := w.context.ledger.redeem region.id }
      ({ process, context }, .ok o)
  | none =>
    match t, region.storage with
    | .record id, .owned bytes =>
      match w.process.types.record? id with
      | some r => w.boxOwned r t bytes
      | none => (w, .error (.unsupportedValueType (w.process.types.textOf t)))
    | .record _, .aliased address _ | .foreign, .aliased address _ =>
      (w, .error (.fault
        ("no live foreign object owns the representation at " ++ address.text)))
    | _, _ => (w, .error (.unsupportedValueType (w.process.types.textOf t)))

end Workspace

end ForeignTypes
