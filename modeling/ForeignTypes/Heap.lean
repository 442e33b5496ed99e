import ForeignTypes.CType

/-!
# Objects of the foreign runtime

The objects of the foreign runtime are counted: each handle to an object is one reference, and the
object is alive as long as there is one.  An object never changes its class or its bytes, and the
identity of a dead object is not used again.

* `ForeignObject` — class, module, bytes, and the number of references.
* `Heap` — the objects in the order in which they were made, the dead ones included.
* `Heap.alloc`, `Heap.retain`, `Heap.release` — a new object with one reference, one more, one less.
* `Address`, `Heap.addressOf` — where the bytes of an object lie.
* **`Heap.refs_alloc`**, **`Heap.refs_retain`**, **`Heap.refs_release`** — how references change.
-/

namespace ForeignTypes

structure ObjectId where
  index : Nat
  deriving DecidableEq

structure ForeignObject where
  type : CType
  /-- The path of the module that declares the object's class. -/
  module : String
  bytes : List UInt8
  refs : Nat
  deriving DecidableEq

/-- The module of scalar objects that are made without one. -/
def ForeignObject.scalarModule : String := "native.scalars"

/-- The objects made so far.  The identity of an object is its place in the list. -/
structure Heap where
  objects : List ForeignObject := []

/-- Where bytes lie: in the storage of an object, wherever that is, or at an address of known
number. -/
inductive Address
  | storage (object : ObjectId)
  | number (n : Nat)
  deriving DecidableEq

/-- The text of an address.  Where the storage of an object lies is not known here, and it has no
digits. -/
def Address.text : Address → String
  | storage _ => "0x"
  | number n => "0x" ++ String.ofList (Nat.toDigits 16 n)

namespace Heap

def object? (h : Heap) (o : ObjectId) : Option ForeignObject := h.objects[o.index]?

def refs (h : Heap) (o : ObjectId) : Nat :=
  match h.object? o with
  | some x => x.refs
  | none => 0

def isAlive (h : Heap) (o : ObjectId) : Bool := 0 < h.refs o

def nextId (h : Heap) : ObjectId := ⟨h.objects.length⟩

/-- Make an object; the answer is a handle, its first reference. -/
def alloc (h : Heap) (type : CType) (module : String) (bytes : List UInt8) : Heap × ObjectId :=
  (⟨h.objects ++ [⟨type, module, bytes, 1⟩]⟩, h.nextId)

def retain (h : Heap) (o : ObjectId) : Heap :=
  ⟨h.objects.modify o.index fun x => { x with refs := x.refs + 1 }⟩

def release (h : Heap) (o : ObjectId) : Heap :=
  ⟨h.objects.modify o.index fun x => { x with refs := x.refs - 1 }⟩

/-- Where the bytes of an object lie.  Objects without bytes have no storage of their own: they all
have the least address that is not null. -/
def addressOf (h : Heap) (o : ObjectId) : Address :=
  match h.object? o with
  | some { bytes := [], .. } => .number 1
  | _ => .storage o

/-! ## How references change -/

/-- **A new object has one reference**, and the others keep theirs. -/
theorem refs_alloc (h : Heap) (type : CType) (module : String) (bytes : List UInt8)
    (o : ObjectId) :
    (h.alloc type module bytes).1.refs o = if o = h.nextId then 1 else h.refs o := by
  obtain ⟨i⟩ := o
  simp only [alloc, refs, object?, nextId, ObjectId.mk.injEq]
  by_cases hi : i = h.objects.length
  · simp [hi]
  · by_cases hlt : i < h.objects.length
    · simp [hi, List.getElem?_append_left hlt]
    · have hle := Nat.le_of_not_lt hlt
      have hpos : i - h.objects.length ≠ 0 := by omega
      rw [List.getElem?_append_right hle, List.getElem?_eq_none hle, if_neg hi]
      rw [List.getElem?_eq_none (by simp; omega)]

/-- **A reference taken** counts for its object alone. -/
theorem refs_retain (h : Heap) (o o' : ObjectId) (ho : o.index < h.objects.length) :
    (h.retain o).refs o' = if o = o' then h.refs o' + 1 else h.refs o' := by
  obtain ⟨i⟩ := o
  obtain ⟨j⟩ := o'
  simp only at ho
  simp only [retain, refs, object?, List.getElem?_modify, ObjectId.mk.injEq]
  by_cases hij : i = j
  · subst hij
    simp [ho]
  · simp [hij]

/-- **A reference given back** counts for its object alone. -/
theorem refs_release (h : Heap) (o o' : ObjectId) :
    (h.release o).refs o' = if o = o' then h.refs o' - 1 else h.refs o' := by
  obtain ⟨i⟩ := o
  obtain ⟨j⟩ := o'
  simp only [release, refs, object?, List.getElem?_modify, ObjectId.mk.injEq]
  by_cases hij : i = j
  · subst hij
    cases h.objects[i]? <;> simp
  · cases h.objects[j]? <;> simp [hij]

end Heap

end ForeignTypes
