import ForeignTypes.CType
import ForeignTypes.Layout
import ForeignTypes.Table
import ForeignTypes.ValueType

/-!
# Record types and callable types

A value type that is a record or a callable is only an identity; what it is made of is kept in a
store.  The store only grows: each derivation adds one entry under an identity that was never used,
and no entry changes.  An entry's own types come from earlier derivations, so that its text is
written with the texts of what stands below it.

* `RecordType` — a record: the struct class it comes from, its fields and its layout.
* `FunctionType` — a callable: arguments, result and calling convention.
* `TypeStore` — the entries, the latest first.
* `TypeStore.addRecord`, `TypeStore.addFunction` — new entries.
* `TypeStore.textOf`, `TypeStore.extentOf` — text and room of any value type.
* **`TypeStore.record?_addRecord`** — a new record is found under its own identity alone.
-/

namespace ForeignTypes

/-! ## Records -/

structure RecordField where
  name : String
  type : ValueType
  deriving DecidableEq

/-- A record of fixed layout, derived from a struct class. -/
structure RecordType where
  struct : StructId
  name : String
  fields : List RecordField
  /-- The limit on alignment of the class. -/
  pack : Option Nat
  layout : Layout
  deriving DecidableEq

namespace RecordType

/-- A record without any padding. -/
def isPacked (r : RecordType) : Bool := r.pack = some 1

def field? (r : RecordType) (name : String) : Option RecordField :=
  r.fields.find? (·.name = name)

/-- Are two records alike in all but name and origin? -/
def alike (a b : RecordType) : Bool := a.pack = b.pack ∧ a.fields = b.fields

def text (textOf : TypeId → String) (r : RecordType) : String :=
  let fields := r.fields.map fun f => f.name ++ ": " ++ f.type.text textOf
  "Record(" ++ r.name ++ "\x7b" ++ String.intercalate ", " fields ++ "\x7d"
    ++ (if r.isPacked then ", packed" else "") ++ ")"

end RecordType

/-! ## Callables -/

inductive CallingConvention
  /-- The C convention of the platform. -/
  | platform
  /-- The callee takes the arguments off the stack. -/
  | stdcall
  deriving DecidableEq

def CallingConvention.text : CallingConvention → String
  | platform => "ccc"
  | stdcall => "x86_stdcallcc"

structure Signature where
  arguments : List ValueType
  result : ValueType
  deriving DecidableEq

def Signature.text (textOf : TypeId → String) (s : Signature) : String :=
  "(" ++ String.intercalate ", " (s.arguments.map (·.text textOf)) ++ ") -> "
    ++ s.result.text textOf

/-- A function outside the program that can be called. -/
structure FunctionType where
  signature : Signature
  convention : CallingConvention
  deriving DecidableEq

/-- The text of a callable; the convention is named if it is not the platform's own. -/
def FunctionType.text (textOf : TypeId → String) (f : FunctionType) : String :=
  "ExternalFunctionPointer(" ++ f.signature.text textOf
    ++ (match f.convention with
        | .platform => ""
        | .stdcall => ", cconv=" ++ f.convention.text)
    ++ ")"

/-! ## The store -/

/-- What a record or callable is made of. -/
inductive Composite
  | record (r : RecordType)
  | function (f : FunctionType)
  deriving DecidableEq

def Composite.text (textOf : TypeId → String) : Composite → String
  | record r => r.text textOf
  | function f => f.text textOf

/-- The records and callables derived so far, the latest first. -/
structure TypeStore where
  made : List (TypeId × Composite) := []

namespace TypeStore

def nextId (s : TypeStore) : TypeId := ⟨s.made.length⟩

def composite? (s : TypeStore) (id : TypeId) : Option Composite := Table.find? id s.made

def record? (s : TypeStore) (id : TypeId) : Option RecordType :=
  match s.composite? id with
  | some (.record r) => some r
  | _ => none

def function? (s : TypeStore) (id : TypeId) : Option FunctionType :=
  match s.composite? id with
  | some (.function f) => some f
  | _ => none

def recordOf? (s : TypeStore) : ValueType → Option RecordType
  | .record id => s.record? id
  | _ => none

def add (s : TypeStore) (c : Composite) : TypeStore × TypeId :=
  (⟨(s.nextId, c) :: s.made⟩, s.nextId)

def addRecord (s : TypeStore) (r : RecordType) : TypeStore × ValueType :=
  let (s', id) := s.add (.record r)
  (s', .record id)

def addFunction (s : TypeStore) (f : FunctionType) : TypeStore × ValueType :=
  let (s', id) := s.add (.function f)
  (s', .function id)

/-- The texts of records and callables: each is written with the texts of the earlier ones. -/
def texts : List (TypeId × Composite) → TypeId → String
  | [], _ => ""
  | (id, c) :: earlier, id' => if id = id' then c.text (texts earlier) else texts earlier id'

def textOf (s : TypeStore) (t : ValueType) : String := t.text (texts s.made)

def recordExtent? (s : TypeStore) (id : TypeId) : Option Extent :=
  (s.record? id).map fun r => r.layout.extent

def extentOf (s : TypeStore) (t : ValueType) : Option Extent := t.extent? s.recordExtent?

/-- What a derivation adds is found under the new identity, and all else as before. -/
theorem composite?_add (s : TypeStore) (c : Composite) (id : TypeId) :
    (s.add c).1.composite? id = if id = s.nextId then some c else s.composite? id := by
  by_cases h : s.nextId = id
  · simp [add, composite?, Table.find?, h]
  · simp [add, composite?, Table.find?, h, Ne.symm h]

/-- **A new record is found under its own identity alone**; every other record is what it was. -/
theorem record?_addRecord (s : TypeStore) (r : RecordType) (id : TypeId) :
    (s.addRecord r).1.record? id = if id = s.nextId then some r else s.record? id := by
  by_cases hid : id = s.nextId
  · simp [record?, addRecord, composite?_add, hid]
  · simp [record?, addRecord, composite?_add, hid]

end TypeStore

end ForeignTypes
