import ForeignTypes.Scalar

/-!
# Value types

What a compiler takes a value to be.  Scalars and pointers are compared by their structure; records
and callables are compared by **identity**: each derivation makes a new type, and two types are the
same only if they come from the same derivation.  So a value type holds the identity of the record
or callable, and what that is made of is kept elsewhere.

* `IntWidth`, `ValueType` — the types.
* `ValueType.integer?` — the integer type of a width in bytes, where there is one.
* `ValueType.isInteger`, `isSigned`, `isComposite`, `pointee?` — what a code generator asks.
* `ValueType.peel`, `ValueType.pointers` — the layers of pointer.
* `ValueType.words` — the words that a hash table is fed for a type.
-/

namespace ForeignTypes

structure TypeId where
  index : Nat
  deriving DecidableEq

inductive IntWidth
  | w8 | w16 | w32 | w64
  deriving DecidableEq

def IntWidth.bytes : IntWidth → Nat
  | w8 => 1
  | w16 => 2
  | w32 => 4
  | w64 => 8

/-- What a compiler takes a value to be. -/
inductive ValueType
  | unit
  | bool
  | int (signed : Bool) (width : IntWidth)
  | float32
  | float64
  /-- The extended-precision float of the host. -/
  | longDouble
  /-- A pointer to something unknown. -/
  | address
  /-- A handle to an object of the foreign runtime, passed through untouched. -/
  | handle
  | pointer (pointee : ValueType)
  /-- A foreign value whose layout is not known yet. -/
  | foreign
  /-- A record of fixed layout, known by identity. -/
  | record (id : TypeId)
  /-- A function outside the program, known by identity. -/
  | function (id : TypeId)
  deriving DecidableEq

namespace ValueType

/-- The integer type of a width in bytes; there is one for 1, 2, 4 and 8 bytes. -/
def integer? (bytes : Nat) (signed : Bool) : Option ValueType :=
  match bytes with
  | 1 => some (int signed .w8)
  | 2 => some (int signed .w16)
  | 4 => some (int signed .w32)
  | 8 => some (int signed .w64)
  | _ => none

def isInteger : ValueType → Bool
  | int _ _ => true
  | _ => false

def isSigned : ValueType → Bool
  | int signed _ => signed
  | _ => false

/-- Is this a record, or a foreign value that may turn out to be one? -/
def isComposite : ValueType → Bool
  | record _ | foreign => true
  | _ => false

def isPointer : ValueType → Bool
  | pointer _ => true
  | _ => false

def pointee? : ValueType → Option ValueType
  | pointer t => some t
  | _ => none

def pointers : Nat → ValueType → ValueType
  | 0, t => t
  | n + 1, t => pointer (pointers n t)

def peel : ValueType → ValueType
  | pointer t => t.peel
  | t => t

def depth : ValueType → Nat
  | pointer t => t.depth + 1
  | _ => 0

/-- The text of a type, where `textOf` gives the text of a record or callable. -/
def text (textOf : TypeId → String) : ValueType → String
  | unit => "none"
  | bool => "bool"
  | int true .w8 => "int8"
  | int true .w16 => "int16"
  | int true .w32 => "int32"
  | int true .w64 => "int64"
  | int false .w8 => "uint8"
  | int false .w16 => "uint16"
  | int false .w32 => "uint32"
  | int false .w64 => "uint64"
  | float32 => "float32"
  | float64 => "float64"
  | longDouble => "longdouble"
  | address => "void*"
  | handle => "ffi_forced_object"
  | pointer t => t.text textOf ++ "*"
  | foreign => "_CData"
  | record id => textOf id
  | function id => textOf id

/-- The room a value takes, where `extentOf` gives the room of a record.  Nothing and a foreign
value of unknown layout have none; a pointer takes the same room whatever it points to. -/
def extent? (extentOf : TypeId → Option Extent) : ValueType → Option Extent
  | unit | foreign => none
  | bool => some (.aligned 1)
  | int _ width => some (.aligned width.bytes)
  | float32 => some (.aligned 4)
  | float64 => some (.aligned 8)
  | longDouble => some (.aligned 16)
  | address | handle | pointer _ | function _ => some .pointer
  | record id => extentOf id

/-! ## Hashing

A table keyed by value types feeds a hash function with one word for the kind of type, and after it
the words of the pointee, or the address of the record or callable.
-/

/-- The number that stands for the outermost kind of a type. -/
def kind : ValueType → Nat
  | unit => 0
  | bool => 1
  | int true .w8 => 2
  | int true .w16 => 3
  | int true .w32 => 4
  | int true .w64 => 5
  | int false .w8 => 6
  | int false .w16 => 7
  | int false .w32 => 8
  | int false .w64 => 9
  | float32 => 10
  | float64 => 11
  | longDouble => 12
  | address => 13
  | handle => 14
  | pointer _ => 15
  | foreign => 16
  | record _ => 17
  | function _ => 18

/-- The words a hash function is fed for a type, where `addressOf` says where a record or callable
is kept. -/
def words (addressOf : TypeId → Nat) : ValueType → List Nat
  | pointer t => kind (pointer t) :: t.words addressOf
  | record id => [kind (record id), addressOf id]
  | function id => [kind (function id), addressOf id]
  | t => [kind t]

/-- The comparison that goes with the hash: pointers by their pointees, records and callables by
where they are kept, and all else by kind. -/
def same (addressOf : TypeId → Nat) : ValueType → ValueType → Bool
  | pointer a, pointer b => same addressOf a b
  | record a, record b => addressOf a == addressOf b
  | function a, function b => addressOf a == addressOf b
  | pointer _, _ | record _, _ | function _, _ => false
  | a, b => kind a == kind b

/-! ## Layers of pointer -/

/-- Peeling a type and putting its layers back gives the type. -/
theorem pointers_depth_peel : ∀ t : ValueType, pointers t.depth t.peel = t
  | pointer t => congrArg pointer (pointers_depth_peel t)
  | unit | bool | int _ _ | float32 | float64 | longDouble | address | handle | foreign
  | record _ | function _ => rfl

end ValueType

end ForeignTypes
