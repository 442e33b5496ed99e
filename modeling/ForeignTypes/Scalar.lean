/-!
# The scalars of C

A foreign library describes its values with the scalar names of C.  This file lists them, says how
much room each one takes on a 64-bit System V host, and how it is written.

* `Extent` — a size and an alignment, in bytes.
* `CScalar` — the scalars, in the order in which they are compared and listed.
* `CScalar.extent` — room and alignment on the host; every scalar is aligned to its own size.
* `CScalar.isInteger`, `CScalar.isSigned` — the two questions that choose an integer type.
* `CScalar.text` — the name in diagnostics.
* **`CScalar.extent_align`** — a scalar's alignment is its size, and that is a power of two.
-/

namespace ForeignTypes

/-- The room a value takes and the multiple its address has to be, both in bytes. -/
structure Extent where
  size : Nat
  align : Nat
  deriving DecidableEq

/-- The extent of a value that is aligned to its own size. -/
def Extent.aligned (size : Nat) : Extent := ⟨size, size⟩

/-- The room a pointer of any kind takes. -/
def Extent.pointer : Extent := .aligned 8

/-- A scalar of C.  `object` is a reference to an object of the foreign runtime, `charPtr` and
`wcharPtr` are strings that end in a zero character. -/
inductive CScalar
  | bool | int | int8 | int16 | int32 | int64
  | uint | uint8 | uint16 | uint32 | uint64
  | float | double | longDouble
  | ubyte | byte | short | ushort
  | long | longLong | ulong | ulongLong
  | ssize | size
  | char | charPtr | wchar | wcharPtr
  | voidPtr | object | hresult
  deriving DecidableEq

namespace CScalar

/-- Every scalar once, in the order of declaration. -/
def all : List CScalar :=
  [bool, int, int8, int16, int32, int64, uint, uint8, uint16, uint32, uint64, float, double,
    longDouble, ubyte, byte, short, ushort, long, longLong, ulong, ulongLong, ssize, size, char,
    charPtr, wchar, wcharPtr, voidPtr, object, hresult]

def rank (s : CScalar) : Nat := s.ctorIdx

instance : Ord CScalar := ⟨fun a b => compare a.rank b.rank⟩

/-- The number of bytes a scalar takes on the host. -/
def bytes : CScalar → Nat
  | bool | int8 | uint8 | ubyte | byte | char => 1
  | int16 | uint16 | short | ushort => 2
  | int | int32 | uint | uint32 | float | wchar | hresult => 4
  | int64 | uint64 | double | long | longLong | ulong | ulongLong | ssize | size => 8
  | charPtr | wcharPtr | voidPtr | object => 8
  | longDouble => 16

def extent (s : CScalar) : Extent := .aligned s.bytes

/-- Integers, bytes and characters are integers; truth values, floats and pointers are not. -/
def isInteger : CScalar → Bool
  | bool | float | double | longDouble | charPtr | wcharPtr | voidPtr | object => false
  | _ => true

/-- The integers that hold negative numbers.  A plain `char` is one of them; a wide character is
not, since it stands for a code unit. -/
def isSigned : CScalar → Bool
  | int | int8 | int16 | int32 | int64 | byte | short | long | longLong | ssize | char
  | hresult => true
  | _ => false

def text : CScalar → String
  | bool => "c_bool"
  | int => "c_int"
  | int8 => "c_int8"
  | int16 => "c_int16"
  | int32 => "c_int32"
  | int64 => "c_int64"
  | uint => "c_uint"
  | uint8 => "c_uint8"
  | uint16 => "c_uint16"
  | uint32 => "c_uint32"
  | uint64 => "c_uint64"
  | float => "c_float"
  | double => "c_double"
  | longDouble => "c_longdouble"
  | ubyte => "c_ubyte"
  | byte => "c_byte"
  | short => "c_short"
  | ushort => "c_ushort"
  | long => "c_long"
  | longLong => "c_longlong"
  | ulong => "c_ulong"
  | ulongLong => "c_ulonglong"
  | ssize => "c_ssize_t"
  | size => "c_size_t"
  | char => "c_char"
  | charPtr => "c_char_p"
  | wchar => "c_wchar"
  | wcharPtr => "c_wchar_p"
  | voidPtr => "c_void_p"
  | object => "py_object"
  | hresult => "HRESULT"

/-! ## What the sizes are -/

/-- **A scalar is aligned to its own size, a power of two.** -/
theorem extent_align (s : CScalar) :
    s.extent.align = s.extent.size ∧ s.extent.align ∈ [1, 2, 4, 8, 16] := by
  cases s <;> decide

end CScalar

end ForeignTypes
