import ForeignTypes.CType
import ForeignTypes.Table
import ForeignTypes.ValueType

/-!
# The map between scalars and value types

Every C scalar the compiler can handle has one value type; several scalars may share it, so the way
back has to choose.  There are two policies: the *canonical* one prefers the fixed-width scalar of
each value type, the other takes the scalar that was inserted last.  Scalars that stand for
pointers never enter the way back, since a pointer type goes back layer by layer.

* `ReversePolicy` — how the way back chooses.
* `ScalarMap` — the entries in order of first insertion, and beside them the look-ups both ways.
* `ScalarMap.push`, `ScalarMap.rebuild` — a scalar goes in, and the way back is built anew.
* `ScalarMap.builtin`, `ScalarMap.register` — the map to start with, and one more entry.
* `ScalarMap.toValueType?`, `ScalarMap.toScalar?` — the map on scalars, both ways.
* `ScalarMap.valueTypeOf?`, `ScalarMap.cTypeOf?` — the map on types of any pointer depth.
* **`ScalarMap.toValueType?_builtin`**, **`ScalarMap.toValueType?_register`** — what a scalar is
  mapped to at first, and after a registration.
-/

namespace ForeignTypes

/-- Which of several scalars with one value type is taken on the way back. -/
inductive ReversePolicy
  /-- The fixed-width scalar of the value type, where it is mapped to that type. -/
  | canonical
  /-- The scalar inserted last. -/
  | lastInserted
  deriving DecidableEq

/-- The map keeps what it holds three times: as a list to be shown, and once for each way it is
asked.  Each copy is written on its own. -/
structure ScalarMap where
  /-- The entries, in the order in which their scalars first came. -/
  entries : Table CScalar ValueType := {}
  /-- The value type of each scalar. -/
  forward : Table CScalar ValueType := {}
  /-- The scalar of each value type that is no pointer. -/
  back : Table ValueType CScalar := {}
  policy : ReversePolicy

namespace ScalarMap

/-! ## Building the map -/

def canonical : List (ValueType × CScalar) :=
  [(.bool, .bool),
    (.int true .w8, .int8), (.int true .w16, .int16), (.int true .w32, .int32),
    (.int true .w64, .int64),
    (.int false .w8, .uint8), (.int false .w16, .uint16), (.int false .w32, .uint32),
    (.int false .w64, .uint64),
    (.float32, .float), (.float64, .double), (.longDouble, .longDouble),
    (.address, .voidPtr), (.handle, .object)]

/-- One entry goes into the way back, unless it stands for a pointer. -/
def learn (back : Table ValueType CScalar) (entry : CScalar × ValueType) :
    Table ValueType CScalar :=
  if entry.2.isPointer then back else back.put entry.2 entry.1

/-- A canonical scalar takes its place in the way back if it is mapped to its value type. -/
def prefer (forward : Table CScalar ValueType) (back : Table ValueType CScalar)
    (choice : ValueType × CScalar) : Table ValueType CScalar :=
  if forward.get? choice.2 = some choice.1 then back.put choice.1 choice.2 else back

/-- A scalar goes in with its value type, among the entries and for look-ups. -/
def push (m : ScalarMap) (s : CScalar) (t : ValueType) : ScalarMap :=
  { m with entries := m.entries.put s t, forward := m.forward.put s t }

/-- The way back is built from nothing: it learns the entries in order, so that the last one stands,
and then prefers the canonical scalars if the policy says so. -/
def rebuild (m : ScalarMap) : ScalarMap :=
  let learned := m.entries.rows.foldl learn {}
  let back :=
    match m.policy with
    | .canonical => canonical.foldl (prefer m.forward) learned
    | .lastInserted => learned
  { m with back }

/-- The value type of a scalar before anything is registered.  Integers of the host go by their
measured width.  The signed size, the size and the wide character are unsigned, and so is either
kind of byte; there is none for the error code `hresult`. -/
def builtinType? : CScalar → Option ValueType
  | .bool => some .bool
  | .int => ValueType.integer? CScalar.int.bytes true
  | .int8 => some (.int true .w8)
  | .int16 => some (.int true .w16)
  | .int32 => some (.int true .w32)
  | .int64 => some (.int true .w64)
  | .uint => ValueType.integer? CScalar.uint.bytes false
  | .uint8 => some (.int false .w8)
  | .uint16 => some (.int false .w16)
  | .uint32 => some (.int false .w32)
  | .uint64 => some (.int false .w64)
  | .float => some .float32
  | .double => some .float64
  | .longDouble => some .longDouble
  | .ubyte | .byte => some (.int false .w8)
  | .short => ValueType.integer? CScalar.short.bytes true
  | .ushort => ValueType.integer? CScalar.ushort.bytes false
  | .long => ValueType.integer? CScalar.long.bytes true
  | .longLong => ValueType.integer? CScalar.longLong.bytes true
  | .ulong => ValueType.integer? CScalar.ulong.bytes false
  | .ulongLong => ValueType.integer? CScalar.ulongLong.bytes false
  | .ssize => ValueType.integer? CScalar.ssize.bytes false
  | .size => ValueType.integer? CScalar.size.bytes false
  | .char => some (.int true .w8)
  | .charPtr => some (.pointer (.int true .w8))
  | .wchar => ValueType.integer? CScalar.wchar.bytes false
  | .wcharPtr => (ValueType.integer? CScalar.wchar.bytes false).map .pointer
  | .voidPtr => some .address
  | .object => some .handle
  | .hresult => none

/-- The entries to start with, in the order of the scalars. -/
def builtinEntries : Table CScalar ValueType where
  rows := CScalar.all.filterMap fun s => (builtinType? s).map (s, ·)
  distinct := by decide

/-- The map to start with, as it is when these entries went in one by one. -/
def builtin (policy : ReversePolicy) : ScalarMap :=
  rebuild { entries := builtinEntries, forward := builtinEntries, policy }

/-- The map with a scalar mapped to a value type, whether it was mapped before or not. -/
def register (m : ScalarMap) (s : CScalar) (t : ValueType) : ScalarMap := (m.push s t).rebuild

/-! ## Scalars -/

def toValueType? (m : ScalarMap) (s : CScalar) : Option ValueType := m.forward.get? s

def toScalar? (m : ScalarMap) (t : ValueType) : Option CScalar := m.back.get? t

/-! ## Types of any depth -/

/-- The value type of a C type that is not `void` itself.  There is none for `void` below a
pointer, and none for a struct. -/
def innerValueType? (m : ScalarMap) : CType → Option ValueType
  | .scalar s => m.toValueType? s
  | .pointer t => (m.innerValueType? t).map .pointer
  | .void | .struct _ => none

/-- The value type of a C type: `void` is no value, and all else goes layer by layer. -/
def valueTypeOf? (m : ScalarMap) : CType → Option ValueType
  | .void => some .unit
  | t => m.innerValueType? t

/-- The C type of a value type other than no value at all. -/
def innerCType? (m : ScalarMap) : ValueType → Option CType
  | .pointer t => (m.innerCType? t).map .pointer
  | t => (m.toScalar? t).map .scalar

/-- The C type of a value type: no value is `void`, and all else goes layer by layer. -/
def cTypeOf? (m : ScalarMap) : ValueType → Option CType
  | .unit => some .void
  | t => m.innerCType? t

/-! ## What goes in -/

/-- At first a scalar is mapped to its built-in type. -/
theorem toValueType?_builtin (policy : ReversePolicy) (s : CScalar) :
    (builtin policy).toValueType? s = builtinType? s := by
  cases s <;> rfl

/-- A registered scalar is mapped as it was registered, and the others as before. -/
theorem toValueType?_register (m : ScalarMap) (s s' : CScalar) (t : ValueType) :
    (m.register s t).toValueType? s' = if s = s' then some t else m.toValueType? s' :=
  Table.get?_put _ _ _ _

end ScalarMap

end ForeignTypes
