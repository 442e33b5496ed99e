import ForeignTypes.Error
import ForeignTypes.ScalarMap
import ForeignTypes.Struct
import ForeignTypes.TypeStore

/-!
# Records derived from struct classes

A context derives the record type of a struct class once and keeps it.  A derivation looks at the
fields in the order of declaration and stops at the first that cannot be carried across: a field of
a number of bits, a field that leads back to the class itself, a field of another struct, or a
field whose type has no value type.  A derivation that stops leaves nothing behind.

* `FieldDecl.derive` — one field.
* `RecordType.ofFields` — the record with these fields, and its layout.
* `RecordCache` — what was derived, by class.
* `RecordCache.derive` — the record type of a class, from the cache or by derivation.
-/

namespace ForeignTypes

/-- Carry one field of the class `self` across.  Its width in bits counts first, then what its
innermost pointee is, then its type as a whole. -/
def FieldDecl.derive (structs : StructTable) (scalars : ScalarMap) (self : StructId)
    (f : FieldDecl) : Except Error RecordField :=
  match f.bits with
  | some bits => .error (.bitField (structs.nameOf self) f.name bits)
  | none =>
    match f.type.peel with
    | .struct inner =>
      if inner = self then .error (.recursiveRecord (structs.nameOf self) f.name)
      else .error (.unsupportedCType (structs.textOf f.type))
    | _ =>
      if f.type = .void then
        .error (.unsupportedCType ("void field '" ++ f.name ++ "' in " ++ structs.nameOf self))
      else
        match scalars.valueTypeOf? f.type with
        | some t => .ok ⟨f.name, t⟩
        | none => .error (.unsupportedCType (structs.textOf f.type))

/-- A field of a record before it is placed.  A type without a size takes no room. -/
def RecordField.extent (types : TypeStore) (f : RecordField) : FieldExtent :=
  match types.extentOf f.type with
  | some e => ⟨f.name, e.size, e.align⟩
  | none => ⟨f.name, 0, 1⟩

/-- The record with these fields, laid out under the limit of its class. -/
def RecordType.ofFields (counting : Counting) (types : TypeStore) (struct : StructId)
    (name : String) (fields : List RecordField) (pack : Option Nat) : RecordType :=
  { struct, name, fields, pack,
    layout := Layout.compute counting (fields.map (·.extent types)) pack }

/-- A record type that a context keeps, with the class it was derived from. -/
structure CachedRecord where
  struct : StructId
  type : ValueType
  deriving DecidableEq

structure RecordCache where
  entries : Table StructId CachedRecord := {}

namespace RecordCache

/-- The record type of a class, if it was derived. -/
def get? (c : RecordCache) (id : StructId) : Option ValueType := (c.entries.get? id).map (·.type)

/-- The class from which the record under an identity was derived. -/
def structOf? (c : RecordCache) (id : StructId) : Option StructId :=
  (c.entries.get? id).map (·.struct)

def contains (c : RecordCache) (id : StructId) : Bool := c.entries.contains id

def size (c : RecordCache) : Nat := c.entries.size

def isEmpty (c : RecordCache) : Bool := c.entries.isEmpty

/-- The record type of a class: the one derived before, or a new one.  A failure changes neither
the cache nor the store. -/
def derive (c : RecordCache) (structs : StructTable) (scalars : ScalarMap)
    (types : TypeStore) (id : StructId) : Except Error (RecordCache × TypeStore × ValueType) :=
  match c.get? id with
  | some t => .ok (c, types, t)
  | none =>
    match structs.decl? id with
    | some { name, pack, fields := some fields, .. } =>
      match fields.mapM (FieldDecl.derive structs scalars id) with
      | .error e => .error e
      | .ok derived =>
        let record := RecordType.ofFields structs.counting types id name derived pack
        let (types', t) := types.addRecord record
        .ok (⟨c.entries.put id ⟨id, t⟩⟩, types', t)
    | _ => .error (.unsupportedCType (structs.nameOf id ++ " (fields not declared)"))

end RecordCache

end ForeignTypes
