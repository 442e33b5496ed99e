import ForeignTypes.Workspace

/-!
# Diagnostic texts

Structures are written with their fields and texts in quotes, for a person who looks into a
process.  Identities and addresses are left blank, since they say nothing outside the process.

* `quoted` — a text in quotes, with what cannot be seen written as an escape.
* `fieldsText` — a structure: its name, and its fields by name.
* `StructTable.inspect`, `Heap.inspect`, `RecordCache.inspect`, `SupportRegistry.inspect`,
  `TypeStore.inspectFunction` — the texts.
-/

namespace ForeignTypes

def version : String := "0.3.0"

/-! ## Parts of texts -/

def escaped (c : Char) : String :=
  if c = '"' then "\\\""
  else if c = '\\' then "\\\\"
  else if c = '\n' then "\\n"
  else if c = '\r' then "\\r"
  else if c = '\t' then "\\t"
  else if c = '\x00' then "\\0"
  else if c.toNat < 0x20 ∨ c.toNat = 0x7f then
    "\\u\x7b" ++ String.ofList (Nat.toDigits 16 c.toNat) ++ "\x7d"
  else c.toString

def quoted (s : String) : String := "\"" ++ String.join (s.toList.map escaped) ++ "\""

def listText (xs : List String) : String := "[" ++ String.intercalate ", " xs ++ "]"

def setText (xs : List String) : String := "\x7b" ++ String.intercalate ", " xs ++ "\x7d"

def fieldsText (name : String) (fields : List (String × String)) : String :=
  name ++ " \x7b " ++ String.intercalate ", " (fields.map fun (f, x) => f ++ ": " ++ x) ++ " \x7d"

def optionText : Option String → String
  | some x => "Some(" ++ x ++ ")"
  | none => "None"

/-! ## Struct classes and objects -/

/-- The text of a struct class.  Fields are named only, since their types may lead back to the
class. -/
def StructTable.inspect (t : StructTable) (id : StructId) : String :=
  match t.decl? id with
  | none => ""
  | some d =>
    fieldsText "RecordClass"
      [("id", "ClassId(_)"), ("name", quoted d.name), ("module", quoted d.module),
        ("pack", optionText (d.pack.map toString)),
        ("fields", listText ((d.fields.getD []).map fun f => quoted f.name))]

def Heap.inspect (h : Heap) (textOf : CType → String) (o : ObjectId) : String :=
  match h.object? o with
  | none => ""
  | some x =>
    fieldsText "ForeignObject"
      [("class", quoted (textOf x.type)), ("module", quoted x.module),
        ("len", toString x.bytes.length), ("address", "0x_")]

def weakText (isAlive : Bool) : String :=
  "WeakForeignObject(alive: " ++ toString isAlive ++ ")"

/-! ## What a context holds -/

def RecordCache.inspect (c : RecordCache) : String :=
  fieldsText "CompositeTypeCache" [("len", toString c.size)]

def SupportRegistry.inspect (r : SupportRegistry) : String :=
  fieldsText "SupportRegistry"
    [("families", listText ((alphabetical r.families).map quoted)),
      ("initialized", setText ((alphabetical r.ready).map quoted))]

/-! ## Types -/

/-- The text of a value type, where `textOf` gives the text of a record or callable. -/
def ValueType.inspect (textOf : TypeId → String) : ValueType → String
  | unit => "None"
  | bool => "Bool"
  | int true .w8 => "I8"
  | int true .w16 => "I16"
  | int true .w32 => "I32"
  | int true .w64 => "I64"
  | int false .w8 => "U8"
  | int false .w16 => "U16"
  | int false .w32 => "U32"
  | int false .w64 => "U64"
  | float32 => "F32"
  | float64 => "F64"
  | longDouble => "LongDouble"
  | address => "VoidPtr"
  | handle => "ForcedObject"
  | pointer t => "CPointer(" ++ t.inspect textOf ++ ")"
  | foreign => "OpaqueForeign"
  | record id => "Record(" ++ textOf id ++ ")"
  | function id => "FunctionPointer(" ++ textOf id ++ ")"

def Layout.inspect (l : Layout) : String :=
  let fields := l.fields.map fun f =>
    fieldsText "FieldLayout"
      [("name", quoted f.name), ("offset", toString f.offset), ("size", toString f.size)]
  fieldsText "RecordLayout"
    [("fields", listText fields), ("size", toString l.size), ("align", toString l.align)]

def RecordType.inspect (textOf : TypeId → String) (r : RecordType) : String :=
  let fields := r.fields.map fun f =>
    fieldsText "RecordFieldSpec" [("name", quoted f.name), ("ty", f.type.inspect textOf)]
  fieldsText "RecordDescriptor"
    [("class_id", "ClassId(_)"), ("name", quoted r.name), ("fields", listText fields),
      ("pack", optionText (r.pack.map toString)), ("layout", r.layout.inspect)]

def CallingConvention.inspect : CallingConvention → String
  | platform => "Default"
  | stdcall => "StdCall"

/-- The text of a callable; how its address is found is left out. -/
def FunctionType.inspect (textOf : TypeId → String) (f : FunctionType) : String :=
  let signature :=
    fieldsText "Signature"
      [("ret", f.signature.result.inspect textOf),
        ("args", listText (f.signature.arguments.map (·.inspect textOf)))]
  "FunctionPointerType \x7b signature: " ++ signature ++ ", cconv: " ++ f.convention.inspect
    ++ ", .. \x7d"

def Composite.inspect (textOf : TypeId → String) : Composite → String
  | record r => r.inspect textOf
  | function f => f.inspect textOf

namespace TypeStore

/-- The texts of records and callables: each is written with the texts of the earlier ones. -/
def inspections : List (TypeId × Composite) → TypeId → String
  | [], _ => ""
  | (id, c) :: earlier, id' =>
    if id = id' then c.inspect (inspections earlier) else inspections earlier id'

def inspectFunction (s : TypeStore) (f : FunctionType) : String := f.inspect (inspections s.made)

end TypeStore

end ForeignTypes
