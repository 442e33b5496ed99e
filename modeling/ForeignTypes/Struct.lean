import ForeignTypes.CType
import ForeignTypes.Layout
import ForeignTypes.Table

/-!
# Struct classes

A struct class is declared by name, in a module, with an optional limit on alignment; its fields
may be given at once or later, but only once.  Giving them later is how a struct comes to hold a
pointer to its own kind.  Two declarations make two classes, however alike they are.

* `FieldDecl`, `StructDecl` — a declared field, and a declared class.
* `StructTable` — the classes in the order of declaration, and what is known of their layouts.
* `StructTable.declare`, `StructTable.setFields` — the two ways the table changes.
* `StructTable.fields?` — the fields of a class, once they are given.
* **`StructTable.decl?_declare`** — a new class has an identity no other class had.
-/

namespace ForeignTypes

/-- A field as it is declared, possibly with a width in bits. -/
structure FieldDecl where
  name : String
  type : CType
  bits : Option Nat := none
  deriving DecidableEq

structure StructDecl where
  name : String
  /-- The path of the module that declares the class; its first part is the family of the class. -/
  module : String
  /-- The limit on alignment, if the class has one. -/
  pack : Option Nat
  fields : Option (List FieldDecl)
  deriving DecidableEq

/-- The module of a class that is declared without one. -/
def StructDecl.defaultModule : String := "native.records"

/-- The struct classes that were declared.  The identity of a class is its place in the list. -/
structure StructTable where
  decls : List StructDecl := []
  laidOut : Table StructId Layout := {}
  /-- The classes whose layouts are being worked out. -/
  visiting : List StructId := []
  counting : Counting := .words

namespace StructTable

def decl? (t : StructTable) (id : StructId) : Option StructDecl := t.decls[id.index]?

def nameOf (t : StructTable) (id : StructId) : String :=
  match t.decl? id with
  | some d => d.name
  | none => ""

def fields? (t : StructTable) (id : StructId) : Option (List FieldDecl) :=
  (t.decl? id).bind StructDecl.fields

def isComplete (t : StructTable) (id : StructId) : Bool := (t.fields? id).isSome

def nextId (t : StructTable) : StructId := ⟨t.decls.length⟩

def declare (t : StructTable) (d : StructDecl) : StructTable × StructId :=
  ({ t with decls := t.decls ++ [d] }, t.nextId)

/-- Give the fields of a class.  The answer says whether they were taken: a class that has its
fields keeps them. -/
def setFields (t : StructTable) (id : StructId) (fields : List FieldDecl) : StructTable × Bool :=
  match t.decl? id with
  | some { fields := none, .. } =>
    ({ t with decls := t.decls.modify id.index ({ · with fields := some fields }) }, true)
  | _ => (t, false)

def textOf (t : StructTable) (type : CType) : String := type.text t.nameOf

/-! ## How declarations change the table -/

/-- **A new class has a new identity**, and every other class is what it was. -/
theorem decl?_declare (t : StructTable) (d : StructDecl) (id : StructId) :
    (t.declare d).1.decl? id = if id = t.nextId then some d else t.decl? id := by
  obtain ⟨i⟩ := id
  simp only [declare, decl?, nextId, StructId.mk.injEq]
  by_cases h : i = t.decls.length
  · simp [h]
  · by_cases hlt : i < t.decls.length
    · simp [h, List.getElem?_append_left hlt]
    · simp [h, List.getElem?_append_right (Nat.le_of_not_lt hlt),
        List.getElem?_eq_none (Nat.le_of_not_lt hlt)]
      omega

theorem decl?_nextId (t : StructTable) : t.decl? t.nextId = none := by
  simp [decl?, nextId]

end StructTable

end ForeignTypes
