import ForeignTypes.Struct

/-!
# The layout of a struct class

A struct class has a layout if all that it holds by value has a size: its fields are given, none of
them is `void`, and every struct among them has a layout itself.  A struct that holds itself by
value, through whatever chain, has none.

The search for a layout keeps two notes in the table.  A layout that was found is kept for the next
question, and a class whose layout is being worked out is marked, so that a chain that comes back
to it ends.  A mark is taken away when the work on its class is done, with or without a layout, and
only layouts that were found are kept.

* `StructTable.layout` — the layout of a class, and the table with what was learned.
* `StructTable.extentOf` — the room a value of a C type takes.
* `StructTable.layoutWithin` — the search to a given depth of nesting; the depth that `layout`
  allows is more than the number of classes, so no chain of different classes reaches it.
-/

namespace ForeignTypes

namespace StructTable

/-- The room a value of a C type takes, where `layoutOf` finds the layout of a struct class. -/
def extentWith (layoutOf : StructTable → StructId → StructTable × Option Layout)
    (t : StructTable) : CType → StructTable × Option Extent
  | .void => (t, none)
  | .scalar s => (t, some s.extent)
  | .pointer _ => (t, some .pointer)
  | .struct id =>
    let (t', layout) := layoutOf t id
    (t', layout.map Layout.extent)

/-- The room that each of these fields takes, or nothing if one of them takes none.  The search
stops at the first such field. -/
def extentsWith (layoutOf : StructTable → StructId → StructTable × Option Layout) :
    StructTable → List FieldDecl → StructTable × Option (List FieldExtent)
  | t, [] => (t, some [])
  | t, f :: fs =>
    match extentWith layoutOf t f.type with
    | (t', none) => (t', none)
    | (t', some e) =>
      match extentsWith layoutOf t' fs with
      | (t'', none) => (t'', none)
      | (t'', some es) => (t'', some (⟨f.name, e.size, e.align⟩ :: es))

def enter (t : StructTable) (id : StructId) : StructTable :=
  { t with visiting := t.visiting ++ [id] }

def leave (t : StructTable) (id : StructId) : StructTable :=
  { t with visiting := t.visiting.filter (· ≠ id) }

def learn (t : StructTable) (id : StructId) (l : Layout) : StructTable :=
  { t with laidOut := t.laidOut.put id l }

/-- The layout of a class, as far as it shows within a depth of nesting. -/
def layoutWithin : Nat → StructTable → StructId → StructTable × Option Layout
  | 0, t, _ => (t, none)
  | depth + 1, t, id =>
    match t.laidOut.get? id with
    | some l => (t, some l)
    | none =>
      match t.decl? id with
      | some { pack, fields := some fields, .. } =>
        if id ∈ t.visiting then (t, none)
        else
          match extentsWith (layoutWithin depth) (t.enter id) fields with
          | (t', none) => (t'.leave id, none)
          | (t', some es) =>
            let l := Layout.compute t.counting es pack
            ((t'.leave id).learn id l, some l)
      | _ => (t, none)

/-- The layout of a class, if it has one, and the table with what was learned. -/
def layout (t : StructTable) (id : StructId) : StructTable × Option Layout :=
  layoutWithin (t.decls.length + 1) t id

/-- The room a value of a C type takes: nothing for `void` and for a struct without a layout. -/
def extentOf (t : StructTable) (type : CType) : StructTable × Option Extent :=
  extentWith layout t type

def sizeOf (t : StructTable) (id : StructId) : StructTable × Option Nat :=
  let (t', l) := t.layout id
  (t', l.map Layout.size)

end StructTable

end ForeignTypes
