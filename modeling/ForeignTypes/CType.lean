import ForeignTypes.Scalar

/-!
# C types

What a foreign library declares a value to be: nothing, a scalar, a pointer, or an instance of a
struct class.  Struct classes are known by identity, never by their name or their fields, so a C
type holds the identity of the class alone.

* `StructId` — the identity of a struct class.
* `CType` — the four kinds of type; equality is decided, and two structs are equal exactly if
  their identities are.
* `CType.pointers n t` — `n` layers of pointer around `t`.
* `CType.peel`, `CType.depth` — the innermost pointee, and the number of layers around it.
* **`CType.pointers_depth_peel`** — the two together give the type back.
-/

namespace ForeignTypes

structure StructId where
  index : Nat
  deriving DecidableEq

/-- The type a foreign library declares a value to have. -/
inductive CType
  /-- No value: what a function without a result returns. -/
  | void
  | scalar (s : CScalar)
  | pointer (pointee : CType)
  /-- An instance of a struct class, by value. -/
  | struct (id : StructId)
  deriving DecidableEq

namespace CType

def pointers : Nat → CType → CType
  | 0, t => t
  | n + 1, t => pointer (pointers n t)

/-- The innermost pointee: what is left without the pointer layers. -/
def peel : CType → CType
  | pointer t => t.peel
  | t => t

def depth : CType → Nat
  | pointer t => t.depth + 1
  | _ => 0

/-- The text of a type, where `nameOf` gives the name of a struct class. -/
def text (nameOf : StructId → String) : CType → String
  | void => "void"
  | scalar s => s.text
  | pointer t => "POINTER(" ++ t.text nameOf ++ ")"
  | struct id => nameOf id

def structId? : CType → Option StructId
  | struct id => some id
  | _ => none

/-! ## Layers of pointer -/

/-- **Peeling a type and putting its layers back gives the type.** -/
theorem pointers_depth_peel : ∀ t : CType, pointers t.depth t.peel = t
  | void | scalar _ | struct _ => rfl
  | pointer t => congrArg pointer (pointers_depth_peel t)

theorem peel_ne_pointer : ∀ t u : CType, t.peel ≠ pointer u
  | void, _ | scalar _, _ | struct _, _ => by simp [peel]
  | pointer t, u => peel_ne_pointer t u

end CType

end ForeignTypes
