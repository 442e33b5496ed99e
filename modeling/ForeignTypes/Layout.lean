import ForeignTypes.Scalar

/-!
# The layout of a struct

Fields are placed one after the other, each at the next multiple of its alignment, and the whole is
rounded up to the largest alignment in it.  A limit on alignment (the `pack` attribute) lowers the
alignment of every field that exceeds it.

Sizes are counted in one of two ways.  A machine counts in 64-bit words, and a sum that does not
fit wraps around; without that bound the same rules give the exact layout.

* `Counting` — with or without the bound.
* `FieldExtent` — a field before it is placed; `Placement` — after.
* `Layout.compute` — the layout of a list of fields under a limit on alignment.
* `Layout.overflows` — does some sum of the 64-bit computation not fit into a word?
* `Layout.offsetOf?` — where the first field of a name was placed.
-/

namespace ForeignTypes

/-! ## Counting bytes -/

/-- How numbers of bytes are added up. -/
inductive Counting
  | exact
  /-- Sums are taken modulo 2^64. -/
  | words
  deriving DecidableEq

def wordRange : Nat := UInt64.size

/-- The result of an addition or a multiplication, as it is counted. -/
def Counting.keep : Counting → Nat → Nat
  | exact, n => n
  | words, n => n % wordRange

/-- The least number of steps of `align` that cover `offset`. -/
def stepsUp (offset align : Nat) : Nat := (offset + (align - 1)) / align

/-- The least multiple of `align` that is not below `offset`. -/
def Counting.alignUp (c : Counting) (offset align : Nat) : Nat :=
  c.keep (stepsUp offset align * align)

/-! ## Fields and layouts -/

structure FieldExtent where
  name : String
  size : Nat
  align : Nat
  deriving DecidableEq

/-- A field in its place: its first byte, counted from the start of the struct, and its size. -/
structure Placement where
  name : String
  offset : Nat
  size : Nat
  deriving DecidableEq

/-- The layout of a struct: its fields in the order of declaration, the size of the whole with the
padding at its end, and the alignment of the whole. -/
structure Layout where
  fields : List Placement
  size : Nat
  align : Nat
  deriving DecidableEq

namespace Layout

/-- The alignment that counts: at least one, and at most the limit if there is one.  A limit of
zero is taken as one. -/
def effectiveAlign (limit : Option Nat) (align : Nat) : Nat :=
  match limit with
  | none => max align 1
  | some most => min (max align 1) (max most 1)

/-- The alignment of the whole: the largest that counts among the fields, and one without any. -/
def commonAlign (limit : Option Nat) : List FieldExtent → Nat
  | [] => 1
  | f :: fs => max (effectiveAlign limit f.align) (commonAlign limit fs)

/-- Place fields from a given end of what was placed before; the answer has the end of the last
field beside the places. -/
def place (c : Counting) (limit : Option Nat) : Nat → List FieldExtent → List Placement × Nat
  | stop, [] => ([], stop)
  | stop, f :: fs =>
    let start := c.alignUp stop (effectiveAlign limit f.align)
    let (rest, last) := place c limit (c.keep (start + f.size)) fs
    (⟨f.name, start, f.size⟩ :: rest, last)

/-- The layout of a list of fields under a limit on alignment. -/
def compute (c : Counting) (fields : List FieldExtent) (limit : Option Nat) : Layout :=
  let align := commonAlign limit fields
  let (placed, stop) := place c limit 0 fields
  ⟨placed, c.alignUp stop align, align⟩

def offsetOf? (l : Layout) (name : String) : Option Nat :=
  (l.fields.find? (·.name = name)).map (·.offset)

def extent (l : Layout) : Extent := ⟨l.size, l.align⟩

/-! ## Sums that do not fit

The 64-bit computation makes one multiplication and one addition for each field, and one
multiplication for the padding at the end.
-/

/-- Does some sum of placing these fields not fit into a word? -/
def placeOverflows (limit : Option Nat) : Nat → List FieldExtent → Bool
  | _, [] => false
  | stop, f :: fs =>
    let align := effectiveAlign limit f.align
    let start := Counting.words.alignUp stop align
    decide (wordRange ≤ stepsUp stop align * align)
      || decide (wordRange ≤ start + f.size)
      || placeOverflows limit (Counting.words.keep (start + f.size)) fs

/-- Does some sum of the 64-bit layout of these fields not fit into a word? -/
def overflows (fields : List FieldExtent) (limit : Option Nat) : Bool :=
  let align := commonAlign limit fields
  let stop := (place .words limit 0 fields).2
  placeOverflows limit 0 fields || decide (wordRange ≤ stepsUp stop align * align)

end Layout

end ForeignTypes
