import ForeignTypes.Error
import ForeignTypes.Heap

/-!
# Regions and loans

A value on the native side is a region of bytes: either the storage of a foreign object, known by
its address, or bytes that native code made itself.  Every region has an identity of its own, which
its copies share.

A foreign object that goes to the native side is *lent*: the loan holds one reference to it, and a
ticket that takes the loan out of the ledger when the loan ends.

* `RegionId`, `Storage`, `Region` — regions.
* `Ticket`, `Loan` — what unboxing an object gives.
* `Loan.check` — the region of a loan, or the fault that came up when it was made.
-/

namespace ForeignTypes

/-- The identity of a region, shared by its copies. -/
structure RegionId where
  index : Nat
  deriving DecidableEq

/-- Where the bytes of a region are. -/
inductive Storage
  /-- In the storage of a foreign object. -/
  | aliased (address : Address) (length : Nat)
  /-- In the region itself. -/
  | owned (bytes : List UInt8)
  deriving DecidableEq

structure Region where
  id : RegionId
  storage : Storage
  deriving DecidableEq

namespace Region

/-- The address of the first byte, for storage of a foreign object. -/
def address? (r : Region) : Option Address :=
  match r.storage with
  | .aliased address _ => some address
  | .owned _ => none

def length (r : Region) : Nat :=
  match r.storage with
  | .aliased _ length => length
  | .owned bytes => bytes.length

def isEmpty (r : Region) : Bool := r.length = 0

end Region

/-- The identity of a context, and of the ledger in it. -/
structure ContextId where
  index : Nat
  deriving DecidableEq

/-- The right to take one entry out of one ledger. -/
structure Ticket where
  context : ContextId
  region : RegionId
  deriving DecidableEq

structure Loan where
  region : Region
  object : ObjectId
  /-- The fault that came up when the object was lent; a loan with a fault has no ticket. -/
  fault : Option Error
  /-- The reference to the object is still held. -/
  isHolding : Bool
  ticket : Option Ticket
  deriving DecidableEq

namespace Loan

/-- The object was lent without a fault. -/
def isValid (l : Loan) : Bool := l.fault.isNone

/-- The region of a valid loan, or its fault. -/
def check (l : Loan) : Except Error Region :=
  match l.fault with
  | some e => .error e
  | none => .ok l.region

end Loan

end ForeignTypes
