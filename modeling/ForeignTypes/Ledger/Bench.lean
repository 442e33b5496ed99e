import ForeignTypes.Heap
import ForeignTypes.Ledger
import ForeignTypes.Table

/-!
# A ledger by itself

The ledger can be worked without a context: with objects that live as long as their handle, region
identities made for the purpose, and tickets that are kept under names.  Once the ledger is gone,
its tickets do nothing.

* `Bench` — a ledger, the objects, the identities and the tickets.
* `Bench.insert`, `Bench.dropTicket`, `Bench.peek`, `Bench.pop`, `Bench.sweep` — its operations;
  those that need the ledger answer nothing once it is gone.
-/

namespace ForeignTypes

/-- A ledger, with what is held around it by name. -/
structure Bench where
  /-- The ledger, as long as it is there. -/
  ledger : Option Ledger
  heap : Heap := {}
  objects : Table String ObjectId := {}
  ids : Table String RegionId := {}
  /-- The tickets, each for the entry of a region. -/
  tickets : Table String RegionId := {}
  regions : Nat := 0

namespace Bench

def new (threshold : Nat) : Bench := { ledger := some (.new threshold) }

/-- Make an object of one byte, and let go what the name stood for. -/
def makeObject (b : Bench) (name : String) : Bench :=
  let (heap, o) := b.heap.alloc (.scalar .int8) ForeignObject.scalarModule [0]
  let heap :=
    match b.objects.get? name with
    | some old => heap.release old
    | none => heap
  { b with heap, objects := b.objects.put name o }

/-- Let an object go; was there one? -/
def dropObject (b : Bench) (name : String) : Bench × Bool :=
  match b.objects.get? name with
  | some o =>
    ({ b with heap := b.heap.release o, objects := b.objects.erase name }, true)
  | none => (b, false)

def makeId (b : Bench) (name : String) : Bench :=
  { b with regions := b.regions + 1, ids := b.ids.put name ⟨b.regions⟩ }

def redeem (b : Bench) (r : RegionId) : Bench :=
  { b with ledger := b.ledger.map (·.redeem r) }

/-- Enter an object for a region, keep the ticket under a name, and let go the ticket that the name
stood for. -/
def insert (b : Bench) (ticket : String) (r : RegionId) (o : ObjectId) : Option Bench := do
  let l ← b.ledger
  let entered :=
    { b with ledger := some (l.insert b.heap.isAlive r o), tickets := b.tickets.put ticket r }
  match b.tickets.get? ticket with
  | some old => return entered.redeem old
  | none => return entered

def dropTicket (b : Bench) (name : String) : Bench × Bool :=
  match b.tickets.get? name with
  | some r => ({ b with tickets := b.tickets.erase name }.redeem r, true)
  | none => (b, false)

def peek (b : Bench) (r : RegionId) : Option (Option ObjectId) := do
  let l ← b.ledger
  return l.peek b.heap.isAlive r

/-- Take the entry of a region out; the answer is its object, alive or dead. -/
def pop (b : Bench) (r : RegionId) : Option (Bench × Option ObjectId) := do
  let l ← b.ledger
  let (l', o) := l.pop r
  return ({ b with ledger := some l' }, o)

/-- Sweep the ledger; the answer is the number of entries swept out. -/
def sweep (b : Bench) : Option (Bench × Nat) := do
  let l ← b.ledger
  let swept := l.sweep b.heap.isAlive
  return ({ b with ledger := some swept }, l.size - swept.size)

def dropLedger (b : Bench) : Bench × Bool := ({ b with ledger := none }, b.ledger.isSome)

def handlesOf (b : Bench) (o : ObjectId) : List String := b.objects.namesOf o

end Bench

end ForeignTypes
