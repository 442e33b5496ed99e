import ForeignTypes.Region
import ForeignTypes.Table

/-!
# The ledger of loans

A context remembers, for each region that it handed out, the object whose bytes the region shows,
so that the region finds its way back to that object.  The ledger keeps no object alive.  Entries
whose object has died serve nobody, and they are swept out from time to time: a sweep comes before
an insertion that finds the ledger at its mark, and the mark is then set to twice what is left, or
to the threshold if that is more.

* `Ledger` — the entries, the threshold and the mark.
* `Ledger.insert`, `Ledger.peek`, `Ledger.pop`, `Ledger.redeem`, `Ledger.sweep` — the operations;
  those that ask whether an object lives take the answer as a function.
* `Ledger.peek_redeem` — what a look finds when an entry was taken out.
-/

namespace ForeignTypes

/-- The regions handed out and not yet brought back, each with its object. -/
structure Ledger where
  entries : Table RegionId ObjectId := {}
  /-- The least number of entries that brings a sweep about. -/
  threshold : Nat
  /-- The number of entries that brings the next sweep about. -/
  mark : Nat

namespace Ledger

def defaultThreshold : Nat := 64

/-- An empty ledger.  A threshold of zero is taken as one. -/
def new (threshold : Nat) : Ledger := ⟨{}, max threshold 1, max threshold 1⟩

def size (l : Ledger) : Nat := l.entries.size

def isEmpty (l : Ledger) : Bool := l.entries.isEmpty

/-- Sweep out the entries whose object has died. -/
def sweep (alive : ObjectId → Bool) (l : Ledger) : Ledger :=
  { l with entries := l.entries.keep fun _ o => alive o }

/-- Sweep if the ledger is at its mark, and set the mark anew. -/
def makeRoom (alive : ObjectId → Bool) (l : Ledger) : Ledger :=
  if l.mark ≤ l.size then
    let swept := l.sweep alive
    { swept with mark := max swept.threshold (swept.size * 2) }
  else l

/-- Enter the object of a region, in place of whatever was entered for the region before. -/
def insert (alive : ObjectId → Bool) (l : Ledger) (r : RegionId) (o : ObjectId) : Ledger :=
  let roomy := l.makeRoom alive
  { roomy with entries := roomy.entries.put r o }

/-- The object of a region, if one is entered and alive. -/
def peek (alive : ObjectId → Bool) (l : Ledger) (r : RegionId) : Option ObjectId :=
  (l.entries.get? r).filter alive

def redeem (l : Ledger) (r : RegionId) : Ledger := { l with entries := l.entries.erase r }

/-- Take the entry of a region out; the answer is its object, alive or dead. -/
def pop (l : Ledger) (r : RegionId) : Ledger × Option ObjectId :=
  (l.redeem r, l.entries.get? r)

/-! ## Looks into the ledger -/

/-- An entry that is taken out is not found again; the others are. -/
theorem peek_redeem (alive : ObjectId → Bool) (l : Ledger) (r r' : RegionId) :
    (l.redeem r).peek alive r' = if r = r' then none else l.peek alive r' := by
  simp only [redeem, peek, Table.get?_erase]
  split <;> rfl

end Ledger

end ForeignTypes
