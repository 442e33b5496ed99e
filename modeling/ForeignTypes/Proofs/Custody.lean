import ForeignTypes.Proofs.Events
import ForeignTypes.Proofs.Objects
import Mathlib.Data.Multiset.Count
import Mathlib.Data.Multiset.MapFold
import Mathlib.Tactic.Common

/-!
# Who holds what

Under which names a session keeps its handles, loans, regions and contexts makes no difference to
the objects.  The *books* of a session forget the names: they say which objects, ledgers, handles,
loans and copies of regions there are, and what happened so far.  Everything that a session does to
its books is a sequence of a dozen small *steps*.

The books are *sound* if they fit together in three ways.

**Balance.**  The references to an object are the handles to it and the loans of it that still hold
theirs (`Balanced`).

**Record.**  Each region was made once; each loan is one that the log knows, and no two are of one
region (`Recorded`).

**Entries.**  What stands in a ledger is a loan of that context that was not brought back, and such
a loan stands there as long as its object lives (`Posted`).

* `Ledger.get?_insert`, `Ledger.get?_redeem` — the entries of a ledger.
* `Books`, `Books.Step`, `Books.Steps` — the books and their steps.
-/

namespace ForeignTypes

/-! ## The entries of a ledger -/

namespace Ledger

variable {alive : ObjectId → Bool} {led : Ledger} {r r' : RegionId} {o o' : ObjectId}

lemma peek_eq_some : led.peek alive r = some o ↔ led.entries.get? r = some o ∧ alive o = true := by
  simp [peek, Option.filter_eq_some_iff]

lemma get?_redeem (led : Ledger) (r r' : RegionId) :
    (led.redeem r).entries.get? r' = if r = r' then none else led.entries.get? r' :=
  Table.get?_erase _ _ _

/-- Making room takes nothing out but entries of dead objects. -/
lemma get?_makeRoom_of_alive (ho : alive o = true) (h : led.entries.get? r = some o) :
    (led.makeRoom alive).entries.get? r = some o := by
  simp only [makeRoom]
  split
  · simp [sweep, Table.get?_keep, h, Option.filter, ho]
  · exact h

/-- Making room enters nothing. -/
lemma get?_of_get?_makeRoom (h : (led.makeRoom alive).entries.get? r = some o) :
    led.entries.get? r = some o := by
  simp only [makeRoom] at h
  split at h
  · simp only [sweep, Table.get?_keep, Option.filter_eq_some_iff] at h
    exact h.1
  · exact h

lemma get?_insert (alive : ObjectId → Bool) (led : Ledger) (r r' : RegionId) (o : ObjectId) :
    (led.insert alive r o).entries.get? r'
      = if r = r' then some o else (led.makeRoom alive).entries.get? r' :=
  Table.get?_put _ _ _ _

end Ledger

/-! ## The books and their steps -/

/-- What there is, without the names: the books of a session. -/
@[ext]
structure Books where
  heap : Heap
  regions : Nat
  contexts : Nat
  /-- The ledgers of the contexts that are there. -/
  ledgers : Multiset (ContextId × Ledger)
  handles : Multiset ObjectId
  loans : Multiset Loan
  /-- The copies of regions that are kept. -/
  kept : Multiset Region
  /-- What happened so far, the latest first. -/
  log : List Event

namespace Books

/-- The loan that comes next: of the object `o` with `length` bytes at `address`, by the context
`K`. -/
def nextLoan (b : Books) (K : ContextId) (o : ObjectId) (address : Address) (length : Nat)
    (fault : Option Error) : Loan where
  region := ⟨⟨b.regions⟩, .aliased address length⟩
  object := o
  fault
  isHolding := true
  ticket := if fault.isNone then some ⟨K, ⟨b.regions⟩⟩ else none

/-- A ledger after the entry of a ticket was taken out, if it is the ledger of that ticket. -/
def redeemFor (t : Ticket) (entry : ContextId × Ledger) : ContextId × Ledger :=
  if entry.1 = t.context then (entry.1, entry.2.redeem t.region) else entry

/-- The ledgers when a loan ends. -/
def ledgersAfter (ledgers : Multiset (ContextId × Ledger)) (l : Loan) :
    Multiset (ContextId × Ledger) :=
  match l.ticket with
  | some t => ledgers.map (redeemFor t)
  | none => ledgers

/-- The heap when a loan gives its reference back, if it still has it. -/
def heapAfter (heap : Heap) (l : Loan) : Heap :=
  if l.isHolding then heap.release l.object else heap

/-- Somebody holds the region, in a loan or as a copy. -/
def HasRegion (b : Books) (r : Region) : Prop := r ∈ b.kept ∨ ∃ l ∈ b.loans, l.region = r

/-- What can happen to the books. -/
inductive Step (b : Books) : Books → Prop
  /-- An object is made, with one handle to it. -/
  | make (type : CType) (module : String) (bytes : List UInt8) :
    Step b { b with
      heap := (b.heap.alloc type module bytes).1
      handles := b.heap.nextId ::ₘ b.handles }
  /-- One more handle to a living object. -/
  | take {o : ObjectId} (ho : b.heap.isAlive o = true) :
    Step b { b with heap := b.heap.retain o, handles := o ::ₘ b.handles }
  | drop {o : ObjectId} {handles : Multiset ObjectId} (h : b.handles = o ::ₘ handles) :
    Step b { b with heap := b.heap.release o, handles }
  /-- A context is made, with an empty ledger. -/
  | openLedger (threshold : Nat) :
    Step b { b with
      contexts := b.contexts + 1
      ledgers := (⟨b.contexts⟩, Ledger.new threshold) ::ₘ b.ledgers }
  /-- A context is let go. -/
  | closeLedger {e : ContextId × Ledger} {ledgers : Multiset (ContextId × Ledger)}
      (h : b.ledgers = e ::ₘ ledgers) :
    Step b { b with ledgers }
  /-- A living object is lent, and entered in the ledger. -/
  | lend {K : ContextId} {led : Ledger} {ledgers : Multiset (ContextId × Ledger)}
      (hK : b.ledgers = (K, led) ::ₘ ledgers) {o : ObjectId} {x : ForeignObject}
      (ho : b.heap.isAlive o = true) (hx : b.heap.object? o = some x) (address : Address) :
    Step b { b with
      heap := b.heap.retain o
      regions := b.regions + 1
      ledgers := (K, led.insert (b.heap.retain o).isAlive ⟨b.regions⟩ o) ::ₘ ledgers
      loans := b.nextLoan K o address x.bytes.length none ::ₘ b.loans
      log := .lent K (b.nextLoan K o address x.bytes.length none) :: b.log }
  /-- A living object is lent with a fault, and not entered. -/
  | lendFaulty {K : ContextId} {led : Ledger} (hK : (K, led) ∈ b.ledgers) {o : ObjectId}
      {x : ForeignObject} (ho : b.heap.isAlive o = true) (hx : b.heap.object? o = some x)
      (address : Address) (fault : Error) :
    Step b { b with
      heap := b.heap.retain o
      regions := b.regions + 1
      loans := b.nextLoan K o address x.bytes.length (some fault) ::ₘ b.loans
      log := .lent K (b.nextLoan K o address x.bytes.length (some fault)) :: b.log }
  /-- A loan gives its reference back. -/
  | giveBack {l : Loan} {loans : Multiset Loan} (h : b.loans = l ::ₘ loans) :
    Step b { b with
      heap := heapAfter b.heap l
      loans := { l with isHolding := false } ::ₘ loans }
  | endLoan {l : Loan} {loans : Multiset Loan} (h : b.loans = l ::ₘ loans) :
    Step b { b with
      heap := heapAfter b.heap l
      ledgers := ledgersAfter b.ledgers l
      loans }
  /-- A region is boxed that stands in the ledger: its object comes back. -/
  | boxLent {K : ContextId} {led : Ledger} {ledgers : Multiset (ContextId × Ledger)}
      (hK : b.ledgers = (K, led) ::ₘ ledgers) {r : Region} {o : ObjectId}
      (hr : b.HasRegion r)
      (ho : led.peek b.heap.isAlive r.id = some o) :
    Step b { b with
      heap := b.heap.retain o
      ledgers := (K, led.redeem r.id) ::ₘ ledgers
      handles := o ::ₘ b.handles
      log := .boxed K r o :: b.log }
  /-- A region of native code is boxed as a new object. -/
  | boxOwned {K : ContextId} {r : Region} (hr : b.HasRegion r)
      (howned : r.isAliased = false) (type : CType) (module : String) (bytes : List UInt8) :
    Step b { b with
      heap := (b.heap.alloc type module bytes).1
      handles := b.heap.nextId ::ₘ b.handles
      log := .boxed K r b.heap.nextId :: b.log }
  | own (bytes : List UInt8) :
    Step b { b with
      regions := b.regions + 1
      kept := ⟨⟨b.regions⟩, .owned bytes⟩ ::ₘ b.kept
      log := .owned ⟨⟨b.regions⟩, .owned bytes⟩ :: b.log }
  | copy {r : Region} (hr : b.HasRegion r) :
    Step b { b with kept := r ::ₘ b.kept }
  | forget {r : Region} {kept : Multiset Region} (h : b.kept = r ::ₘ kept) : Step b { b with kept }

def Steps : Books → Books → Prop := Relation.ReflTransGen Step

end Books

end ForeignTypes
