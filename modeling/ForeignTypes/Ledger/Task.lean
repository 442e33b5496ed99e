import ForeignTypes.Ledger.Bench

/-!
# What is done at a bench

The operations on a ledger as data, so that one can speak of all that may happen to it: entries come
and go, tickets are let go, the ledger is swept, and meanwhile objects are made and die.

* `BenchTask` — one thing that is done.  Whoever enters an object has a handle to it, weak or not,
  so the object was made at some time; by now it may be dead.
* `Bench.perform`, `Bench.work` — a task, and a list of tasks, the first one first.
* `Ledger.living`, `Bench.living` — the number of entries whose object is alive.
* `Bench.mostLiving` — the largest such number at any moment of a run.
-/

namespace ForeignTypes

/-- One thing that is done at a bench. -/
inductive BenchTask
  | makeObject (name : String)
  | dropObject (name : String)
  | makeId (name : String)
  /-- Enter an object for a region, and keep the ticket under a name. -/
  | insert (ticket : String) (r : RegionId) (o : ObjectId)
  | dropTicket (name : String)
  | pop (r : RegionId)
  | sweep
  | dropLedger
  deriving DecidableEq

/-- The number of entries whose object is alive. -/
def Ledger.living (alive : ObjectId → Bool) (l : Ledger) : Nat :=
  l.entries.rows.countP fun row => alive row.2

namespace Bench

/-- Do one thing.  What needs the ledger does nothing once the ledger is gone. -/
def perform (b : Bench) : BenchTask → Bench
  | .makeObject name => b.makeObject name
  | .dropObject name => (b.dropObject name).1
  | .makeId name => b.makeId name
  | .insert ticket r o =>
    if (b.heap.object? o).isSome then (b.insert ticket r o).getD b else b
  | .dropTicket name => (b.dropTicket name).1
  | .pop r => ((b.pop r).map Prod.fst).getD b
  | .sweep => (b.sweep.map Prod.fst).getD b
  | .dropLedger => b.dropLedger.1

def work (b : Bench) (tasks : List BenchTask) : Bench := tasks.foldl perform b

def living (b : Bench) : Nat :=
  match b.ledger with
  | some l => l.living b.heap.isAlive
  | none => 0

/-- The largest number of entries with a living object that there is at any moment of a run, its
start and its end included. -/
def mostLiving (b : Bench) : List BenchTask → Nat
  | [] => b.living
  | task :: tasks => max b.living ((b.perform task).mostLiving tasks)

end Bench

end ForeignTypes
