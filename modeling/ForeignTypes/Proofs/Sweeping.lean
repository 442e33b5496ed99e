import ForeignTypes.Ledger.Task
import ForeignTypes.Proofs.Custody

/-!
# Sweeps go unseen

When a ledger is swept depends on all that happened to it, but what is swept out are entries of dead
objects only.  A look into the ledger never answers a dead object, and a dead object does not come
back to life.  So nobody can tell a ledger that is swept from one that never is: the first has the
entries of the second, but for some whose object is dead.

* `Ledger.enter`, `Bench.performUnswept`, `Bench.workUnswept` — the same work on a ledger that is
  never swept.
* `Ledger.Trims` — the entries of another ledger, but for some whose object is dead.
* `Ledger.Trims.sweep`, `Ledger.Trims.enter`, … — what the operations do to that, one for each.
* **`Bench.Trims.work`** — the ledger that is swept and the one that never is, along every run.
-/

namespace ForeignTypes

/-! ## Work without sweeps -/

/-- Enter the object of a region, whatever room there is. -/
def Ledger.enter (l : Ledger) (r : RegionId) (o : ObjectId) : Ledger :=
  { l with entries := l.entries.put r o }

namespace Bench

/-- Enter an object without making room, and otherwise as a ledger does that is swept. -/
def enter (b : Bench) (ticket : String) (r : RegionId) (o : ObjectId) : Option Bench := do
  let l ← b.ledger
  let entered := { b with ledger := some (l.enter r o), tickets := b.tickets.put ticket r }
  match b.tickets.get? ticket with
  | some old => return entered.redeem old
  | none => return entered

/-- Do one thing at a bench whose ledger is never swept. -/
def performUnswept (b : Bench) : BenchTask → Bench
  | .insert ticket r o =>
    if (b.heap.object? o).isSome then (b.enter ticket r o).getD b else b
  | .sweep => b
  | task => b.perform task

def workUnswept (b : Bench) (tasks : List BenchTask) : Bench := tasks.foldl performUnswept b

end Bench

/-! ## What a swept ledger has -/

namespace Ledger

/-- The entries of `l` are those of `full`, but for some whose object is dead; and every object that
is entered was made. -/
structure Trims (heap : Heap) (l full : Ledger) : Prop where
  entered : ∀ r o, l.entries.get? r = some o → full.entries.get? r = some o
  kept : ∀ r o, full.entries.get? r = some o → heap.isAlive o = true → l.entries.get? r = some o
  made : ∀ r o, full.entries.get? r = some o → o.index < heap.objects.length

variable {heap heap' : Heap} {l full : Ledger}

lemma Trims.of_empty (hl : l.entries = {}) (hfull : full.entries = {}) : l.Trims heap full where
  entered := by simp [hl]
  kept := by simp [hfull]
  made := by simp [hfull]

/-- No look tells the two ledgers apart. -/
lemma Trims.peek (h : l.Trims heap full) (r : RegionId) :
    l.peek heap.isAlive r = full.peek heap.isAlive r := by
  refine Option.ext fun o => ?_
  rw [peek_eq_some, peek_eq_some]
  constructor
  · rintro ⟨ho, halive⟩
    exact ⟨h.entered r o ho, halive⟩
  · rintro ⟨ho, halive⟩
    exact ⟨h.kept r o ho halive, halive⟩

/-- What is missing is dead. -/
lemma Trims.dead (h : l.Trims heap full) {r : RegionId} {o : ObjectId}
    (ho : full.entries.get? r = some o) (hnone : l.entries.get? r = none) :
    heap.isAlive o = false := by
  rw [← Bool.not_eq_true]
  intro halive
  exact absurd ((h.kept r o ho halive).symm.trans hnone) (by simp)

/-- Objects that die, and new ones, make no difference. -/
lemma Trims.mono (h : l.Trims heap full) (hlater : heap.Ages heap') : l.Trims heap' full where
  entered := h.entered
  kept := fun r o ho halive => h.kept r o ho (hlater.fades o (h.made r o ho) halive)
  made := fun r o ho => Nat.lt_of_lt_of_le (h.made r o ho) hlater.objects.length_le

lemma Trims.sweep (h : l.Trims heap full) : (l.sweep heap.isAlive).Trims heap full where
  entered := by
    intro r o ho
    simp only [Ledger.sweep, Table.get?_keep, Option.filter_eq_some_iff] at ho
    exact h.entered r o ho.1
  kept := by
    intro r o ho halive
    simp [Ledger.sweep, Table.get?_keep, h.kept r o ho halive, Option.filter, halive]
  made := h.made

lemma Trims.makeRoom (h : l.Trims heap full) : (l.makeRoom heap.isAlive).Trims heap full where
  entered := fun r o ho => h.entered r o (get?_of_get?_makeRoom ho)
  kept := fun r o ho halive => get?_makeRoom_of_alive halive (h.kept r o ho halive)
  made := h.made

lemma Trims.enter (h : l.Trims heap full) {o : ObjectId} (ho : o.index < heap.objects.length)
    (r : RegionId) : (l.enter r o).Trims heap (full.enter r o) where
  entered := by
    intro r' o' ho'
    simp only [Ledger.enter, Table.get?_put] at ho' ⊢
    split at ho'
    · next heq => rwa [if_pos heq]
    · next hne =>
        rw [if_neg hne]
        exact h.entered r' o' ho'
  kept := by
    intro r' o' ho' halive
    simp only [Ledger.enter, Table.get?_put] at ho' ⊢
    split at ho'
    · next heq => rwa [if_pos heq]
    · next hne =>
        rw [if_neg hne]
        exact h.kept r' o' ho' halive
  made := by
    intro r' o' ho'
    simp only [Ledger.enter, Table.get?_put] at ho'
    split at ho'
    · exact Option.some.inj ho' ▸ ho
    · exact h.made r' o' ho'

/-- An insertion makes room and enters. -/
lemma Trims.insert (h : l.Trims heap full) {o : ObjectId} (ho : o.index < heap.objects.length)
    (r : RegionId) : (l.insert heap.isAlive r o).Trims heap (full.enter r o) :=
  h.makeRoom.enter ho r

lemma Trims.redeem (h : l.Trims heap full) (r : RegionId) :
    (l.redeem r).Trims heap (full.redeem r) where
  entered := by
    intro r' o ho
    rw [get?_redeem] at ho ⊢
    split at ho
    · exact absurd ho (by simp)
    · next hne =>
        rw [if_neg hne]
        exact h.entered r' o ho
  kept := by
    intro r' o ho halive
    rw [get?_redeem] at ho ⊢
    split at ho
    · exact absurd ho (by simp)
    · next hne =>
        rw [if_neg hne]
        exact h.kept r' o ho halive
  made := by
    intro r' o ho
    rw [get?_redeem] at ho
    split at ho
    · exact absurd ho (by simp)
    · exact h.made r' o ho

end Ledger

/-! ## Along a run -/

namespace Bench

variable {b full : Bench} {l f : Ledger}

/-- Two benches with the same things around their ledgers, of which the first has what the second
has but for dead objects; or neither has a ledger any more. -/
inductive Trims : Bench → Bench → Prop
  | there {b : Bench} {l f : Ledger} (h : l.Trims b.heap f) :
    Trims { b with ledger := some l } { b with ledger := some f }
  | gone {b : Bench} (h : b.ledger = none) : Trims b b

lemma trims_new (n : Nat) : (Bench.new n).Trims (Bench.new n) :=
  .there (b := Bench.new n) (.of_empty rfl rfl)

lemma Trims.redeem (h : b.Trims full) (r : RegionId) : (b.redeem r).Trims (full.redeem r) := by
  cases h with
  | @there b l f h => exact .there (b := b) (h.redeem r)
  | gone h => exact .gone (by simp [Bench.redeem, h])

lemma Trims.insert (h : b.Trims full) {o : ObjectId} (ho : o.index < b.heap.objects.length)
    (ticket : String) (r : RegionId) :
    ((b.insert ticket r o).getD b).Trims ((full.enter ticket r o).getD full) := by
  cases h with
  | @there b l f h =>
      have hentered :=
        Trims.there (b := { b with tickets := b.tickets.put ticket r }) (h.insert ho r)
      simp only [Bench.insert, Bench.enter]
      -- the ticket that the name stood for takes its entry out again
      cases b.tickets.get? ticket with
      | none => exact hentered
      | some old => exact hentered.redeem old
  | gone h =>
      simp only [Bench.insert, Bench.enter, h]
      exact .gone h

lemma ages_makeObject (b : Bench) (name : String) : b.heap.Ages (b.makeObject name).heap := by
  have hmade := b.heap.ages_alloc (.scalar .int8) ForeignObject.scalarModule [0]
  simp only [makeObject]
  cases b.objects.get? name with
  | none => exact hmade
  | some old => exact hmade.trans (Heap.ages_release _ old)

/-- Around the ledgers the same things happen, and objects are made or die. -/
lemma Trims.around (h : b.Trims full) {heap : Heap} (hlater : b.heap.Ages heap)
    (objects : Table String ObjectId) (ids tickets : Table String RegionId) (regions : Nat) :
    { b with heap, objects, ids, tickets, regions }.Trims
      { full with heap, objects, ids, tickets, regions } := by
  cases h with
  | @there b l f h =>
      exact .there (b := { b with heap, objects, ids, tickets, regions }) (h.mono hlater)
  | gone h => exact .gone h

lemma Trims.eq_ledger (h : b.Trims full) : full = { b with ledger := full.ledger } := by
  cases h with
  | there _ => rfl
  | gone _ => rfl

/-- **Every task keeps the two benches together**, the one whose ledger is swept and the other. -/
lemma Trims.perform (h : b.Trims full) (task : BenchTask) :
    (b.perform task).Trims (full.performUnswept task) := by
  have hrest := h.eq_ledger
  cases task with
  | makeObject name =>
      rw [hrest] at h ⊢
      exact h.around (b.ages_makeObject name) _ _ _ _
  | dropObject name =>
      rw [hrest] at h ⊢
      simp only [Bench.perform, performUnswept, Bench.dropObject]
      cases b.objects.get? name with
      | none => exact h
      | some o => exact h.around (b.heap.ages_release o) _ _ _ _
  | makeId name =>
      rw [hrest] at h ⊢
      exact h.around (.refl _) _ _ _ _
  | insert ticket r o =>
      have hmade : full.heap.object? o = b.heap.object? o := by rw [hrest]
      simp only [Bench.perform, performUnswept, hmade]
      split
      · next ho =>
          obtain ⟨x, hx⟩ := Option.isSome_iff_exists.mp ho
          exact h.insert (Heap.index_lt_of_object? hx) ticket r
      · exact h
  | dropTicket name =>
      rw [hrest] at h ⊢
      simp only [Bench.perform, performUnswept, Bench.dropTicket]
      cases b.tickets.get? name with
      | none => exact h
      | some r =>
          have haround := h.around (.refl _) b.objects b.ids (b.tickets.erase name) b.regions
          exact haround.redeem r
  | pop r =>
      cases h with
      | @there b l f h => exact .there (b := b) (h.redeem r)
      | gone h =>
          simp only [performUnswept, Bench.perform, Bench.pop, h]
          exact .gone h
  | sweep =>
      cases h with
      | @there b l f h => exact .there (b := b) h.sweep
      | gone h =>
          simp only [performUnswept, Bench.perform, Bench.sweep, h]
          exact .gone h
  | dropLedger =>
      rw [hrest]
      exact .gone rfl

/-- By induction on the tasks. -/
lemma Trims.work (h : b.Trims full) (tasks : List BenchTask) :
    (b.work tasks).Trims (full.workUnswept tasks) := by
  induction tasks generalizing b full with
  | nil => exact h
  | cons task tasks ih => exact ih (h.perform task)

/-- **Looks do not tell the two benches apart**, and all that they do not show is dead. -/
lemma Trims.looks (h : b.Trims full) :
    full = { b with ledger := full.ledger } ∧ (∀ r, b.peek r = full.peek r) ∧
      Option.Rel (fun l f =>
        (∀ r o, l.entries.get? r = some o → f.entries.get? r = some o) ∧
        ∀ r o, f.entries.get? r = some o → l.entries.get? r = none → b.heap.isAlive o = false)
        b.ledger full.ledger := by
  refine ⟨h.eq_ledger, ?_, ?_⟩
  · intro r
    cases h with
    | @there b l f h => exact congrArg some (h.peek r)
    | gone _ => rfl
  · cases h with
    | @there b l f h => exact .some ⟨h.entered, fun r o => h.dead⟩
    | gone h =>
        rw [h]
        exact .none

end Bench

end ForeignTypes
