import ForeignTypes.Ledger.Task
import Mathlib.Tactic.Common

/-!
# How large a ledger grows

A ledger has room up to its mark.  A sweep that finds it at the mark leaves the entries of living
objects only, and moves the mark to twice their number; from there on the mark does not move until
the ledger has grown to it again.  So the mark never runs ahead of what was alive at some moment,
and **a ledger is never larger than twice the most entries of living objects that it held at one
moment**, or than its threshold.

* `Ledger.Roomy` — the size is within the mark, and the mark within the bound.
* `Ledger.Roomy.insert`, … — what the operations do to that.
* **`Bench.size_le_mostLiving`** — the size of a ledger along every run.
-/

namespace ForeignTypes

namespace Table

variable {κ α : Type}

lemma size_keep_le (t : Table κ α) (test : κ → α → Bool) : (t.keep test).size ≤ t.size :=
  List.length_filter_le _ _

variable [DecidableEq κ]

lemma size_erase_le (t : Table κ α) (k : κ) : (t.erase k).size ≤ t.size :=
  t.size_keep_le _

lemma size_put_le (t : Table κ α) (k : κ) (a : α) : (t.put k a).size ≤ t.size + 1 := by
  have hsize (t : Table κ α) : t.size = t.keys.length := (List.length_map _).symm
  rw [hsize, hsize, keys_put]
  split
  · exact Nat.le_succ _
  · exact Nat.le_of_eq (by simp)

end Table

/-! ## Room in a ledger -/

namespace Ledger

variable {n peak : Nat} {l : Ledger}

/-- What a sweep leaves are the entries of living objects. -/
lemma size_sweep (alive : ObjectId → Bool) (l : Ledger) :
    (l.sweep alive).size = l.living alive := by
  simp [sweep, size, living, Table.size, Table.keep, List.countP_eq_length_filter]

/-- A ledger with threshold `n` that is within its mark, and whose mark is within what `peak` living
entries allow. -/
structure Roomy (n peak : Nat) (l : Ledger) : Prop where
  threshold : l.threshold = max n 1
  size : l.size ≤ l.mark
  mark : l.mark ≤ max (max n 1) (2 * peak)

lemma roomy_new (n peak : Nat) : (Ledger.new n).Roomy n peak where
  threshold := rfl
  size := by simp [new, Ledger.size, Table.size]
  mark := Nat.le_max_left _ _

lemma Roomy.redeem (h : l.Roomy n peak) (r : RegionId) : (l.redeem r).Roomy n peak where
  threshold := h.threshold
  size := Nat.le_trans (l.entries.size_erase_le r) h.size
  mark := h.mark

lemma Roomy.sweep (h : l.Roomy n peak) (alive : ObjectId → Bool) :
    (l.sweep alive).Roomy n peak where
  threshold := h.threshold
  size := Nat.le_trans (l.entries.size_keep_le _) h.size
  mark := h.mark

/-- After room was made there is room for one entry more. -/
lemma Roomy.makeRoom (h : l.Roomy n peak) {alive : ObjectId → Bool}
    (hpeak : l.living alive ≤ peak) :
    (l.makeRoom alive).Roomy n peak ∧ (l.makeRoom alive).size < (l.makeRoom alive).mark := by
  have hthreshold := h.threshold
  rw [Ledger.makeRoom]
  split
  · -- the new mark is twice what is left, and at least one if nothing is left
    have hleft := l.size_sweep alive
    have hroom : (l.sweep alive).size < max l.threshold ((l.sweep alive).size * 2) := by omega
    refine ⟨⟨hthreshold, Nat.le_of_lt hroom, ?_⟩, hroom⟩
    show max l.threshold ((l.sweep alive).size * 2) ≤ _
    omega
  · next hmark => exact ⟨h, Nat.lt_of_not_le hmark⟩

/-- An entry finds room, if no more than `peak` objects of the ledger are alive. -/
lemma Roomy.insert (h : l.Roomy n peak) {alive : ObjectId → Bool} (hpeak : l.living alive ≤ peak)
    (r : RegionId) (o : ObjectId) : (l.insert alive r o).Roomy n peak := by
  obtain ⟨hroomy, hlt⟩ := h.makeRoom hpeak
  have hput := (l.makeRoom alive).entries.size_put_le r o
  exact ⟨hroomy.threshold, Nat.le_trans hput hlt, hroomy.mark⟩

end Ledger

/-! ## Along a run -/

namespace Bench

variable {n peak : Nat} {b : Bench}

/-- The ledger is roomy, as long as it is there. -/
def Roomy (n peak : Nat) (b : Bench) : Prop := ∀ l, b.ledger = some l → l.Roomy n peak

lemma roomy_new (n peak : Nat) : (Bench.new n).Roomy n peak := by
  intro l hl
  obtain rfl := Option.some.inj hl
  exact Ledger.roomy_new n peak

lemma Roomy.redeem (h : b.Roomy n peak) (r : RegionId) : (b.redeem r).Roomy n peak := by
  intro l hl
  obtain ⟨l₀, hl₀, rfl⟩ := Option.map_eq_some_iff.mp hl
  exact (h l₀ hl₀).redeem r

lemma Roomy.insert (h : b.Roomy n peak) (hpeak : b.living ≤ peak) (ticket : String) (r : RegionId)
    (o : ObjectId) : ((b.insert ticket r o).getD b).Roomy n peak := by
  cases hl : b.ledger with
  | none => simpa [Bench.insert, hl] using h
  | some l =>
      simp only [living, hl] at hpeak
      have hentered : { b with
          ledger := some (l.insert b.heap.isAlive r o)
          tickets := b.tickets.put ticket r }.Roomy n peak := by
        intro l' hl'
        obtain rfl := Option.some.inj hl'
        exact (h l hl).insert hpeak r o
      simp only [Bench.insert, hl]
      -- the ticket that the name stood for takes its entry out again
      cases b.tickets.get? ticket with
      | none => exact hentered
      | some old => exact hentered.redeem old

/-- **Every task leaves the ledger roomy.** -/
lemma Roomy.perform (h : b.Roomy n peak) (hpeak : b.living ≤ peak) (task : BenchTask) :
    (b.perform task).Roomy n peak := by
  cases task with
  | makeObject name => exact h
  | dropObject name =>
      simp only [Bench.perform, Bench.dropObject]
      cases b.objects.get? name with
      | none => exact h
      | some o => exact h
  | makeId name => exact h
  | insert ticket r o =>
      simp only [Bench.perform]
      split
      · exact h.insert hpeak ticket r o
      · exact h
  | dropTicket name =>
      simp only [Bench.perform, Bench.dropTicket]
      cases b.tickets.get? name with
      | none => exact h
      | some r => exact Roomy.redeem (b := { b with tickets := b.tickets.erase name }) h r
  | pop r =>
      cases hl : b.ledger with
      | none => simpa [Bench.perform, Bench.pop, hl] using h
      | some l =>
          intro l' hl'
          obtain rfl : l.redeem r = l' := by
            simpa [Bench.perform, Bench.pop, Ledger.pop, hl] using hl'
          exact (h l hl).redeem r
  | sweep =>
      cases hl : b.ledger with
      | none => simpa [Bench.perform, Bench.sweep, hl] using h
      | some l =>
          intro l' hl'
          obtain rfl : l.sweep b.heap.isAlive = l' := by
            simpa [Bench.perform, Bench.sweep, hl] using hl'
          exact (h l hl).sweep _
  | dropLedger =>
      intro l hl
      simp [Bench.perform, Bench.dropLedger] at hl

/-- By induction on the tasks, where `peak` is at least what lives at any moment. -/
lemma Roomy.work (h : b.Roomy n peak) (tasks : List BenchTask)
    (hpeak : b.mostLiving tasks ≤ peak) : (b.work tasks).Roomy n peak := by
  induction tasks generalizing b with
  | nil => exact h
  | cons task tasks ih =>
      simp only [mostLiving, Nat.max_le] at hpeak
      exact ih (h.perform hpeak.1 task) hpeak.2

/-- **A ledger does not grow without living objects.**  Along every run its size is at most the
threshold, which is one at least, or twice the largest number of entries with a living object that
it held at one moment of the run. -/
theorem size_le_mostLiving (n : Nat) (tasks : List BenchTask) {l : Ledger}
    (hl : ((Bench.new n).work tasks).ledger = some l) :
    l.size ≤ max (max n 1) (2 * (Bench.new n).mostLiving tasks) := by
  have hroomy := (roomy_new n _).work tasks (Nat.le_refl _) l hl
  exact Nat.le_trans hroomy.size hroomy.mark

/-- A living object and a dead one are entered. -/
def crowded : List BenchTask :=
  [.makeObject "a", .makeObject "b", .dropObject "b", .insert "t" ⟨0⟩ ⟨0⟩, .insert "u" ⟨1⟩ ⟨1⟩]

/-- The bound is reached: one entry with a living object at most, and two entries. -/
theorem size_le_mostLiving_crowded :
    (Bench.new 0).mostLiving crowded = 1 ∧
      ∃ l, ((Bench.new 0).work crowded).ledger = some l ∧ l.size = 2 ∧
        l.size ≤ max (max 0 1) (2 * (Bench.new 0).mostLiving crowded) :=
  ⟨rfl, _, rfl, rfl, size_le_mostLiving 0 crowded rfl⟩

end Bench

end ForeignTypes
