import ForeignTypes.Proofs.Sweeping

/-!
# How long an entry stays

Whoever enters an object for a region gets a ticket, and the entry is to stay until that ticket is
let go.  But a ticket knows the region only, not the entry.  So if a region is entered again while a
ticket from before is still kept, then that ticket, too, takes the new entry out.

An entry stays until a ticket for its region is let go, its own or one from before, until the entry
is taken out, or until the region is entered again.  Nothing else touches it as long as its object
lives.  If no ticket from before is kept, then the ticket in question is the entry's own.

* `BenchTask.Ends` — what ends the entry of a region.
* `Bench.Registered` — a region has its object and its tickets, and none besides.
* `Bench.Registered.perform`, `Bench.Registered.work` — a task that does not end it, and many.
* **`Bench.entry_stays`**, **`Bench.not_entry_stays`** — how long an entry stays, and an entry that
  goes with the ticket of another.
-/

namespace ForeignTypes

/-- What ends the entry of a region, where `held` are the names of the tickets for the region: the
region is entered again or its entry taken out, or one of the tickets is let go, be it that another
ticket takes its name; or the whole ledger goes. -/
def BenchTask.Ends (held : String → Prop) (r : RegionId) : BenchTask → Prop
  | .insert ticket r' _ => r' = r ∨ held ticket
  | .dropTicket name => held name
  | .pop r' => r' = r
  | .dropLedger => True
  | .makeObject _ | .dropObject _ | .makeId _ | .sweep => False

namespace Bench

/-- The region has its object, as long as that lives, and its tickets are those of these names. -/
structure Registered (held : String → Prop) (r : RegionId) (o : ObjectId) (b : Bench) : Prop where
  entry : ∃ l, b.ledger = some l ∧ (b.heap.isAlive o = true → l.entries.get? r = some o)
  tickets : ∀ name, b.tickets.get? name = some r ↔ held name
  made : o.index < b.heap.objects.length

variable {held : String → Prop} {r r' : RegionId} {o : ObjectId} {b : Bench} {l : Ledger}
  {task : BenchTask}

/-! ## What leaves an entry alone -/

lemma perform_pop (hl : b.ledger = some l) (r : RegionId) : b.perform (.pop r) = b.redeem r := by
  simp [Bench.perform, Bench.pop, Ledger.pop, Bench.redeem, hl]

lemma Registered.redeem (h : b.Registered held r o) (hne : r' ≠ r) :
    (b.redeem r').Registered held r o := by
  obtain ⟨l, hl, hentry⟩ := h.entry
  refine ⟨⟨l.redeem r', by simp [Bench.redeem, hl], fun halive => ?_⟩, h.tickets, h.made⟩
  rw [Ledger.get?_redeem, if_neg hne]
  exact hentry halive

/-- Objects are made and die. -/
lemma Registered.ages (h : b.Registered held r o) {heap : Heap} (hlater : b.heap.Ages heap)
    (objects : Table String ObjectId) : { b with heap, objects }.Registered held r o := by
  obtain ⟨l, hl, hentry⟩ := h.entry
  refine ⟨⟨l, hl, fun halive => hentry ?_⟩, h.tickets, ?_⟩
  · exact hlater.fades o h.made halive
  · exact Nat.lt_of_lt_of_le h.made hlater.objects.length_le

/-- Another region is entered, and its ticket takes no name of a ticket for this one. -/
lemma Registered.insert (h : b.Registered held r o) {ticket : String} (hne : r' ≠ r)
    (hticket : ¬held ticket) (o' : ObjectId) :
    ((b.insert ticket r' o').getD b).Registered held r o := by
  obtain ⟨l, hl, hentry⟩ := h.entry
  have hentered : { b with
      ledger := some (l.insert b.heap.isAlive r' o')
      tickets := b.tickets.put ticket r' }.Registered held r o := by
    refine ⟨⟨_, rfl, fun halive => ?_⟩, fun name => ?_, h.made⟩
    · rw [Ledger.get?_insert, if_neg hne]
      exact Ledger.get?_makeRoom_of_alive halive (hentry halive)
    · show (b.tickets.put ticket r').get? name = some r ↔ held name
      rw [Table.get?_put]
      split
      · next heq => simp [hne, ← heq, hticket]
      · exact h.tickets name
  simp only [Bench.insert, hl]
  -- the ticket that the name stood for takes its own entry out, which is another one
  cases hold : b.tickets.get? ticket with
  | none => exact hentered
  | some old =>
      have hne : old ≠ r := by
        rintro rfl
        exact hticket ((h.tickets ticket).mp hold)
      exact hentered.redeem hne

lemma Registered.dropTicket (h : b.Registered held r o) {name : String} (hname : ¬held name) :
    (b.dropTicket name).1.Registered held r o := by
  simp only [Bench.dropTicket]
  cases hold : b.tickets.get? name with
  | none => exact h
  | some old =>
      have hne : old ≠ r := by
        rintro rfl
        exact hname ((h.tickets name).mp hold)
      have hrest : { b with tickets := b.tickets.erase name }.Registered held r o := by
        refine ⟨h.entry, fun name' => ?_, h.made⟩
        show (b.tickets.erase name).get? name' = some r ↔ held name'
        rw [Table.get?_erase]
        split
        · next heq => simp [← heq, hname]
        · exact h.tickets name'
      exact hrest.redeem hne

/-- **What does not end an entry leaves it alone.** -/
lemma Registered.perform (h : b.Registered held r o) (hquiet : ¬task.Ends held r) :
    (b.perform task).Registered held r o := by
  obtain ⟨l, hl, hentry⟩ := h.entry
  cases task with
  | makeObject name => exact h.ages (b.ages_makeObject name) _
  | dropObject name =>
      simp only [Bench.perform, Bench.dropObject]
      cases b.objects.get? name with
      | none => exact h
      | some o' => exact h.ages (b.heap.ages_release o') _
  | makeId name => exact ⟨h.entry, h.tickets, h.made⟩
  | insert ticket r' o' =>
      obtain ⟨hne, hticket⟩ := not_or.mp hquiet
      simp only [Bench.perform]
      split
      · exact h.insert hne hticket o'
      · exact h
  | dropTicket name => exact h.dropTicket hquiet
  | pop r' =>
      rw [perform_pop hl]
      exact h.redeem hquiet
  | sweep =>
      have hsweep : b.perform .sweep = { b with ledger := some (l.sweep b.heap.isAlive) } := by
        simp [Bench.perform, Bench.sweep, hl]
      rw [hsweep]
      refine ⟨⟨_, rfl, fun halive => ?_⟩, h.tickets, h.made⟩
      have halive : b.heap.isAlive o = true := halive
      simp [Ledger.sweep, Table.get?_keep, hentry halive, Option.filter, halive]
  | dropLedger => exact absurd trivial hquiet

/-- By induction on the tasks. -/
lemma Registered.work (h : b.Registered held r o) {tasks : List BenchTask}
    (hquiet : ∀ task ∈ tasks, ¬task.Ends held r) : (b.work tasks).Registered held r o := by
  induction tasks generalizing b with
  | nil => exact h
  | cons task tasks ih =>
      exact ih (h.perform (hquiet task (by simp))) fun task' htask' => hquiet task' (by simp [htask'])

/-! ## What is found, and what is gone -/

lemma Registered.peek (h : b.Registered held r o) (halive : b.heap.isAlive o = true) :
    b.peek r = some (some o) := by
  obtain ⟨l, hl, hentry⟩ := h.entry
  simp [Bench.peek, hl, Ledger.peek_eq_some.mpr ⟨hentry halive, halive⟩]

lemma peek_redeem (hl : b.ledger = some l) (r : RegionId) : (b.redeem r).peek r = some none := by
  simp [Bench.peek, Bench.redeem, hl, Ledger.peek_redeem]

/-- Each of the tickets ends the entry, whichever insertion it came from. -/
lemma Registered.peek_dropTicket (h : b.Registered held r o) {name : String} (hname : held name) :
    (b.perform (.dropTicket name)).peek r = some none := by
  obtain ⟨l, hl, -⟩ := h.entry
  have hdrop : b.perform (.dropTicket name)
      = { b with tickets := b.tickets.erase name }.redeem r := by
    simp [Bench.perform, Bench.dropTicket, (h.tickets name).mpr hname]
  rw [hdrop]
  exact peek_redeem hl r

lemma Registered.peek_pop (h : b.Registered held r o) : (b.perform (.pop r)).peek r = some none := by
  obtain ⟨l, hl, -⟩ := h.entry
  rw [perform_pop hl]
  exact peek_redeem hl r

/-! ## How long an entry stays -/

/-- The names of the tickets for a region once it has been entered with this ticket: the ticket
itself, and those for the region that were kept before. -/
def TicketFor (b : Bench) (ticket : String) (r : RegionId) (name : String) : Prop :=
  name = ticket ∨ b.tickets.get? name = some r

lemma registered_insert {ticket : String} (hl : b.ledger = some l)
    (ho : (b.heap.object? o).isSome = true) (hticket : b.tickets.get? ticket ≠ some r) :
    (b.perform (.insert ticket r o)).Registered (b.TicketFor ticket r) r o := by
  obtain ⟨x, hx⟩ := Option.isSome_iff_exists.mp ho
  have hentered : { b with
      ledger := some (l.insert b.heap.isAlive r o)
      tickets := b.tickets.put ticket r }.Registered (b.TicketFor ticket r) r o := by
    refine ⟨⟨_, rfl, fun _ => ?_⟩, fun name => ?_, Heap.index_lt_of_object? hx⟩
    · rw [Ledger.get?_insert, if_pos rfl]
    · show (b.tickets.put ticket r).get? name = some r ↔ b.TicketFor ticket r name
      rw [Table.get?_put]
      split
      · next heq => simp [TicketFor, heq]
      · next hne => simp [TicketFor, Ne.symm hne]
  simp only [Bench.perform, ho, if_true, Bench.insert, hl]
  -- the ticket that the name stood for is let go, and it was for another region
  cases hold : b.tickets.get? ticket with
  | none => exact hentered
  | some old =>
      have hne : old ≠ r := fun heq => hticket (heq ▸ hold)
      exact hentered.redeem hne

/-- **How long an entry stays.**  The object of a region is entered, under the name of a ticket that
was not for this region before.  After any tasks of which none ends the entry, that is

* until a ticket for the region is let go, the entry's own or one that was kept from before,
* until the entry is taken out, the region is entered again, or the ledger goes,

the entry is there as long as its object lives, and a look finds the object.  Each of these tickets
does end the entry, and so does taking it out. -/
theorem entry_stays {ticket : String} (hl : b.ledger = some l)
    (ho : (b.heap.object? o).isSome = true) (hticket : b.tickets.get? ticket ≠ some r)
    (tasks : List BenchTask) (hquiet : ∀ task ∈ tasks, ¬task.Ends (b.TicketFor ticket r) r) :
    let later := (b.perform (.insert ticket r o)).work tasks
    (later.heap.isAlive o = true →
      (∃ l', later.ledger = some l' ∧ l'.entries.get? r = some o) ∧ later.peek r = some (some o)) ∧
    (∀ name, b.TicketFor ticket r name →
      (later.perform (.dropTicket name)).peek r = some none) ∧
    (later.perform (.pop r)).peek r = some none := by
  have hregistered := (registered_insert hl ho hticket).work hquiet
  refine ⟨fun halive => ⟨?_, hregistered.peek halive⟩, fun name hname => ?_, hregistered.peek_pop⟩
  · obtain ⟨l', hl', hentry⟩ := hregistered.entry
    exact ⟨l', hl', hentry halive⟩
  · exact hregistered.peek_dropTicket hname

/-- A region is entered with one object. -/
def enteredOnce : Bench :=
  (new 64).work [.makeObject "a", .makeObject "b", .makeId "i", .insert "t" ⟨0⟩ ⟨0⟩]

/-- The region is entered again with another object.  That entry outlives a sweep, the death of the
first object and the entry of another region. -/
theorem entry_stays_enteredOnce :
    let later := (enteredOnce.perform (.insert "u" ⟨0⟩ ⟨1⟩)).work
      [.dropObject "a", .sweep, .makeId "j", .insert "v" ⟨1⟩ ⟨1⟩, .dropTicket "v"]
    later.peek ⟨0⟩ = some (some ⟨1⟩) ∧ (later.perform (.dropTicket "u")).peek ⟨0⟩ = some none := by
  have hquiet : ∀ task ∈ [BenchTask.dropObject "a", .sweep, .makeId "j", .insert "v" ⟨1⟩ ⟨1⟩,
      .dropTicket "v"], ¬task.Ends (enteredOnce.TicketFor "u" ⟨0⟩) ⟨0⟩ := by
    have hv : ¬enteredOnce.TicketFor "u" ⟨0⟩ "v" := by
      rintro (h | h)
      · exact absurd h (by decide)
      · exact absurd h (by decide)
    simp [BenchTask.Ends, hv]
  obtain ⟨hstays, hends, -⟩ := entry_stays (b := enteredOnce) (o := ⟨1⟩) rfl rfl (by decide) _ hquiet
  exact ⟨(hstays (by decide)).2, hends "u" (.inl rfl)⟩

/-- **An entry goes with the ticket of another**: the ticket of the first entry is let go, and the
second one is gone, though its object lives and its own ticket is kept. -/
theorem not_entry_stays :
    let twice := enteredOnce.perform (.insert "u" ⟨0⟩ ⟨1⟩)
    let later := twice.perform (.dropTicket "t")
    twice.peek ⟨0⟩ = some (some ⟨1⟩) ∧ later.peek ⟨0⟩ = some none ∧
      later.heap.isAlive ⟨1⟩ = true ∧ later.tickets.get? "u" = some ⟨0⟩ := by
  decide

end Bench

end ForeignTypes
