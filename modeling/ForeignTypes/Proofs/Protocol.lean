import ForeignTypes.Proofs.Contexts

/-!
# The protocol of support

What the log of a context tells of a family is read by a small machine: the family waits, a run for
it is under way, or a run for it succeeded.  Every course keeps the machine going, and a family is
ready exactly while it does not wait.  Hence the protocol: runs for one family come one after the
other, each but the last failed, and after a success there are none.

* `Phase`, `phaseOf` — the machine, and where it stands after a log.
* `Orderly`, **`orderly_of_phaseOf`** — the protocol of one family.
* **`Workspace.Course.paced`** — every course keeps the machine going.
* **`Session.Runs.support_protocol`** — the protocol in every context, and the rules of every call.
-/

namespace ForeignTypes

/-! ## What a log tells of a family -/

deriving instance DecidableEq for SupportEvent

/-- Where a family stands. -/
inductive Phase
  | waiting
  | running
  | finished
  /-- The log makes no sense. -/
  | broken
  deriving DecidableEq

/-- A run for the family begins or ends. -/
def Phase.turn : Phase → SupportEvent → Phase
  | waiting, .begun _ => running
  | running, .ended _ (some _) => waiting
  | running, .ended _ none => finished
  | _, _ => broken

def phaseOf (family : String) (log : List SupportEvent) : Phase :=
  (log.filter (·.turn? = some family)).foldl Phase.turn .waiting

/-- The runs for a family come one after the other, and only the last may succeed. -/
structure Orderly (family : String) (log : List SupportEvent) : Prop where
  /-- After a success, no run begins and none ends. -/
  last : ∀ earlier later, log = earlier ++ .ended family none :: later →
    ∀ event ∈ later, event.turn? ≠ some family
  /-- Before another run begins, the one before it failed. -/
  apart : ∀ earlier between later,
    log = earlier ++ .begun family :: (between ++ .begun family :: later) →
    ∃ e, .ended family (some e) ∈ between

namespace Phase

variable {events : List SupportEvent}

lemma foldl_broken (events : List SupportEvent) : events.foldl turn broken = broken := by
  induction events with
  | nil => rfl
  | cons event rest ih => exact ih

/-- A family for which a run succeeded has no more turns. -/
lemma eq_nil_of_foldl_finished (h : events.foldl turn finished ≠ broken) : events = [] := by
  cases events with
  | nil => rfl
  | cons event rest => exact absurd (foldl_broken rest) h

/-- A run that is under way fails before the family waits again. -/
lemma exists_failure_of_foldl {family : String}
    (hevents : ∀ event ∈ events, event.turn? = some family)
    (h : events.foldl turn running = waiting) : ∃ e, .ended family (some e) ∈ events := by
  cases events with
  | nil => exact absurd h (by simp)
  | cons event rest =>
      have hfamily := hevents event List.mem_cons_self
      cases event with
      | ended family' failure =>
          obtain rfl : family' = family := Option.some.inj hfamily
          cases failure with
          | some e => exact ⟨e, List.mem_cons_self⟩
          | none =>
              have hrest : rest.foldl turn finished = waiting := h
              obtain rfl := eq_nil_of_foldl_finished (by rw [hrest]; simp)
              exact absurd hrest (by simp)
      | begun | started | asked | typed =>
          have hrest : rest.foldl turn broken = waiting := h
          exact absurd ((foldl_broken rest).symm.trans hrest) (by simp)

lemma exists_success_of_foldl {p : Phase} (hp : p ≠ finished) (h : events.foldl turn p = finished) :
    ∃ family, .ended family none ∈ events := by
  induction events generalizing p with
  | nil => exact absurd h hp
  | cons event rest ih =>
      by_cases hturn : p.turn event = finished
      · cases event with
        | ended family failure =>
            cases failure with
            | none => exact ⟨family, List.mem_cons_self⟩
            | some e => cases p <;> simp [turn] at hturn
        | _ => cases p <;> simp [turn] at hturn
      · obtain ⟨family, hmem⟩ := ih hturn h
        exact ⟨family, List.mem_cons_of_mem _ hmem⟩

end Phase

section Logs

variable {family : String} {log : List SupportEvent}

lemma phaseOf_append (family : String) (log log' : List SupportEvent) :
    phaseOf family (log ++ log')
      = (log'.filter (·.turn? = some family)).foldl Phase.turn (phaseOf family log) := by
  rw [phaseOf, List.filter_append, List.foldl_append, phaseOf]

lemma phaseOf_ne_broken_of_append {log' : List SupportEvent}
    (h : phaseOf family (log ++ log') ≠ .broken) : phaseOf family log ≠ .broken := by
  intro hbroken
  rw [phaseOf_append, hbroken, Phase.foldl_broken] at h
  exact h rfl

/-- After a success the family is finished. -/
lemma phaseOf_ended (h : phaseOf family (log ++ [.ended family none]) ≠ .broken) :
    phaseOf family (log ++ [.ended family none]) = .finished := by
  have hturn : phaseOf family (log ++ [.ended family none])
      = (phaseOf family log).turn (.ended family none) := by
    rw [phaseOf_append]
    simp [SupportEvent.turn?]
  rw [hturn] at h ⊢
  cases hp : phaseOf family log with
  | running => rfl
  | waiting | finished | broken =>
      rw [hp] at h
      exact absurd rfl h

lemma phaseOf_begun (h : phaseOf family (log ++ [.begun family]) ≠ .broken) :
    phaseOf family log = .waiting ∧ phaseOf family (log ++ [.begun family]) = .running := by
  have hturn : phaseOf family (log ++ [.begun family])
      = (phaseOf family log).turn (.begun family) := by
    rw [phaseOf_append]
    simp [SupportEvent.turn?]
  rw [hturn] at h ⊢
  cases hp : phaseOf family log with
  | waiting => exact ⟨rfl, rfl⟩
  | running | finished | broken =>
      rw [hp] at h
      exact absurd rfl h

/-- **A log that the machine reads to its end is orderly.** -/
theorem orderly_of_phaseOf (h : phaseOf family log ≠ .broken) : Orderly family log where
  last := by
    rintro earlier later rfl event hevent hturn
    rw [List.append_cons, phaseOf_append] at h
    have hended := phaseOf_ended fun hbroken => h (by rw [hbroken, Phase.foldl_broken])
    rw [hended] at h
    have hnil := List.filter_eq_nil_iff.mp (Phase.eq_nil_of_foldl_finished h)
    exact hnil event hevent (by simpa using hturn)
  apart := by
    rintro earlier between later rfl
    have hsplit : earlier ++ .begun family :: (between ++ .begun family :: later)
        = ((earlier ++ [.begun family]) ++ between ++ [.begun family]) ++ later := by simp
    rw [hsplit] at h
    obtain ⟨hwaiting, -⟩ := phaseOf_begun (phaseOf_ne_broken_of_append h)
    have hfirst := phaseOf_ne_broken_of_append (phaseOf_ne_broken_of_append
      (phaseOf_ne_broken_of_append h))
    rw [phaseOf_append, (phaseOf_begun hfirst).2] at hwaiting
    obtain ⟨e, hmem⟩ := Phase.exists_failure_of_foldl
      (fun event hevent => by simpa using (List.mem_filter.mp hevent).2) hwaiting
    exact ⟨e, (List.mem_filter.mp hmem).1⟩

/-- A family is finished exactly if a run for it succeeded. -/
lemma phaseOf_eq_finished_iff (h : phaseOf family log ≠ .broken) :
    phaseOf family log = .finished ↔ .ended family none ∈ log := by
  constructor
  · intro hfinished
    obtain ⟨family', hmem⟩ := Phase.exists_success_of_foldl (by simp) hfinished
    obtain ⟨hlog, hturn⟩ := List.mem_filter.mp hmem
    obtain rfl : family' = family := by simpa [SupportEvent.turn?] using hturn
    exact hlog
  · intro hmem
    obtain ⟨earlier, later, rfl⟩ := List.append_of_mem hmem
    rw [List.append_cons] at h ⊢
    have hended := phaseOf_ended (phaseOf_ne_broken_of_append h)
    rw [phaseOf_append, hended] at h ⊢
    rw [Phase.eq_nil_of_foldl_finished h]
    rfl

end Logs

/-! ## Courses -/

namespace Workspace

variable {w w' : Workspace} {family : String}

def phase (w : Workspace) (family : String) : Phase := phaseOf family w.context.log

lemma phase_eq (w : Workspace) (family : String) :
    w.phase family = (w.turns family).foldl Phase.turn .waiting := rfl

/-- The machine goes on, and a family is ready exactly while it does not wait. -/
structure Paced (w : Workspace) (family : String) : Prop where
  sound : w.phase family ≠ .broken
  ready : w.IsReady family ↔ w.phase family ≠ .waiting

lemma Paced.of_eq (h : w.Paced family) (hturns : w'.turns family = w.turns family)
    (hready : w'.IsReady family ↔ w.IsReady family) : w'.Paced family := by
  have hphase : w'.phase family = w.phase family := by rw [phase_eq, phase_eq, hturns]
  refine ⟨?_, ?_⟩
  · rw [hphase]
    exact h.sound
  · rw [hphase, hready]
    exact h.ready

section Begun

variable {path : String} {support : SupportRegistry} {p : Provider}
  (h : w.context.support.begin (familyOf path) = .ok (support, some p))

include h

/-- A run begins for a family that waits. -/
lemma Paced.phase_begun (hw : w.Paced (familyOf path)) :
    w.phase (familyOf path) = .waiting ∧
      (w.begun support (familyOf path)).phase (familyOf path) = .running := by
  have hwaiting : w.phase (familyOf path) = .waiting := by
    by_contra hother
    exact (begin_spec h).1 (hw.ready.mpr hother)
  refine ⟨hwaiting, ?_⟩
  rw [phase_eq, turns_begun, if_pos rfl, List.foldl_append, ← phase_eq, hwaiting]
  rfl

lemma Paced.begun (hw : w.Paced family) : (w.begun support (familyOf path)).Paced family := by
  by_cases hfamily : familyOf path = family
  · subst hfamily
    obtain ⟨-, hrunning⟩ := hw.phase_begun h
    refine ⟨by simp [hrunning], iff_of_true ?_ (by simp [hrunning])⟩
    exact (isReady_begun h).mpr (.inl rfl)
  · refine hw.of_eq (by simp [turns_begun, hfamily]) ?_
    simp [isReady_begun h, Ne.symm hfamily]

end Begun

/-- **Every course keeps the machine going**, and leaves no run under way that was not. -/
theorem Course.paced {account : List Happening} {r : Except Error Unit}
    (h : Course w account w' r) (hw : w.Paced family) :
    w'.Paced family ∧ (w'.phase family = .running → w.phase family = .running) := by
  let R (w w' : Workspace) : Prop := w.Paced family →
    w'.Paced family ∧ (w'.phase family = .running → w.phase family = .running)
  have : IsTrans Workspace R := ⟨fun w w₁ w₂ h h' hw =>
    ⟨(h' (h hw).1).1, fun hrunning => (h hw).2 ((h' (h hw).1).2 hrunning)⟩⟩
  refine rel (R := R) ?_ ?_ h hw
  · intro w w' hleft hw
    refine ⟨hw.of_eq (hleft.turns family) (hleft.isReady_iff family), fun hrunning => ?_⟩
    rwa [phase_eq, hleft.turns family] at hrunning
  · intro w w' path support p account r hbegin hrun ih hw
    by_cases hfamily : familyOf path = family
    · subst hfamily
      -- the run is under way from its beginning to its end
      obtain ⟨hready, hturns⟩ := hrun.kept ((isReady_begun hbegin).mpr (.inl rfl))
      have hrunning : w'.phase (familyOf path) = .running := by
        rw [phase_eq, hturns, ← phase_eq, (hw.phase_begun hbegin).2]
      have hsettled : (w'.settle (familyOf path) r).phase (familyOf path)
          = Phase.running.turn (.ended (familyOf path) (failure? r)) := by
        rw [phase_eq, turns_settle, if_pos rfl, List.foldl_append, ← phase_eq, hrunning]
        rfl
      cases r with
      | ok _ =>
          refine ⟨⟨?_, ?_⟩, ?_⟩
          · rw [hsettled]
            simp [Phase.turn, failure?]
          · rw [hsettled, isReady_settle]
            simp [Phase.turn, failure?, hready]
          · rw [hsettled]
            simp [Phase.turn, failure?]
      | error e =>
          refine ⟨⟨?_, ?_⟩, ?_⟩
          · rw [hsettled]
            simp [Phase.turn, failure?]
          · rw [hsettled, isReady_settle]
            simp [Phase.turn, failure?]
          · rw [hsettled]
            simp [Phase.turn, failure?]
    · have hturns : (w.begun support (familyOf path)).turns family = w.turns family := by
        simp [turns_begun, hfamily]
      have hturns' : (w'.settle (familyOf path) r).turns family = w'.turns family := by
        simp [turns_settle, hfamily]
      have hready' : (w'.settle (familyOf path) r).IsReady family ↔ w'.IsReady family := by
        simp [isReady_settle, Ne.symm hfamily]
      obtain ⟨hpaced, hrunning⟩ := ih (hw.begun hbegin)
      refine ⟨hpaced.of_eq hturns' hready', fun hphase => ?_⟩
      rw [phase_eq, hturns', ← phase_eq] at hphase
      have hbegun := hrunning hphase
      rwa [phase_eq, hturns] at hbegun

/-- The asking itself is in the account. -/
lemma asked_mem_accountWithin {depth : Nat} {path : String} {answer : Except Error Unit}
    (h : ensureWithin depth w path = some (w', answer)) :
    .asked w path w' answer ∈ accountWithin depth w path := by
  unfold accountWithin
  rcases ensureWithin_cases h with ⟨e, hbegin, rfl, rfl⟩ | ⟨support, hbegin, rfl, rfl⟩
    | ⟨support, p, lower, w₁, rfl, hbegin, hstart, rfl⟩
  · simp [hbegin]
  · simp [hbegin]
  · simp [hbegin, h]

lemma asked_mem_account (w : Workspace) (path : String) :
    .asked w path (w.ensure path).1 (w.ensure path).2 ∈ w.account path := by
  obtain ⟨answer, hasked⟩ := exists_ensureWithin w.fits_families path
  rw [ensure, hasked]
  exact asked_mem_accountWithin hasked

/-- What is true of a context between commands. -/
structure Steady (w : Workspace) : Prop where
  registered : w.Registered
  paced : ∀ family, w.Paced family
  idle : ∀ family, w.phase family ≠ .running

lemma Course.steady {account : List Happening} {r : Except Error Unit}
    (h : Course w account w' r) (hw : w.Steady) : w'.Steady where
  registered := h.registered hw.registered
  paced := fun family => (h.paced (hw.paced family)).1
  idle := fun family hrunning => hw.idle family ((h.paced (hw.paced family)).2 hrunning)

lemma Unturned.steady (h : w.Unturned w') (hw : w.Steady) : w'.Steady where
  registered := fun family hready =>
    h.provided family (hw.registered family ((h.isReady_iff family).mp hready))
  paced := fun family => (hw.paced family).of_eq (h.turns family) (h.isReady_iff family)
  idle := fun family => by
    rw [phase_eq, h.turns family]
    exact hw.idle family

lemma steady_new (process : Process) (K : ContextId) (options : Options) :
    Steady ⟨process, .new K options⟩ where
  registered := fun _ hready => absurd hready (by
    simp [IsReady, Context.new, SupportRegistry.isReady, SupportRegistry.register])
  paced := fun _ => ⟨by simp [phase, phaseOf, Context.new], by
    simp [phase, phaseOf, Context.new, IsReady, SupportRegistry.isReady, SupportRegistry.register]⟩
  idle := fun _ => by simp [phase, phaseOf, Context.new]

end Workspace

/-! ## Runs -/

namespace Session

variable {s : Session} {history : List Performed}

lemma Runs.steady (hruns : start.Runs history s) {name : String} {c : Context}
    (hc : s.contexts.get? name = some c) : Workspace.Steady ⟨s.process, c⟩ := by
  refine hruns.context_induction (P := fun process c _ => Workspace.Steady ⟨process, c⟩)
    ?_ ?_ ?_ hc
  · exact Workspace.steady_new
  · intro process process' c c' hs _ _ _ heq hsteady
    refine Workspace.Unturned.steady (.of_eq ?_ ?_) hsteady
    · show c'.support = c.support
      rw [heq]
    · show c'.log = c.log
      rw [heq]
  · intro w w' account hs r _ hcourse hsteady
    exact hcourse.steady hsteady

/-- Every call of a run, at any depth, went by the rules. -/
lemma Runs.lawful (hruns : start.Runs history s) {K : ContextId} {before after : Workspace}
    {path : String} {answer : Except Error Unit}
    (hasked : .asked before path after answer ∈ happeningsIn history K) :
    Workspace.Lawful before path after answer := by
  induction hruns with
  | nil => exact absurd hasked (by simp [happeningsIn])
  | @cons history t earlier α command ih =>
      rw [happeningsIn_cons, List.mem_append] at hasked
      refine hasked.elim (fun hasked => ?_) ih
      cases passes_perform ⟨command, t⟩ with
      | kept hnothing _ =>
          rw [hnothing] at hasked
          exact absurd hasked (by simp)
      | opened _ _ hnothing _ _ =>
          rw [hnothing] at hasked
          exact absurd hasked (by simp)
      | worked hc haccount hcourse _ _ =>
          rw [haccount] at hasked
          split at hasked
          · exact hcourse.lawful (earlier.steady hc).registered hasked
          · exact absurd hasked (by simp)

/-- **The protocol of support.**  After every run, whatever the modules do:

* every call for a family that was made, from outside or by a module, went by the rules;
* in every context, the families that are ready are those for which a run succeeded, and all of
  them are registered;
* runs for one family came one after the other, none before the last succeeded, and none after a
  success;
* one more call goes by the rules too, and what it answers is what its happening says. -/
theorem Runs.support_protocol (hruns : start.Runs history s) :
    (∀ K before path after answer, .asked before path after answer ∈ happeningsIn history K →
      Workspace.Lawful before path after answer) ∧
    ∀ name c, s.contexts.get? name = some c →
      (∀ family, (c.support.isReady family = true ↔ .ended family none ∈ c.log) ∧
        (c.support.isReady family = true → c.support.contains family = true) ∧
        Orderly family c.log) ∧
      ∀ path, ∃ after answer,
        s.perform (.ensure name path) = (answer.mapError .cause, s.withWork name after) ∧
        .asked ⟨s.process, c⟩ path after answer
          ∈ (⟨.ensure name path, s⟩ : Performed).happeningsIn c.id ∧
        Workspace.Lawful ⟨s.process, c⟩ path after answer := by
  refine ⟨fun K before path after answer => hruns.lawful, fun name c hc => ⟨?_, ?_⟩⟩
  · intro family
    have hsteady := hruns.steady hc
    have hpaced := hsteady.paced family
    refine ⟨?_, hsteady.registered family, orderly_of_phaseOf hpaced.sound⟩
    refine hpaced.ready.trans (Iff.trans ?_ (phaseOf_eq_finished_iff hpaced.sound))
    -- of the four phases, a family is finished or waits
    have hidle := hsteady.idle family
    have hsound := hpaced.sound
    show Workspace.phase ⟨s.process, c⟩ family ≠ .waiting
      ↔ Workspace.phase ⟨s.process, c⟩ family = .finished
    cases hphase : Workspace.phase ⟨s.process, c⟩ family with
    | waiting | finished => simp
    | running => exact absurd hphase hidle
    | broken => exact absurd hphase hsound
  · intro path
    have hasked := Workspace.asked_mem_account ⟨s.process, c⟩ path
    have hhere : (⟨.ensure name path, s⟩ : Performed).happeningsIn c.id
        = Workspace.account ⟨s.process, c⟩ path :=
      (happeningsIn_of_some (by exact hc) c.id).trans (if_pos rfl)
    refine ⟨_, _, perform_ensure hc path, ?_, ?_⟩
    · rw [hhere]
      exact hasked
    · exact (Workspace.course_ensure _ path).lawful (hruns.steady hc).registered hasked

/-- The session in which the support of a family failed in its first run. -/
def failedOnce : Session :=
  (((start.perform (.makeModule "m" "vec" [.failIn 1 "not yet"])).2.perform
    (.provide "main" "m")).2.perform (.ensure "main" "vec.a")).2

/-- The second run succeeds, and both are in the log, one after the other. -/
theorem support_protocol_failedOnce :
    ∃ c, (failedOnce.perform (.ensure "main" "vec.b")).2.contexts.get? "main" = some c ∧
      .ended "vec" (some (.fault "not yet")) ∈ c.log ∧ c.support.isReady "vec" = true ∧
      Orderly "vec" c.log := by
  have hruns := ((((Runs.nil (s := start)).cons
    (.makeModule "m" "vec" [.failIn 1 "not yet"])).cons (.provide "main" "m")).cons
    (.ensure "main" "vec.a")).cons (.ensure "main" "vec.b")
  have hlog : ((failedOnce.perform (.ensure "main" "vec.b")).2.contexts.get? "main").map (·.log)
      = some [.begun "vec", .started "vec" 1, .ended "vec" (some (.fault "not yet")),
        .begun "vec", .started "vec" 2, .ended "vec" none] := by
    decide +kernel
  obtain ⟨c, hc, hlog⟩ := Option.map_eq_some_iff.mp hlog
  obtain ⟨hready, -, horderly⟩ := (hruns.support_protocol.2 "main" c hc).1 "vec"
  exact ⟨c, hc, by simp [hlog], hready.mpr (by simp [hlog]), horderly⟩

end Session

end ForeignTypes
