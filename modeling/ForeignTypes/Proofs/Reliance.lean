import ForeignTypes.Proofs.Protocol

/-!
# What a family relies on

A support module that asks for another family and is told that there is support may rely on it.  It
is told so of a family that is ready and of one that is being made ready, since a family is marked
before its module runs.  What was ready then stays ready; but a run that was still under way may
fail, and the family that relied on it is then left behind.

* `SupportEvent.granted?`, `Truthful` — what modules were told, and that it was so at the time.
* `nextTurn?`, **`phaseOf_of_running`** — what comes of a run that was under way.
* `ReliesOn` — a family was told of another in the run that made it ready.
* `Workspace.Candid`, **`Workspace.tellsTruth_ensureWithin`** — whatever modules do, they are told
  the truth.
* **`Session.Runs.dependencies_ready`** — what a family relies on is ready, or failed in the run that
  was under way.
* **`Session.not_dependencies_ready`** — the family that is left behind.
-/

namespace ForeignTypes

/-! ## What modules are told -/

/-- The family of which a module was told that there is support. -/
def SupportEvent.granted? : SupportEvent → Option String
  | asked _ _ path none => some (familyOf path)
  | begun _ | ended _ _ | started _ _ | asked _ _ _ (some _) | typed _ _ _ _ => none

/-- Whenever a module was told of a family, the family did not wait. -/
def Truthful (log : List SupportEvent) : Prop :=
  ∀ earlier event later family, log = earlier ++ event :: later →
    event.granted? = some family → phaseOf family earlier ≠ .waiting

/-- The next time that a run for the family begins or ends. -/
def nextTurn? (family : String) (log : List SupportEvent) : Option SupportEvent :=
  log.find? (·.turn? = some family)

/-- At this place in the log, a module for `family` was told that there is support for `other`, and
the next turn of `family` is the success of its run. -/
structure ReliesOn (family other : String) (earlier later log : List SupportEvent) : Prop where
  granted : ∃ run path, familyOf path = other ∧
    log = earlier ++ .asked family run path none :: later
  succeeded : nextTurn? family later = some (.ended family none)

section Logs

variable {family : String} {log earlier later : List SupportEvent} {event : SupportEvent}

lemma truthful_nil : Truthful [] := by
  intro earlier event later family h
  exact absurd h (by simp)

lemma Truthful.concat (h : Truthful log)
    (hevent : ∀ family, event.granted? = some family → phaseOf family log ≠ .waiting) :
    Truthful (log ++ [event]) := by
  intro earlier event' later family hsplit hgranted
  rcases List.eq_nil_or_concat later with rfl | ⟨later, last, rfl⟩
  · obtain ⟨rfl, heq⟩ := List.append_inj' hsplit rfl
    obtain rfl := List.head_eq_of_cons_eq heq
    exact hevent family hgranted
  · rw [List.concat_eq_append, ← List.cons_append, ← List.append_assoc] at hsplit
    obtain ⟨hlog, -⟩ := List.append_inj' hsplit rfl
    exact h earlier event' later family hlog hgranted

lemma Truthful.concat_of_none (h : Truthful log) (hevent : event.granted? = none) :
    Truthful (log ++ [event]) :=
  h.concat fun _ hgranted => absurd (hevent.symm.trans hgranted) (by simp)

/-- What is finished stays finished. -/
lemma phaseOf_of_finished (h : phaseOf family earlier = .finished)
    (hsound : phaseOf family (earlier ++ later) ≠ .broken) :
    phaseOf family (earlier ++ later) = .finished := by
  rw [phaseOf_append, h] at hsound ⊢
  rw [Phase.eq_nil_of_foldl_finished hsound]
  rfl

/-- **What comes of a run that was under way**, when none is any more: if the family is not
finished, the next turn is the failure of the run. -/
theorem phaseOf_of_running (h : phaseOf family earlier = .running)
    (hsound : phaseOf family (earlier ++ later) ≠ .broken)
    (hidle : phaseOf family (earlier ++ later) ≠ .running) :
    phaseOf family (earlier ++ later) = .finished ∨
      ∃ e, nextTurn? family later = some (.ended family (some e)) := by
  rw [phaseOf_append, h] at hsound hidle ⊢
  rw [nextTurn?, ← List.head?_filter]
  have hturns : ∀ event ∈ later.filter (·.turn? = some family), event.turn? = some family :=
    fun event hevent => by simpa using (List.mem_filter.mp hevent).2
  cases hlater : later.filter (·.turn? = some family) with
  | nil =>
      rw [hlater] at hidle
      exact absurd rfl hidle
  | cons event rest =>
      rw [hlater] at hsound hturns
      have hturn := hturns event List.mem_cons_self
      cases event with
      | ended family' failure =>
          obtain rfl : family' = family := Option.some.inj hturn
          cases failure with
          | some e => exact .inr ⟨e, rfl⟩
          | none =>
              have hrest : rest.foldl Phase.turn .finished ≠ .broken := hsound
              obtain rfl := Phase.eq_nil_of_foldl_finished hrest
              exact .inl rfl
      | begun | started | asked | typed => exact absurd (Phase.foldl_broken rest) hsound

/-- A run that ends next was under way. -/
lemma phaseOf_of_ended {failure : Option Error}
    (h : nextTurn? family later = some (.ended family failure))
    (hsound : phaseOf family (earlier ++ later) ≠ .broken) :
    phaseOf family earlier = .running := by
  rw [nextTurn?, ← List.head?_filter] at h
  rw [phaseOf_append] at hsound
  obtain ⟨rest, hlater⟩ := List.head?_eq_some_iff.mp h
  rw [hlater, List.foldl_cons] at hsound
  cases hphase : phaseOf family earlier with
  | running => rfl
  | waiting | finished | broken =>
      rw [hphase] at hsound
      exact absurd (Phase.foldl_broken rest) hsound

end Logs

/-! ## While modules run -/

namespace Workspace

variable {w w' : Workspace} {family : String}

/-- The machine of every family goes on, and modules were told the truth. -/
structure Candid (w : Workspace) : Prop where
  paced : ∀ family, w.Paced family
  truthful : Truthful w.context.log

lemma Candid.of_unturned (hw : w.Candid) (h : w.Unturned w')
    (hlog : w'.context.log = w.context.log) : w'.Candid where
  paced := fun family => (hw.paced family).of_eq (h.turns family) (h.isReady_iff family)
  truthful := hlog ▸ hw.truthful

lemma candid_new (process : Process) (K : ContextId) (options : Options) :
    Candid ⟨process, .new K options⟩ :=
  ⟨(steady_new process K options).paced, truthful_nil⟩

lemma Candid.mapScalar (hw : w.Candid) (s : CScalar) (t : ValueType) : (w.mapScalar s t).Candid :=
  hw.of_unturned (.of_eq rfl rfl) rfl

lemma Candid.provideModule (hw : w.Candid) (m : ModuleId) : (w.provideModule m).Candid :=
  hw.of_unturned (unturned_provideModule w m) (log_provideModule w m)

lemma Candid.deriveRecord (hw : w.Candid) (id : StructId) : (w.deriveRecord id).1.Candid :=
  hw.of_unturned (unturned_deriveRecord w id) (log_deriveRecord w id)

lemma Candid.typeOfReady (hw : w.Candid) (t : CType) : (w.typeOfReady t).1.Candid := by
  cases t with
  | struct id => exact hw.deriveRecord id
  | void | scalar s | pointer t => exact hw

lemma Candid.record (hw : w.Candid) {event : SupportEvent} (hturn : event.turn? = none)
    (hgranted : ∀ family, event.granted? = some family → w.IsReady family) :
    (w.record event).Candid where
  paced := fun family => (hw.paced family).of_eq ((unturned_record w hturn).turns family)
    ((unturned_record w hturn).isReady_iff family)
  truthful := hw.truthful.concat fun family h => (hw.paced family).ready.mp (hgranted family h)

/-- A module that asked is told what is so. -/
lemma Candid.asked (hw : w.Candid) (family : String) (run : Nat) {path : String}
    {r : Except Error Unit} (hr : r = .ok () → w.IsReady (familyOf path)) :
    (w.record (.asked family run path (failure? r))).Candid := by
  refine hw.record rfl fun other hgranted => ?_
  cases r with
  | ok _ =>
      obtain rfl := Option.some.inj hgranted
      exact hr rfl
  | error e => exact absurd hgranted (by simp [failure?, SupportEvent.granted?])

section Run

variable {path : String} {support : SupportRegistry} {p : Provider} {r : Except Error Unit}
  {account : List Happening}
  (h : w.context.support.begin (familyOf path) = .ok (support, some p))

include h

lemma Candid.begun (hw : w.Candid) : (w.begun support (familyOf path)).Candid where
  paced := fun family => (hw.paced family).begun h
  truthful := hw.truthful.concat_of_none rfl

lemma Candid.settle (hw : w.Candid)
    (h' : Course (w.begun support (familyOf path)) account w' r) (hw' : w'.Candid) :
    (w'.settle (familyOf path) r).Candid where
  paced := fun family => ((Course.ran h h').paced (hw.paced family)).1
  truthful := by
    cases r with
    | ok _ => exact hw'.truthful.concat_of_none rfl
    | error e => exact hw'.truthful.concat_of_none rfl

end Run

/-- Who asks for a family is told the truth, and so is everyone who asks on the way. -/
def TellsTruth (ensure : Ensure) : Prop :=
  ∀ w path w' r, ensure w path = some (w', r) → w.Candid →
    w'.Candid ∧ (r = .ok () → w'.IsReady (familyOf path))

section Modules

variable {ensure : Ensure} (hensure : TellsTruth ensure)

include hensure

lemma Candid.typeOfWith (hw : w.Candid) {module : String} {t : CType} {r : Except Error ValueType}
    (h : typeOfWith ensure w module t = some (w', r)) : w'.Candid := by
  rw [Workspace.typeOfWith] at h
  rcases hasked : ensure w module with _ | ⟨w₁, e | ⟨⟩⟩
  · simp [hasked] at h
  · obtain ⟨hw₁, -⟩ := hensure _ _ _ _ hasked hw
    simp only [hasked, Option.some.injEq, Prod.mk.injEq] at h
    obtain ⟨rfl, -⟩ := h
    exact hw₁
  · obtain ⟨hw₁, -⟩ := hensure _ _ _ _ hasked hw
    have hready := hw₁.typeOfReady t
    simp only [hasked, Option.some.injEq] at h
    rwa [h] at hready

lemma Candid.typeNotedWith (hw : w.Candid) {family module : String} {run : Nat} {t : CType}
    {r : Except Error Unit} (h : typeNotedWith ensure family run w module t = some (w', r)) :
    w'.Candid := by
  rw [Workspace.typeNotedWith] at h
  rcases htyped : Workspace.typeOfWith ensure w module t with _ | ⟨w₁, r₁⟩
  · simp [htyped] at h
  · simp only [htyped, Option.some.injEq, Prod.mk.injEq] at h
    obtain ⟨rfl, -⟩ := h
    exact (hw.typeOfWith hensure htyped).record rfl (by simp [SupportEvent.granted?])

lemma Candid.performWith (hw : w.Candid) {family : String} {run : Nat} {a : Action}
    {r : Except Error Unit} (h : performWith ensure family run w a = some (w', r)) :
    w'.Candid := by
  cases a with
  | mapScalar s t =>
      obtain ⟨rfl, -⟩ := Prod.mk.inj (Option.some.inj h)
      exact hw.mapScalar s t
  | provide m =>
      obtain ⟨rfl, -⟩ := Prod.mk.inj (Option.some.inj h)
      exact hw.provideModule m
  | require path | invite path =>
      rw [Workspace.performWith] at h
      rcases hasked : ensure w path with _ | ⟨w₁, r₁⟩
      · simp [hasked] at h
      · obtain ⟨hw₁, hr₁⟩ := hensure _ _ _ _ hasked hw
        simp only [hasked, Option.some.injEq, Prod.mk.injEq] at h
        obtain ⟨rfl, -⟩ := h
        exact hw₁.asked family run hr₁
  | typeStruct id => exact hw.typeNotedWith hensure h
  | typeObject module t => exact hw.typeNotedWith hensure h
  | fail message | failIn n message =>
      obtain ⟨rfl, -⟩ := Prod.mk.inj (Option.some.inj h)
      exact hw

lemma Candid.runWith (hw : w.Candid) {family : String} {run : Nat} {actions : List Action}
    {r : Except Error Unit} (h : runWith ensure family run w actions = some (w', r)) :
    w'.Candid := by
  induction actions generalizing w with
  | nil =>
      obtain ⟨rfl, -⟩ := Prod.mk.inj (Option.some.inj h)
      exact hw
  | cons a rest ih =>
      rw [Workspace.runWith] at h
      rcases hdone : Workspace.performWith ensure family run w a with _ | ⟨w₁, e | ⟨⟩⟩
      · simp [hdone] at h
      · simp only [hdone, Option.some.injEq, Prod.mk.injEq] at h
        obtain ⟨rfl, -⟩ := h
        exact hw.performWith hensure hdone
      · simp only [hdone] at h
        exact ih (hw.performWith hensure hdone) h

lemma Candid.startWith (hw : w.Candid) {p : Provider} {r : Except Error Unit}
    (h : startWith ensure w p = some (w', r)) : w'.Candid := by
  cases p with
  | builtin =>
      obtain ⟨rfl, -⟩ := Prod.mk.inj (Option.some.inj h)
      exact hw
  | scripted m =>
      cases hm : w.process.modules[m.index]? with
      | none =>
          simp only [Workspace.startWith, hm, Option.some.injEq, Prod.mk.injEq] at h
          obtain ⟨rfl, -⟩ := h
          exact hw
      | some s =>
          rw [startWith_scripted hm] at h
          have hcounted : (w.count m (s.starts + 1)).Candid := hw.of_unturned (.of_eq rfl rfl) rfl
          refine Candid.runWith hensure ?_ h
          exact hcounted.record rfl (by simp [SupportEvent.granted?])

end Modules

/-- **Modules are told the truth**, whatever they do: by induction on the depth to which they run
inside one another. -/
theorem tellsTruth_ensureWithin (depth : Nat) : TellsTruth (ensureWithin depth) := by
  induction depth using Nat.strongRecOn with
  | ind depth ih =>
      intro w path w' r h hw
      rcases ensureWithin_cases h with ⟨e, -, rfl, rfl⟩ | ⟨support, hbegin, rfl, rfl⟩
        | ⟨support, p, lower, w₁, rfl, hbegin, hstart, rfl⟩
      · exact ⟨hw, by simp⟩
      · exact ⟨hw, fun _ => (SupportRegistry.begin_eq_none.mp hbegin).1⟩
      · have hcourse := course_startWith (course_ensureWithin lower) hstart
        have hran := (hw.begun hbegin).startWith (ih lower (Nat.lt_succ_self lower)) hstart
        refine ⟨hw.settle hbegin hcourse hran, fun hr => isReady_settle.mpr ⟨fun _ => hr, ?_⟩⟩
        exact (hcourse.kept ((isReady_begun hbegin).mpr (.inl rfl))).1

lemma Candid.ensure (hw : w.Candid) (path : String) : (w.ensure path).1.Candid := by
  obtain ⟨answer, hasked⟩ := exists_ensureWithin w.fits_families path
  rw [Workspace.ensure, hasked]
  exact (tellsTruth_ensureWithin _ w path _ _ hasked hw).1

lemma Candid.typeOf (hw : w.Candid) (o : ObjectId) : (w.typeOf o).1.Candid := by
  rw [Workspace.typeOf]
  cases w.process.heap.object? o with
  | none => exact hw
  | some x =>
      have hensured := hw.ensure x.module
      rcases hasked : w.ensure x.module with ⟨w₁, e | ⟨⟩⟩
      · rw [hasked] at hensured
        simpa only [hasked] using hensured
      · rw [hasked] at hensured
        simpa only [hasked] using hensured.typeOfReady x.type

end Workspace

/-! ## Along a run -/

namespace Session

open SessionM

variable {s s' : Session} {history : List Performed}

/-- In every context, modules were told the truth. -/
def Candid (s : Session) : Prop :=
  ∀ name c, s.contexts.get? name = some c → Workspace.Candid ⟨s.process, c⟩

def StaysCandid (s s' : Session) : Prop := s.Candid → s'.Candid

instance : Std.Refl StaysCandid where
  refl := fun _ h => h

instance : IsTrans Session StaysCandid where
  trans := fun _ _ _ h h' hs => h' (h hs)

lemma staysCandid_of_contexts (h : s'.contexts = s.contexts) : StaysCandid s s' := by
  intro hs name c hc
  exact (hs name c (h ▸ hc)).of_unturned (.of_eq rfl rfl) rfl

lemma staysCandid_of_keeps (h : Keeps s s') : StaysCandid s s' := by
  intro hs name c' hc'
  obtain ⟨c, hc, heq⟩ := h.contexts name c' hc'
  refine (hs name c hc).of_unturned (.of_eq ?_ ?_) ?_
  · show c'.support = c.support
    rw [heq]
  · show c'.log = c.log
    rw [heq]
  · show c'.log = c.log
    rw [heq]

lemma staysCandid_withContext {name : String} {c : Context}
    (hc : s.Candid → Workspace.Candid ⟨s'.process, c⟩)
    (hcontexts : s'.contexts = s.contexts.put name c) : StaysCandid s s' := by
  intro hs name' c' hc'
  rw [hcontexts, Table.get?_put] at hc'
  split at hc'
  · obtain rfl := Option.some.inj hc'
    exact hc hs
  · exact (hs name' c' hc').of_unturned (.of_eq rfl rfl) rfl

lemma within_staysCandid_inContext {α : Type} {name : String}
    {f : Workspace → Workspace × Except Error α} (hf : ∀ w : Workspace, w.Candid → (f w).1.Candid) :
    Within StaysCandid (inContext name f) :=
  within_inContext fun _ _ hc => staysCandid_withContext (fun hs => hf _ (hs _ _ hc)) rfl

/-- **No command tells modules what is not so.** -/
theorem staysCandid_perform {α : Type} (command : Command α) :
    Within StaysCandid command.perform := by
  have htypes : ∀ (s : Session) types, StaysCandid s { s with types } :=
    fun _ _ => staysCandid_of_contexts rfl
  cases command with
  | makeContext name options checked =>
      intro s
      show StaysCandid s (s.perform (.makeContext name options checked)).2
      rcases s.perform_makeContext name options checked with ⟨f, herror⟩ | hmade
      · rw [herror]
        exact Std.Refl.refl s
      · rw [hmade]
        exact staysCandid_withContext (fun _ => Workspace.candid_new _ _ options) rfl
  | mapScalar context scalar t =>
      show Within StaysCandid (SessionM.mapScalar context scalar t)
      exact within_staysCandid_inContext fun w hw => hw.mapScalar scalar t
  | deriveRecord context struct name =>
      refine within_bind (within_lookup _ _ _) fun id => ?_
      refine within_bind (within_staysCandid_inContext ?_) (within_named htypes name)
      exact fun w hw => hw.deriveRecord id
  | typeOf context object name =>
      refine within_bind (within_lookup _ _ _) fun o => ?_
      refine within_bind (within_staysCandid_inContext ?_) (within_named htypes name)
      exact fun w hw => hw.typeOf o
  | provide context module =>
      refine within_bind (within_lookup _ _ _) fun m => ?_
      exact within_staysCandid_inContext fun w hw => hw.provideModule m
  | ensure context path =>
      show Within StaysCandid (SessionM.ensure context path)
      exact within_staysCandid_inContext fun w hw => hw.ensure path
  | _ => exact fun s => staysCandid_of_keeps (keeps_perform rfl s)

lemma Runs.candid (hruns : start.Runs history s) : s.Candid := by
  induction hruns with
  | nil =>
      intro name c hc
      rw [eq_new_of_start hc]
      exact Workspace.candid_new _ _ _
  | @cons history t earlier α command ih => exact staysCandid_perform command t ih

/-- **What a family relies on.**  Take any context after any run, and in its log a place where a
module for `family` was told that there is support for `other`, in the run that made `family` ready.
That run was under way there, and `family` is ready.  So is `other`, unless a run for `other` was
under way there as well and was the next to end, with a failure. -/
theorem Runs.dependencies_ready (hruns : start.Runs history s) {name : String} {c : Context}
    (hc : s.contexts.get? name = some c) {family other : String}
    {earlier later : List SupportEvent} (h : ReliesOn family other earlier later c.log) :
    phaseOf family earlier = .running ∧ c.support.isReady family = true ∧
      (c.support.isReady other = true ∨
        phaseOf other earlier = .running ∧
          ∃ e, nextTurn? other later = some (.ended other (some e))) := by
  obtain ⟨⟨run, path, rfl, hlog⟩, hsucceeded⟩ := h
  have hsteady := hruns.steady hc
  have hready (family : String) (hfinished : phaseOf family c.log = .finished) :
      c.support.isReady family = true :=
    (hsteady.paced family).ready.mpr (by simp [Workspace.phase, hfinished])
  -- being told is no turn of any family
  have hturns (other : String) : phaseOf other c.log = phaseOf other (earlier ++ later) := by
    rw [hlog, phaseOf_append, phaseOf_append]
    simp [SupportEvent.turn?]
  have hsound (other : String) : phaseOf other (earlier ++ later) ≠ .broken :=
    hturns other ▸ (hsteady.paced other).sound
  refine ⟨phaseOf_of_ended hsucceeded (hsound family), hready family ?_, ?_⟩
  · refine (phaseOf_eq_finished_iff (hsteady.paced family).sound).mpr ?_
    have hmem := List.mem_cons_of_mem (.asked family run path none)
      (List.mem_of_find?_eq_some hsucceeded)
    rw [hlog]
    exact List.mem_append_right earlier hmem
  · have htold := (hruns.candid name c hc).truthful earlier _ later _ hlog rfl
    have hidle : phaseOf (familyOf path) (earlier ++ later) ≠ .running :=
      hturns _ ▸ hsteady.idle (familyOf path)
    cases hphase : phaseOf (familyOf path) earlier with
    | waiting => exact absurd hphase htold
    | running =>
        rcases phaseOf_of_running hphase (hsound _) hidle with hfinished | hfailed
        · exact .inl (hready _ ((hturns _).trans hfinished))
        · exact .inr ⟨rfl, hfailed⟩
    | finished =>
        exact .inl (hready _ ((hturns _).trans (phaseOf_of_finished hphase (hsound _))))
    | broken => exact absurd hphase (phaseOf_ne_broken_of_append (hsound _))

/-! ### The family that is left behind -/

/-- Two modules ask for each other's family, and the one that was asked for first fails. -/
def leftBehind : Session :=
  (((((start.perform (.makeModule "a" "a" [.require "b", .fail "boom"])).2.perform
    (.makeModule "b" "b" [.require "a"])).2.perform (.provide "main" "a")).2.perform
    (.provide "main" "b")).2.perform (.ensure "main" "a")).2

lemma runs_leftBehind : ∃ history, start.Runs history leftBehind :=
  ⟨_, (((((Runs.nil.cons (.makeModule "a" "a" [.require "b", .fail "boom"])).cons
    (.makeModule "b" "b" [.require "a"])).cons (.provide "main" "a")).cons
    (.provide "main" "b")).cons (.ensure "main" "a"))⟩

/-- The family `b` relied on the family `a` while the run for `a` was under way. -/
lemma reliesOn_leftBehind : ∃ c, leftBehind.contexts.get? "main" = some c ∧
    c.support.isReady "b" = true ∧ c.support.isReady "a" = false ∧
    ReliesOn "b" "a" [.begun "a", .started "a" 1, .begun "b", .started "b" 1]
      [.ended "b" none, .asked "a" 1 "b" none, .ended "a" (some (.fault "boom"))] c.log := by
  have hleft : (leftBehind.contexts.get? "main").map
      (fun c => (c.support.isReady "b", c.support.isReady "a", c.log))
      = some (true, false, [.begun "a", .started "a" 1, .begun "b", .started "b" 1,
        .asked "b" 1 "a" none, .ended "b" none, .asked "a" 1 "b" none,
        .ended "a" (some (.fault "boom"))]) := by
    decide +kernel
  obtain ⟨c, hc, heq⟩ := Option.map_eq_some_iff.mp hleft
  obtain ⟨hb, heq⟩ := Prod.mk.inj heq
  obtain ⟨ha, hlog⟩ := Prod.mk.inj heq
  exact ⟨c, hc, hb, ha, ⟨1, "a", rfl, hlog⟩, rfl⟩

/-- What a family relies on may be left without support. -/
theorem not_dependencies_ready :
    ¬∀ history s name c family other earlier later, start.Runs history s →
      s.contexts.get? name = some c → c.support.isReady family = true →
      ReliesOn family other earlier later c.log → c.support.isReady other = true := by
  intro hall
  obtain ⟨history, hruns⟩ := runs_leftBehind
  obtain ⟨c, hc, hb, ha, hrelies⟩ := reliesOn_leftBehind
  have hready := hall history leftBehind "main" c "b" "a" _ _ hruns hc hb hrelies
  exact absurd (ha.symm.trans hready) (by simp)

/-- It was the run for `a` that failed afterwards. -/
theorem dependencies_ready_leftBehind :
    let earlier := [.begun "a", .started "a" 1, .begun "b", .started "b" 1]
    let later := [.ended "b" none, .asked "a" 1 "b" none, .ended "a" (some (.fault "boom"))]
    ∃ c, leftBehind.contexts.get? "main" = some c ∧ ReliesOn "b" "a" earlier later c.log ∧
      c.support.isReady "b" = true ∧ c.support.isReady "a" = false ∧
      phaseOf "a" earlier = .running := by
  intro earlier later
  obtain ⟨history, hruns⟩ := runs_leftBehind
  obtain ⟨c, hc, -, ha, hrelies⟩ := reliesOn_leftBehind
  obtain ⟨-, hb, hready | ⟨hrunning, -⟩⟩ := hruns.dependencies_ready hc hrelies
  · exact absurd (ha.symm.trans hready) (by simp)
  · exact ⟨c, hc, hrelies, hb, ha, hrunning⟩

end Session

end ForeignTypes
