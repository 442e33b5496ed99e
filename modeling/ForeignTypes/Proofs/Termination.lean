import ForeignTypes.Proofs.Protocol
import ForeignTypes.Proofs.Tuning

/-!
# Calls come to an end

Modules may ask for each other's families in a circle, take each other's place while they run, and
fail and be run again.  Every call comes to an end all the same.  Where modules run inside one
another, each is for a family that those around it are not for, and no family has a provider but
the core family and those that modules were made for.  So it is enough to let modules run as deep
inside one another as there are such families.

The log shows the same from outside: runs are properly nested, and no more of them are ever under
way at once.

* `NestedRuns` — logs in which runs are properly nested, with their families.
* **`NestedRuns.countP_le`** — how many runs are under way at once.
* **`Workspace.Course.nestedRuns`** — what a course writes to the log is properly nested.
* `Workspace.familySet`, `Workspace.Confined` — the families for which there can be support.
* **`Session.Runs.support_ends`** — every call of a session comes to an end.
-/

namespace ForeignTypes

/-! ## Runs inside one another -/

namespace SupportEvent

/-- A run begins. -/
def isBegun : SupportEvent → Bool
  | begun _ => true
  | ended _ _ | started _ _ | asked _ _ _ _ | typed _ _ _ _ => false

/-- A run ends. -/
def isEnded : SupportEvent → Bool
  | ended _ _ => true
  | begun _ | started _ _ | asked _ _ _ _ | typed _ _ _ _ => false

@[simp]
lemma isBegun_begun (family : String) : (begun family).isBegun = true := rfl

@[simp]
lemma isEnded_begun (family : String) : (begun family).isEnded = false := rfl

@[simp]
lemma isBegun_ended (family : String) (failure : Option Error) :
    (ended family failure).isBegun = false := rfl

@[simp]
lemma isEnded_ended (family : String) (failure : Option Error) :
    (ended family failure).isEnded = true := rfl

lemma not_isBegun {event : SupportEvent} (h : event.turn? = none) : event.isBegun = false := by
  cases event with
  | begun family => simp [turn?] at h
  | ended | started | asked | typed => rfl

lemma not_isEnded {event : SupportEvent} (h : event.turn? = none) : event.isEnded = false := by
  cases event with
  | ended family failure => simp [turn?] at h
  | begun | started | asked | typed => rfl

end SupportEvent

/-- What is written while runs for the families `around` are under way, the innermost first: a run
ends before those around it, and it is for a family that is known and that they are not for. -/
inductive NestedRuns (known : String → Prop) : List String → List SupportEvent → Prop
  | nil {around : List String} : NestedRuns known around []
  | note {around : List String} {event : SupportEvent} (hevent : event.turn? = none) :
    NestedRuns known around [event]
  | run {around : List String} {events : List SupportEvent} {family : String}
      (hknown : known family) (hnew : family ∉ around)
      (h : NestedRuns known (family :: around) events) (failure : Option Error) :
    NestedRuns known around (.begun family :: (events ++ [.ended family failure]))
  | append {around : List String} {events events' : List SupportEvent}
      (h : NestedRuns known around events) (h' : NestedRuns known around events') :
    NestedRuns known around (events ++ events')

namespace NestedRuns

open SupportEvent

variable {around : List String} {events : List SupportEvent}

lemma mono {known known' : String → Prop} (h : NestedRuns known around events)
    (hknown : ∀ family, known family → known' family) : NestedRuns known' around events := by
  induction h with
  | nil => exact .nil
  | note hevent => exact .note hevent
  | run hfamily hnew _ failure ih => exact .run (hknown _ hfamily) hnew ih failure
  | append _ _ ih ih' => exact .append ih ih'

/-- Every run that begins comes to its end. -/
lemma countP_eq {known : String → Prop} (h : NestedRuns known around events) :
    events.countP isBegun = events.countP isEnded := by
  induction h with
  | nil => rfl
  | note hevent => simp [not_isBegun hevent, not_isEnded hevent]
  | run _ _ _ failure ih => simp [List.countP_cons, ih]
  | append _ _ ih ih' => simp [ih, ih']

/-- **How many runs are under way at once**: no more than there are families that are known, those
around included. -/
theorem countP_le {known : Finset String} (h : NestedRuns (· ∈ known) around events)
    (hdistinct : around.Nodup) (haround : ∀ family ∈ around, family ∈ known)
    {earlier : List SupportEvent} (hearlier : earlier <+: events) :
    around.length + earlier.countP isBegun ≤ earlier.countP isEnded + known.card := by
  have hroom {families : List String} (hdistinct : families.Nodup)
      (hfamilies : ∀ family ∈ families, family ∈ known) : families.length ≤ known.card := by
    rw [← List.toFinset_card_of_nodup hdistinct]
    exact Finset.card_le_card fun family hfamily => hfamilies family (List.mem_toFinset.mp hfamily)
  have hstart := hroom hdistinct haround
  induction h generalizing earlier with
  | nil =>
      obtain rfl := List.prefix_nil.mp hearlier
      simpa using hstart
  | note hevent =>
      rcases List.prefix_cons_iff.mp hearlier with rfl | ⟨rest, rfl, hrest⟩
      · simpa using hstart
      · obtain rfl := List.prefix_nil.mp hrest
        simpa [not_isBegun hevent, not_isEnded hevent] using hstart
  | @run around events family hfamily hnew hinside failure ih =>
      rcases List.prefix_cons_iff.mp hearlier with rfl | ⟨inside, rfl, hprefix⟩
      · simpa using hstart
      · rcases List.prefix_concat_iff.mp hprefix with rfl | hprefix
        · rw [(NestedRuns.run hfamily hnew hinside failure).countP_eq]
          omega
        · have hdistinct' : (family :: around).Nodup := List.nodup_cons.mpr ⟨hnew, hdistinct⟩
          have haround' : ∀ other ∈ family :: around, other ∈ known := by
            simpa using ⟨hfamily, haround⟩
          have hmore := ih hdistinct' haround' hprefix (hroom hdistinct' haround')
          have hbegun : (begun family :: inside).countP isBegun = inside.countP isBegun + 1 := by
            simp [List.countP_cons]
          have hended : (begun family :: inside).countP isEnded = inside.countP isEnded := by simp
          rw [List.length_cons] at hmore
          omega
  | @append around events events' h h' ih ih' =>
      rcases List.prefix_or_prefix_of_prefix hearlier (List.prefix_append events events')
        with hprefix | ⟨rest, rfl⟩
      · exact ih hdistinct haround hprefix hstart
      · have hrest : rest <+: events' := (List.prefix_append_right_inj events).mp hearlier
        have hmore := ih' hdistinct haround hrest hstart
        rw [List.countP_append, List.countP_append, h.countP_eq]
        omega

end NestedRuns

namespace Workspace

variable {w w' : Workspace} {account : List Happening} {r : Except Error Unit}

/-! ## What a course writes -/

/-- Between the two workspaces, what was written to the log is properly nested. -/
def Writes (w w' : Workspace) (around : List String) : Prop :=
  ∃ events, w'.context.log = w.context.log ++ events ∧ NestedRuns w'.IsProvided around events

lemma Writes.of_eq {around : List String} (h : w'.context.log = w.context.log) :
    w.Writes w' around := ⟨[], by simpa using h, .nil⟩

/-- **What a course writes to the log is properly nested**, in runs for families that are ready: a
run is not started for a family that is marked. -/
theorem Course.nestedRuns (h : Course w account w' r) {around : List String}
    (haround : ∀ family ∈ around, w.IsReady family) : w.Writes w' around := by
  induction h generalizing around with
  | done w | refused w _ | unsupported _ | ready _ => exact .of_eq rfl
  | counted w m run | mapped w s t => exact .of_eq rfl
  | andThen h h' ih ih' =>
      obtain ⟨events, hlog, hnested⟩ := ih haround
      obtain ⟨events', hlog', hnested'⟩ := ih' fun family hfamily =>
        (h.kept (haround family hfamily)).1
      refine ⟨events ++ events', by rw [hlog', hlog, List.append_assoc], .append ?_ hnested'⟩
      exact hnested.mono fun family hprovided => h'.provided_of hprovided
  | forgiven _ ih => exact ih haround
  | noted _ event hevent ih =>
      obtain ⟨events, hlog, hnested⟩ := ih haround
      refine ⟨events ++ [event], ?_, hnested.append (.note hevent)⟩
      simp [record, hlog]
  | provided w m => exact .of_eq (w.log_provideModule m)
  | derived w id => exact .of_eq (w.log_deriveRecord id)
  | @ran w w' path support p account r hbegin hrun ih =>
      obtain ⟨hready, hprovided⟩ := begin_spec hbegin
      have haround' : ∀ family ∈ familyOf path :: around,
          (w.begun support (familyOf path)).IsReady family := by
        intro family hfamily
        refine (isReady_begun hbegin).mpr ?_
        exact (List.mem_cons.mp hfamily).imp_right (haround family)
      obtain ⟨events, hlog, hnested⟩ := ih haround'
      have hprovided' : w'.IsProvided (familyOf path) :=
        hrun.provided_of ((isProvided_begun hbegin).mpr hprovided)
      refine ⟨.begun (familyOf path) :: (events ++ [.ended (familyOf path) (failure? r)]), ?_, ?_⟩
      · rw [log_settle, hlog, log_begun]
        simp
      · have hnested' := NestedRuns.run hprovided' (fun hmem => hready (haround _ hmem)) hnested
          (failure? r)
        exact hnested'.mono fun family hfamily => isProvided_settle.mpr hfamily

/-! ## The families that there are -/

/-- The families for which there can be support: those that modules were made for, and the core
family, whose support is built in. -/
def familySet (w : Workspace) : Finset String :=
  insert w.context.options.coreFamily w.process.moduleFamilies.toFinset

lemma mem_familySet {family : String} : family ∈ w.familySet
    ↔ family = w.context.options.coreFamily ∨ ∃ s ∈ w.process.modules, s.family = family := by
  simp [familySet, Process.moduleFamilies]

/-- No other family has a provider. -/
def Confined (w : Workspace) : Prop := ∀ family ∈ w.families, family ∈ w.familySet

lemma familySet_subset (hoptions : w'.context.options = w.context.options)
    (hmodules : w.process.moduleFamilies <+: w'.process.moduleFamilies) :
    w.familySet ⊆ w'.familySet := by
  rw [familySet, familySet, hoptions]
  refine Finset.insert_subset_insert _ fun family hfamily => ?_
  exact List.mem_toFinset.mpr (hmodules.subset (List.mem_toFinset.mp hfamily))

lemma confined_new (process : Process) (K : ContextId) (options : Options) :
    Confined ⟨process, .new K options⟩ := by
  intro family hfamily
  rcases mem_families.mp hfamily with hmodule | hprovided
  · exact mem_familySet.mpr (.inr hmodule)
  · refine mem_familySet.mpr (.inl ?_)
    by_contra hother
    have hnew : options.coreFamily ≠ family := Ne.symm hother
    simp [IsProvided, Context.new, SupportRegistry.contains, SupportRegistry.register,
      Table.contains, Table.get?_put, hnew] at hprovided

/-- More modules, and the same support. -/
lemma Confined.mono (hw : w.Confined) (hsupport : w'.context.support = w.context.support)
    (hoptions : w'.context.options = w.context.options)
    (hmodules : w.process.moduleFamilies <+: w'.process.moduleFamilies) : w'.Confined := by
  intro family hfamily
  rcases mem_families.mp hfamily with hmodule | hprovided
  · exact mem_familySet.mpr (.inr hmodule)
  · rw [IsProvided, hsupport] at hprovided
    exact familySet_subset hoptions hmodules (hw family (mem_families.mpr (.inr hprovided)))

lemma Course.confined (h : Course w account w' r) (hw : w.Confined) : w'.Confined := by
  intro family hfamily
  have hold := hw family (h.families_subset hfamily)
  rwa [familySet, ← h.spares.options, ← h.moduleFamilies] at hold

/-! ## Deep enough -/

variable {depth : Nat}

lemma Confined.fits (hw : w.Confined) (hdepth : w.familySet.card ≤ depth) :
    w.Fits w.familySet depth :=
  ⟨hw, (Finset.card_filter_le _ _).trans hdepth⟩

/-- A call that may go deep enough comes to the answer of the call. -/
lemma Fits.ensureWithin_eq {known : Finset String} (hw : w.Fits known depth) (path : String) :
    ensureWithin depth w path = some (w.ensure path) := by
  obtain ⟨answer, hasked⟩ := exists_ensureWithin hw path
  obtain ⟨answer', hasked'⟩ := exists_ensureWithin w.fits_families path
  have hdeeper := ensureWithin_mono (Nat.le_max_left depth w.families.length) hasked
  have hdeeper' := ensureWithin_mono (Nat.le_max_right depth w.families.length) hasked'
  obtain rfl : answer = answer' := Option.some.inj (hdeeper.symm.trans hdeeper')
  rw [hasked, ensure, hasked']

lemma Fits.typeOfWith_eq {known : Finset String} (hw : w.Fits known depth) {o : ObjectId}
    {x : ForeignObject} (ho : w.process.heap.object? o = some x) :
    typeOfWith (ensureWithin depth) w x.module x.type = some (w.typeOf o) := by
  rw [typeOfWith, hw.ensureWithin_eq x.module, typeOf, ho]
  rcases hasked : w.ensure x.module with ⟨w₁, e | ⟨⟩⟩
  · simp only [hasked]
  · simp only [hasked]

end Workspace

/-! ## Runs of a session -/

namespace Session

variable {s : Session} {history : List Performed} {name : String} {c : Context}

lemma Runs.confined (hruns : start.Runs history s) (hc : s.contexts.get? name = some c) :
    Workspace.Confined ⟨s.process, c⟩ := by
  refine hruns.context_induction (P := fun process c _ => Workspace.Confined ⟨process, c⟩)
    ?_ ?_ ?_ hc
  · exact Workspace.confined_new
  · intro process process' c c' hs _ _ hmodules heq hconfined
    refine hconfined.mono ?_ ?_ hmodules
    · rw [heq]
    · rw [heq]
  · intro w w' account hs r _ hcourse hconfined
    exact hcourse.confined hconfined

lemma Runs.nestedRuns (hruns : start.Runs history s) (hc : s.contexts.get? name = some c) :
    NestedRuns (Workspace.IsProvided ⟨s.process, c⟩) [] c.log := by
  refine hruns.context_induction
    (P := fun process c _ => NestedRuns (Workspace.IsProvided ⟨process, c⟩) [] c.log) ?_ ?_ ?_ hc
  · exact fun _ _ _ => .nil
  · intro process process' c c' hs _ _ _ heq hnested
    rw [heq]
    exact hnested
  · intro w w' account hs r _ hcourse hnested
    have hwrites : w.Writes w' [] := hcourse.nestedRuns (by simp)
    obtain ⟨events, hlog, hwritten⟩ := hwrites
    rw [hlog]
    exact .append (hnested.mono fun family hprovided => hcourse.provided_of hprovided) hwritten

/-- **Every call comes to an end.**  Take any context after any run, whatever modules were made.

* Every call for a family comes to an answer if modules may run as deep inside one another as there
  are families of modules, the core family included, and it stays with that answer if they may run
  deeper.  It is the answer of the session.
* The same is true of the type of every object that is held.
* At no moment were more runs under way inside one another.
* Every run that began came to its end. -/
theorem Runs.support_ends (hruns : start.Runs history s) (hc : s.contexts.get? name = some c) :
    let w : Workspace := ⟨s.process, c⟩
    (∀ path, ∃ result,
      (∀ depth, w.familySet.card ≤ depth → Workspace.ensureWithin depth w path = some result) ∧
      s.perform (.ensure name path) = s.worked name result) ∧
    (∀ object o, s.objects.get? object = some o → ∃ x result,
      s.process.heap.object? o = some x ∧
      (∀ depth, w.familySet.card ≤ depth →
        Workspace.typeOfWith (Workspace.ensureWithin depth) w x.module x.type = some result) ∧
      ∀ type, s.perform (.typeOf name object type) = s.typed name type result) ∧
    (∀ earlier, earlier <+: c.log →
      earlier.countP SupportEvent.isBegun
        ≤ earlier.countP SupportEvent.isEnded + w.familySet.card) ∧
    c.log.countP SupportEvent.isBegun = c.log.countP SupportEvent.isEnded := by
  intro w
  have hconfined : w.Confined := hruns.confined hc
  have hnested := hruns.nestedRuns hc
  refine ⟨fun path => ?_, fun object o ho => ?_, fun earlier hearlier => ?_, hnested.countP_eq⟩
  · refine ⟨w.ensure path, fun depth hdepth => ?_, perform_ensure hc path⟩
    exact (hconfined.fits hdepth).ensureWithin_eq path
  · have halive := hruns.sound.balanced.isAlive (Table.mem_values_of_get? ho)
    have hmade : o.index < s.process.heap.objects.length := Heap.index_lt_of_isAlive halive
    obtain ⟨x, hx⟩ : ∃ x, s.process.heap.object? o = some x := ⟨_, List.getElem?_eq_getElem hmade⟩
    refine ⟨x, w.typeOf o, hx, fun depth hdepth => ?_, fun type => perform_typeOf ho hc type⟩
    exact (hconfined.fits hdepth).typeOfWith_eq hx
  · have hknown : NestedRuns (· ∈ w.familySet) [] c.log :=
      hnested.mono fun family hprovided =>
        hconfined family (Workspace.mem_families.mpr (.inr hprovided))
    simpa using hknown.countP_le List.nodup_nil (by simp) hearlier

/-- A module that registers another one in its run and asks for its family; the other one asks for
the first family and for the core family.  The first fails in its first run. -/
def circle : Session :=
  ((((start.perform (.makeModule "a" "a" [.provide ⟨1⟩, .require "b", .failIn 1 "boom"])).2.perform
    (.makeModule "b" "b" [.invite "a", .require "native.x"])).2.perform
    (.provide "main" "a")).2.perform (.ensure "main" "a")).2

lemma runs_circle : ∃ history, start.Runs history circle :=
  ⟨_, (((Runs.nil.cons
    (.makeModule "a" "a" [.provide ⟨1⟩, .require "b", .failIn 1 "boom"])).cons
    (.makeModule "b" "b" [.invite "a", .require "native.x"])).cons
    (.provide "main" "a")).cons (.ensure "main" "a")⟩

/-- All three families were in the making at once, and a call needs no more room than that. -/
theorem support_ends_circle :
    ∃ c earlier, circle.contexts.get? "main" = some c ∧
      Workspace.familySet ⟨circle.process, c⟩ = {"native", "a", "b"} ∧ earlier <+: c.log ∧
      earlier.countP SupportEvent.isBegun = earlier.countP SupportEvent.isEnded + 3 ∧
      ∃ result, Workspace.ensureWithin 3 ⟨circle.process, c⟩ "a" = some result ∧
        circle.perform (.ensure "main" "a") = circle.worked "main" result := by
  obtain ⟨history, hruns⟩ := runs_circle
  have hleft : (circle.contexts.get? "main").map
      (fun c => (Workspace.familySet ⟨circle.process, c⟩, c.log.take 6))
      = some ({"native", "a", "b"}, [.begun "a", .started "a" 1, .begun "b", .started "b" 1,
        .asked "b" 1 "a" none, .begun "native"]) := by
    decide +kernel
  obtain ⟨c, hc, heq⟩ := Option.map_eq_some_iff.mp hleft
  obtain ⟨hfamilies, hlog⟩ := Prod.mk.inj heq
  obtain ⟨hends, -⟩ := hruns.support_ends hc
  obtain ⟨result, hwithin, hperform⟩ := hends "a"
  refine ⟨c, c.log.take 6, hc, hfamilies, List.take_prefix 6 c.log, ?_, result, ?_, hperform⟩
  · rw [hlog]
    rfl
  · exact hwithin 3 (by rw [hfamilies]; decide)

end Session

end ForeignTypes
