import ForeignTypes.Proofs.Course
import ForeignTypes.Proofs.Records

/-!
# Families that are ready

A family is marked before its provider runs and stays marked unless that very run fails.  Whatever
modules do meanwhile, and however deep they run inside one another, nobody else takes the mark back:
a call for a family that is marked does nothing, so that the run that set the mark is the only one.

* `SupportRegistry.begin_eq_some`, … — what comes of a call, read off the registry.
* `Workspace.Unturned` — nothing became ready and no provider began or ended.
* **`Workspace.Course.rel`** — a relation holds along every course if it holds along what leaves
  families alone and around the run of a provider.
* **`Workspace.Course.kept`** — what is ready stays so, and no provider for it begins or ends.
* `Workspace.Lawful`, **`Workspace.Course.lawful`** — what is to be said of every call.
-/

namespace ForeignTypes

/-! ## The registry -/

namespace SupportRegistry

variable {r r' : SupportRegistry} {family other : String} {p : Provider}

/-- A call fails at once for a family that is not ready and has no provider. -/
lemma begin_eq_error {e : Error} :
    r.begin family = .error e ↔
      r.isReady family = false ∧ r.get? family = none ∧ e = .noSupport family := by
  rw [begin]
  cases hready : r.isReady family with
  | true => simp
  | false =>
      cases r.get? family with
      | none => simp [eq_comm]
      | some p => simp

/-- A call has nothing to do for a family that is ready. -/
lemma begin_eq_none : r.begin family = .ok (r', none) ↔ r.isReady family = true ∧ r' = r := by
  rw [begin]
  cases hready : r.isReady family with
  | true => simp [eq_comm]
  | false =>
      cases r.get? family with
      | none => simp
      | some p => simp

/-- A call starts the provider of a family that is not ready. -/
lemma begin_eq_some :
    r.begin family = .ok (r', some p) ↔
      r.isReady family = false ∧ r.get? family = some p ∧ r' = r.mark family := by
  rw [begin]
  cases hready : r.isReady family with
  | true => simp
  | false =>
      cases r.get? family with
      | none => simp
      | some q => simp [eq_comm, and_comm]

lemma isReady_mark :
    (r.mark family).isReady other = true ↔ other = family ∨ r.isReady other = true := by
  simp [isReady, mark]

lemma isReady_abort :
    (r.abort family).isReady other = true ↔ other ≠ family ∧ r.isReady other = true := by
  simp [isReady, abort, and_comm]

/-- A provider takes the place of another, and leaves no family without one. -/
lemma contains_register (h : r.contains other = true) :
    (r.register family p).1.contains other = true := by
  simp only [contains, register, Table.contains, Table.get?_put] at h ⊢
  split
  · rfl
  · exact h

end SupportRegistry

namespace Workspace

/-! ## Families in a context -/

/-- The family is ready, or being made ready. -/
def IsReady (w : Workspace) (family : String) : Prop := w.context.support.isReady family = true

def IsProvided (w : Workspace) (family : String) : Prop := w.context.support.contains family = true

/-- The beginnings and ends of runs for a family, in order. -/
def turns (w : Workspace) (family : String) : List SupportEvent :=
  w.context.log.filter (·.turn? = some family)

/-- Every family that is ready has a provider. -/
def Registered (w : Workspace) : Prop := ∀ family, w.IsReady family → w.IsProvided family

/-- Nothing became ready or stopped to be so, and no provider began or ended. -/
structure Unturned (w w' : Workspace) : Prop where
  ready : w'.context.support.ready = w.context.support.ready
  turns : ∀ family, w'.turns family = w.turns family
  provided : ∀ family, w.IsProvided family → w'.IsProvided family

variable {w w' : Workspace} {family : String}

lemma Unturned.of_eq (hsupport : w'.context.support = w.context.support)
    (hlog : w'.context.log = w.context.log) : w.Unturned w' := by
  refine ⟨by rw [hsupport], fun family => ?_, fun family h => ?_⟩
  · rw [Workspace.turns, Workspace.turns, hlog]
  · rwa [IsProvided, hsupport]

lemma Unturned.trans {w₁ w₂ : Workspace} (h : w.Unturned w₁) (h' : w₁.Unturned w₂) :
    w.Unturned w₂ where
  ready := h'.ready.trans h.ready
  turns := fun family => (h'.turns family).trans (h.turns family)
  provided := fun family hfamily => h'.provided family (h.provided family hfamily)

lemma Unturned.isReady_iff (h : w.Unturned w') (family : String) :
    w'.IsReady family ↔ w.IsReady family := by
  rw [IsReady, IsReady, SupportRegistry.isReady, SupportRegistry.isReady, h.ready]

lemma unturned_deriveRecord (w : Workspace) (id : StructId) :
    w.Unturned (w.deriveRecord id).1 := by
  rw [deriveRecord]
  cases w.context.records.derive w.process.structs w.context.scalars w.process.types id with
  | error e => exact .of_eq rfl rfl
  | ok answer => exact .of_eq rfl rfl

lemma isTypeError_of_deriveRecord {id : StructId} {e : Error}
    (h : (w.deriveRecord id).2 = .error e) : e.isTypeError = true := by
  rw [deriveRecord] at h
  cases hderived : w.context.records.derive w.process.structs w.context.scalars w.process.types
      id with
  | ok answer => simp [hderived] at h
  | error e' =>
      obtain rfl : e' = e := by simpa [hderived] using h
      exact RecordCache.isTypeError_of_derive hderived

lemma unturned_provideModule (w : Workspace) (m : ModuleId) :
    w.Unturned (w.provideModule m) := by
  rw [provideModule]
  cases w.process.modules[m.index]? with
  | some s => exact ⟨rfl, fun _ => rfl, fun _ => SupportRegistry.contains_register⟩
  | none => exact .of_eq rfl rfl

@[simp]
lemma turns_setSupport (w : Workspace) (support : SupportRegistry) (family : String) :
    (w.setSupport support).turns family = w.turns family := rfl

lemma turns_record (w : Workspace) (event : SupportEvent) (family : String) :
    (w.record event).turns family
      = w.turns family ++ if event.turn? = some family then [event] else [] := by
  rw [turns, turns, record, List.filter_append]
  split
  · next h => simp [h]
  · next h => simp [h]

lemma unturned_record (w : Workspace) {event : SupportEvent} (h : event.turn? = none) :
    w.Unturned (w.record event) :=
  ⟨rfl, fun family => by simp [turns_record, h], fun _ h => h⟩

/-! ### Around a run -/

section Run

variable {path : String} {support : SupportRegistry} {p : Provider} {r : Except Error Unit}
  (h : w.context.support.begin (familyOf path) = .ok (support, some p))

include h

/-- A run starts for a family that is not ready, and that is registered. -/
lemma begin_spec : ¬w.IsReady (familyOf path) ∧ w.IsProvided (familyOf path) := by
  obtain ⟨hready, hprovider, -⟩ := SupportRegistry.begin_eq_some.mp h
  exact ⟨by simp [IsReady, hready], by
    simpa [IsProvided, SupportRegistry.contains, Table.contains, SupportRegistry.get?]
      using congrArg Option.isSome hprovider⟩

lemma isReady_begun : (w.begun support (familyOf path)).IsReady family
    ↔ family = familyOf path ∨ w.IsReady family := by
  obtain ⟨-, -, rfl⟩ := SupportRegistry.begin_eq_some.mp h
  exact SupportRegistry.isReady_mark

lemma isProvided_begun :
    (w.begun support (familyOf path)).IsProvided family ↔ w.IsProvided family := by
  obtain ⟨-, -, rfl⟩ := SupportRegistry.begin_eq_some.mp h
  rfl

lemma registered_begun (hregistered : w.Registered) :
    (w.begun support (familyOf path)).Registered := by
  intro family hready
  refine (isProvided_begun h).mpr ?_
  rcases (isReady_begun h).mp hready with rfl | hready
  · exact (begin_spec h).2
  · exact hregistered family hready

omit h

lemma turns_begun : (w.begun support (familyOf path)).turns family
    = w.turns family ++ if familyOf path = family then [.begun (familyOf path)] else [] := by
  simp [begun, turns_record, SupportEvent.turn?]

lemma isReady_settle : (w.settle (familyOf path) r).IsReady family
    ↔ (family = familyOf path → r = .ok ()) ∧ w.IsReady family := by
  cases r with
  | ok _ => simp [settle, IsReady, record]
  | error e =>
      simp only [settle, IsReady, record, setSupport, SupportRegistry.isReady_abort]
      simp

lemma isProvided_settle :
    (w.settle (familyOf path) r).IsProvided family ↔ w.IsProvided family := by
  cases r with
  | ok _ => rfl
  | error e => rfl

lemma turns_settle : (w.settle (familyOf path) r).turns family
    = w.turns family
      ++ if familyOf path = family then [.ended (familyOf path) (failure? r)] else [] := by
  rw [turns, log_settle, List.filter_append]
  split
  · next h => simp [turns, SupportEvent.turn?, h]
  · next h => simp [turns, SupportEvent.turn?, h]

end Run

namespace Course

variable {account : List Happening} {r : Except Error Unit}

/-- **What holds along every course**: a relation that holds wherever families are left alone, and
that holds around the run of a provider if it holds along the run. -/
theorem rel {R : Workspace → Workspace → Prop} [IsTrans Workspace R]
    (hleft : ∀ {w w' : Workspace}, w.Unturned w' → R w w')
    (hran : ∀ {w w' : Workspace} {path : String} {support : SupportRegistry} {p : Provider}
      {account : List Happening} {r : Except Error Unit},
      w.context.support.begin (familyOf path) = .ok (support, some p) →
      Course (w.begun support (familyOf path)) account w' r →
      R (w.begun support (familyOf path)) w' → R w (w'.settle (familyOf path) r))
    (h : Course w account w' r) : R w w' := by
  induction h with
  | done w | refused w _ | unsupported _ | ready _ | counted w m run | mapped w s t =>
      exact hleft (.of_eq rfl rfl)
  | andThen _ _ ih ih' => exact IsTrans.trans _ _ _ ih ih'
  | forgiven _ ih => exact ih
  | noted _ _ hevent ih => exact IsTrans.trans _ _ _ ih (hleft (unturned_record _ hevent))
  | provided w m => exact hleft (unturned_provideModule w m)
  | derived w id => exact hleft (unturned_deriveRecord w id)
  | ran hbegin hrun ih => exact hran hbegin hrun ih

/-! ## What every course keeps -/

/-- **What is ready stays ready**, and no provider for it begins or ends: only the run that marked a
family takes the mark back, and no run is started for a family that is marked. -/
theorem kept (h : Course w account w' r) (hready : w.IsReady family) :
    w'.IsReady family ∧ w'.turns family = w.turns family := by
  let R (w w' : Workspace) : Prop :=
    w.IsReady family → w'.IsReady family ∧ w'.turns family = w.turns family
  have : IsTrans Workspace R := ⟨fun w w₁ w₂ h h' hw =>
    ⟨(h' (h hw).1).1, (h' (h hw).1).2.trans (h hw).2⟩⟩
  refine rel (R := R) ?_ ?_ h hready
  · intro w w' hleft hw
    exact ⟨(hleft.isReady_iff family).mpr hw, hleft.turns family⟩
  · intro w w' path support p account r hbegin _ ih hw
    have hother : familyOf path ≠ family := fun heq => (begin_spec hbegin).1 (heq ▸ hw)
    obtain ⟨hw', hturns⟩ := ih ((isReady_begun hbegin).mpr (.inr hw))
    refine ⟨isReady_settle.mpr ⟨fun heq => absurd heq.symm hother, hw'⟩, ?_⟩
    simpa [turns_settle, turns_begun, hother] using hturns

/-- No family loses its provider, though another may take its place. -/
theorem provided_of (h : Course w account w' r) (hprovided : w.IsProvided family) :
    w'.IsProvided family := by
  let R (w w' : Workspace) : Prop := w.IsProvided family → w'.IsProvided family
  have : IsTrans Workspace R := ⟨fun w w₁ w₂ h h' hw => h' (h hw)⟩
  refine rel (R := R) ?_ ?_ h hprovided
  · intro w w' hleft
    exact hleft.provided family
  · intro w w' path support p account r hbegin _ ih hw
    exact isProvided_settle.mpr (ih ((isProvided_begun hbegin).mpr hw))

/-- Every family that is ready is registered, and stays so. -/
theorem registered (h : Course w account w' r) (hregistered : w.Registered) : w'.Registered := by
  let R (w w' : Workspace) : Prop := w.Registered → w'.Registered
  have : IsTrans Workspace R := ⟨fun w w₁ w₂ h h' hw => h' (h hw)⟩
  refine rel (R := R) ?_ ?_ h hregistered
  · intro w w' hleft hw family hready
    exact hleft.provided family (hw family ((hleft.isReady_iff family).mp hready))
  · intro w w' path support p account r hbegin _ ih hw family hready
    have hready' := (isReady_settle.mp hready).2
    exact isProvided_settle.mpr (ih (registered_begun hbegin hw) family hready')

/-- **Nothing fails for want of support for a family that is ready.** -/
theorem ne_noSupport (h : Course w account w' r) (hready : w.IsReady family) :
    r ≠ .error (.noSupport family) := by
  induction h with
  | done w | forgiven _ _ | counted w m run | provided w m | mapped w s t | ready _ => simp
  | refused w he => simpa using he family
  | andThen h _ _ ih' => exact ih' (h.kept hready).1
  | noted _ _ _ ih => exact ih hready
  | derived w id =>
      intro hfailed
      cases hderived : (w.deriveRecord id).2 with
      | ok t => simp [hderived, Except.map] at hfailed
      | error e =>
          obtain rfl : e = .noSupport family := by simpa [hderived, Except.map] using hfailed
          exact absurd (isTypeError_of_deriveRecord hderived) (by simp [Error.isTypeError])
  | unsupported hbegin =>
      obtain ⟨hnot, -, rfl⟩ := SupportRegistry.begin_eq_error.mp hbegin
      rintro ⟨⟩
      exact absurd hready (by simp [IsReady, hnot])
  | ran hbegin _ ih => exact ih ((isReady_begun hbegin).mpr (.inr hready))

end Course

/-! ## What is to be said of every call -/

/-- A call for a family that goes by the rules. -/
structure Lawful (before : Workspace) (path : String) (after : Workspace)
    (answer : Except Error Unit) : Prop where
  /-- It succeeds exactly if the family is ready after it. -/
  answered : answer = .ok () ↔ after.IsReady (familyOf path)
  /-- What was ready or being made ready still is, and no run for it began or ended meanwhile. -/
  kept : ∀ family, before.IsReady family →
    after.IsReady family ∧ after.turns family = before.turns family
  /-- It misses support for its own family only if there was none when the call was made. -/
  unsupported : answer = .error (.noSupport (familyOf path)) ↔
    ¬before.IsReady (familyOf path) ∧ ¬before.IsProvided (familyOf path)
  registered : before.Registered ∧ after.Registered

section Lawful

variable {path : String} {support : SupportRegistry} {p : Provider} {account : List Happening}
  {r : Except Error Unit}

lemma lawful_unsupported {e : Error} (h : w.context.support.begin (familyOf path) = .error e)
    (hw : w.Registered) : Lawful w path w (.error e) := by
  obtain ⟨hready, hprovider, rfl⟩ := SupportRegistry.begin_eq_error.mp h
  have hnot : ¬w.IsReady (familyOf path) := by simp [IsReady, hready]
  refine ⟨by simpa using hnot, fun family hfamily => ⟨hfamily, rfl⟩, ?_, hw, hw⟩
  refine iff_of_true rfl ⟨hnot, fun hprovided => ?_⟩
  rw [IsProvided, SupportRegistry.contains, Table.contains] at hprovided
  rw [SupportRegistry.get?] at hprovider
  simp [hprovider] at hprovided

lemma lawful_ready (h : w.context.support.begin (familyOf path) = .ok (support, none))
    (hw : w.Registered) : Lawful w path w (.ok ()) := by
  have hready : w.IsReady (familyOf path) := (SupportRegistry.begin_eq_none.mp h).1
  refine ⟨iff_of_true rfl hready, fun family hfamily => ⟨hfamily, rfl⟩, ?_, hw, hw⟩
  exact iff_of_false (by simp) fun hnot => hnot.1 hready

/-- A provider that runs takes back its own mark and no other. -/
lemma lawful_ran (h : w.context.support.begin (familyOf path) = .ok (support, some p))
    (h' : Course (w.begun support (familyOf path)) account w' r) (hw : w.Registered) :
    Lawful w path (w'.settle (familyOf path) r) r := by
  have hran := Course.ran h h'
  have hmarked : (w.begun support (familyOf path)).IsReady (familyOf path) :=
    (isReady_begun h).mpr (.inl rfl)
  refine ⟨?_, fun family hfamily => hran.kept hfamily, ?_, hw, hran.registered hw⟩
  · rw [isReady_settle]
    exact ⟨fun hr => ⟨fun _ => hr, (h'.kept hmarked).1⟩, fun hready => hready.1 rfl⟩
  · exact iff_of_false (h'.ne_noSupport hmarked) fun hnot => hnot.2 (begin_spec h).2

end Lawful

/-- **Every call goes by the rules**, at any depth, if those that were ready at the start were
registered. -/
theorem Course.lawful {account : List Happening} {r : Except Error Unit}
    (h : Course w account w' r) (hw : w.Registered) {before after : Workspace} {path : String}
    {answer : Except Error Unit} (hasked : .asked before path after answer ∈ account) :
    Lawful before path after answer := by
  induction h with
  | done w | refused w _ | counted w m run | provided w m => exact absurd hasked (by simp)
  | mapped w s t => exact absurd hasked (by simp)
  | derived w id => exact absurd hasked (by simp)
  | andThen h _ ih ih' =>
      rcases List.mem_append.mp hasked with hasked | hasked
      · exact ih hw hasked
      · exact ih' (h.registered hw) hasked
  | forgiven _ ih => exact ih hw hasked
  | noted _ _ _ ih => exact ih hw hasked
  | unsupported h =>
      obtain ⟨⟩ := List.mem_singleton.mp hasked
      exact lawful_unsupported h hw
  | ready h =>
      obtain ⟨⟩ := List.mem_singleton.mp hasked
      exact lawful_ready h hw
  | ran h h' ih =>
      rcases List.mem_append.mp hasked with hasked | hasked
      · exact ih (registered_begun h hw) hasked
      · obtain ⟨⟩ := List.mem_singleton.mp hasked
        exact lawful_ran h h' hw

end Workspace

end ForeignTypes
