import ForeignTypes.Workspace.Ensure
import Mathlib.Tactic.Common

/-!
# The course of things in a context

Asking for a family may run a support module, and what that module does may run others.  Three
things that happen on the way matter to those who look at a context from outside: a scalar is mapped,
the record of a struct class is asked for, and a family is asked for.  The *account* of a call lists
them in order, however deep modules run inside one another; it is read off the run itself.

A *course* forgets which module does what.  It is any sequence of changes that modules could make, so
what is shown of all courses is shown of all modules.  Its one rule that matters is that for the run
of a provider: the family is marked before, and the mark is taken back if the run fails.

* `Happening`, `Workspace.accountWithin` — what happens, and the account of a call.
* `Workspace.Course` — a course of things, with its account and its answer.
* **`Workspace.course_ensureWithin`** — every call takes a course, of which it gives the account.
-/

namespace ForeignTypes

/-- Something that happens in a context, with the workspace in which it happens. -/
inductive Happening
  | mapped (before : Workspace) (s : CScalar) (t : ValueType)
  /-- The record of a struct class was asked for. -/
  | derived (before : Workspace) (id : StructId)
  /-- A family was asked for, and this came of it. -/
  | asked (before : Workspace) (path : String) (after : Workspace) (answer : Except Error Unit)

/-- What happens while a family is made ready. -/
abbrev Account := Workspace → String → List Happening

/-- The family whose provider begins or ends its run. -/
def SupportEvent.turn? : SupportEvent → Option String
  | begun family | ended family _ => some family
  | started _ _ | asked _ _ _ _ | typed _ _ _ _ => none

namespace Workspace

/-! ## The run of a provider -/

/-- A family is marked, and its provider is about to run. -/
def begun (w : Workspace) (support : SupportRegistry) (family : String) : Workspace :=
  (w.setSupport support).record (.begun family)

/-- A module counts its run. -/
def count (w : Workspace) (m : ModuleId) (run : Nat) : Workspace :=
  { w with process := { w.process with
    modules := w.process.modules.modify m.index ({ · with starts := run }) } }

/-- The provider of a family came to its end.  If it failed, the mark is taken back. -/
def settle (w : Workspace) (family : String) : Except Error Unit → Workspace
  | .ok () => w.record (.ended family none)
  | .error e => (w.setSupport (w.context.support.abort family)).record (.ended family (some e))

/-! ### What the steps leave alone -/

@[simp]
lemma process_provideModule (w : Workspace) (m : ModuleId) :
    (w.provideModule m).process = w.process := by
  rw [provideModule]
  cases w.process.modules[m.index]? with
  | some s => rfl
  | none => rfl

@[simp]
lemma log_provideModule (w : Workspace) (m : ModuleId) :
    (w.provideModule m).context.log = w.context.log := by
  rw [provideModule]
  cases w.process.modules[m.index]? with
  | some s => rfl
  | none => rfl

@[simp]
lemma modules_deriveRecord (w : Workspace) (id : StructId) :
    (w.deriveRecord id).1.process.modules = w.process.modules := by
  rw [deriveRecord]
  cases w.context.records.derive w.process.structs w.context.scalars w.process.types id with
  | error e => rfl
  | ok answer => rfl

@[simp]
lemma log_deriveRecord (w : Workspace) (id : StructId) :
    (w.deriveRecord id).1.context.log = w.context.log := by
  rw [deriveRecord]
  cases w.context.records.derive w.process.structs w.context.scalars w.process.types id with
  | error e => rfl
  | ok answer => rfl

@[simp]
lemma process_settle (w : Workspace) (family : String) (r : Except Error Unit) :
    (w.settle family r).process = w.process := by
  cases r with
  | ok _ => rfl
  | error e => rfl

lemma log_begun (w : Workspace) (support : SupportRegistry) (family : String) :
    (w.begun support family).context.log = w.context.log ++ [.begun family] := rfl

lemma log_settle (w : Workspace) (family : String) (r : Except Error Unit) :
    (w.settle family r).context.log = w.context.log ++ [.ended family (failure? r)] := by
  cases r with
  | ok _ => rfl
  | error e => rfl

/-! ### Calls -/

section Equations

variable {w w' : Workspace} {path : String} {support : SupportRegistry} {p : Provider}

lemma ensureWithin_error {e : Error} (h : w.context.support.begin (familyOf path) = .error e)
    (depth : Nat) : ensureWithin depth w path = some (w, .error e) := by
  simp [ensureWithin, h]

lemma ensureWithin_ready (h : w.context.support.begin (familyOf path) = .ok (support, none))
    (depth : Nat) : ensureWithin depth w path = some (w, .ok ()) := by
  simp [ensureWithin, h]

lemma ensureWithin_zero (h : w.context.support.begin (familyOf path) = .ok (support, some p)) :
    ensureWithin 0 w path = none := by
  simp [ensureWithin, h]

/-- One more level: the provider runs, and what comes of it is settled. -/
lemma ensureWithin_succ (h : w.context.support.begin (familyOf path) = .ok (support, some p))
    (depth : Nat) : ensureWithin (depth + 1) w path
      = (startWith (ensureWithin depth) (w.begun support (familyOf path)) p).map
          fun answer => (answer.1.settle (familyOf path) answer.2, answer.2) := by
  rw [ensureWithin, h]
  simp only [begun]
  cases startWith (ensureWithin depth)
      ((w.setSupport support).record (.begun (familyOf path))) p with
  | none => rfl
  | some answer =>
      obtain ⟨w₁, e | ⟨⟩⟩ := answer
      · rfl
      · rfl

/-- All that a call can have done. -/
lemma ensureWithin_cases {depth : Nat} {r : Except Error Unit}
    (h : ensureWithin depth w path = some (w', r)) :
    (∃ e, w.context.support.begin (familyOf path) = .error e ∧ w' = w ∧ r = .error e) ∨
    (∃ support, w.context.support.begin (familyOf path) = .ok (support, none) ∧
      w' = w ∧ r = .ok ()) ∨
    ∃ support p lower w₁, depth = lower + 1 ∧
      w.context.support.begin (familyOf path) = .ok (support, some p) ∧
      startWith (ensureWithin lower) (w.begun support (familyOf path)) p = some (w₁, r) ∧
      w' = w₁.settle (familyOf path) r := by
  rcases hbegin : w.context.support.begin (familyOf path) with e | ⟨support, _ | p⟩
  · rw [ensureWithin_error hbegin] at h
    obtain ⟨rfl, rfl⟩ := Prod.mk.inj (Option.some.inj h)
    exact .inl ⟨e, rfl, rfl, rfl⟩
  · rw [ensureWithin_ready hbegin] at h
    obtain ⟨rfl, rfl⟩ := Prod.mk.inj (Option.some.inj h)
    exact .inr (.inl ⟨support, rfl, rfl, rfl⟩)
  · cases depth with
    | zero => exact absurd ((ensureWithin_zero hbegin).symm.trans h) (by simp)
    | succ lower =>
        rw [ensureWithin_succ hbegin] at h
        obtain ⟨⟨w₁, r₁⟩, hstart, heq⟩ := Option.map_eq_some_iff.mp h
        obtain ⟨rfl, rfl⟩ := Prod.mk.inj heq
        exact .inr (.inr ⟨support, p, lower, w₁, rfl, rfl, hstart, rfl⟩)

lemma startWith_scripted {ensure : Ensure} {m : ModuleId} {s : SupportModule}
    (h : w.process.modules[m.index]? = some s) :
    startWith ensure w (.scripted m) = runWith ensure s.family (s.starts + 1)
      ((w.count m (s.starts + 1)).record (.started s.family (s.starts + 1))) s.actions := by
  simp only [startWith, h, count]

end Equations

/-! ## Accounts -/

/-- Typing a value of a struct class asks for its record. -/
def accountOfReady (w : Workspace) : CType → List Happening
  | .struct id => [.derived w id]
  | .void | .scalar _ | .pointer _ => []

section Accounts

variable (ensure : Ensure) (account : Account)

/-- A value is typed once its family is ready. -/
def accountOfTyping (w : Workspace) (module : String) (t : CType) : List Happening :=
  account w module ++
    match ensure w module with
    | some (w', .ok ()) => w'.accountOfReady t
    | _ => []

def accountOfAction (w : Workspace) : Action → List Happening
  | .mapScalar s t => [.mapped w s t]
  | .require path | .invite path => account w path
  | .typeStruct id => accountOfTyping ensure account w (w.process.moduleOf id) (.struct id)
  | .typeObject module t => accountOfTyping ensure account w module t
  | .provide _ | .fail _ | .failIn _ _ => []

/-- The actions of a module, up to the first that fails. -/
def accountOfActions (family : String) (run : Nat) : Workspace → List Action → List Happening
  | _, [] => []
  | w, a :: rest =>
    accountOfAction ensure account w a ++
      match performWith ensure family run w a with
      | some (w', .ok ()) => accountOfActions family run w' rest
      | _ => []

def accountOfStart (w : Workspace) : Provider → List Happening
  | .builtin => []
  | .scripted m =>
    match w.process.modules[m.index]? with
    | none => []
    | some s => accountOfActions ensure account s.family (s.starts + 1)
        ((w.count m (s.starts + 1)).record (.started s.family (s.starts + 1))) s.actions

end Accounts

/-- What happens when a family is asked for; the asking itself comes last. -/
def accountWithin : Nat → Account
  | depth, w, path =>
    match w.context.support.begin (familyOf path) with
    | .error e => [.asked w path w (.error e)]
    | .ok (_, none) => [.asked w path w (.ok ())]
    | .ok (support, some provider) =>
      match depth with
      | 0 => []
      | depth + 1 =>
        accountOfStart (ensureWithin depth) (accountWithin depth)
            (w.begun support (familyOf path)) provider ++
          match ensureWithin (depth + 1) w path with
          | some (after, answer) => [.asked w path after answer]
          | none => []

/-! ## Courses -/

/-- A course of things from one workspace to another, with its account and its answer. -/
inductive Course : Workspace → List Happening → Workspace → Except Error Unit → Prop
  | done (w : Workspace) : Course w [] w (.ok ())
  /-- Something fails for a reason other than missing support. -/
  | refused (w : Workspace) {e : Error} (he : ∀ family, e ≠ .noSupport family) :
    Course w [] w (.error e)
  | andThen {w w₁ w₂ : Workspace} {before after : List Happening} {r : Except Error Unit}
      (h : Course w before w₁ (.ok ())) (h' : Course w₁ after w₂ r) :
    Course w (before ++ after) w₂ r
  /-- A failure is passed over. -/
  | forgiven {w w' : Workspace} {account : List Happening} {e : Error}
      (h : Course w account w' (.error e)) : Course w account w' (.ok ())
  /-- Something is written to the log. -/
  | noted {w w' : Workspace} {account : List Happening} {r : Except Error Unit}
      (h : Course w account w' r) (event : SupportEvent) (hevent : event.turn? = none) :
    Course w account (w'.record event) r
  | counted (w : Workspace) (m : ModuleId) (run : Nat) : Course w [] (w.count m run) (.ok ())
  | provided (w : Workspace) (m : ModuleId) : Course w [] (w.provideModule m) (.ok ())
  | mapped (w : Workspace) (s : CScalar) (t : ValueType) :
    Course w [.mapped w s t] (w.mapScalar s t) (.ok ())
  | derived (w : Workspace) (id : StructId) :
    Course w [.derived w id] (w.deriveRecord id).1 ((w.deriveRecord id).2.map fun _ => ())
  | unsupported {w : Workspace} {path : String} {e : Error}
      (h : w.context.support.begin (familyOf path) = .error e) :
    Course w [.asked w path w (.error e)] w (.error e)
  | ready {w : Workspace} {path : String} {support : SupportRegistry}
      (h : w.context.support.begin (familyOf path) = .ok (support, none)) :
    Course w [.asked w path w (.ok ())] w (.ok ())
  /-- The provider of a family runs. -/
  | ran {w w' : Workspace} {path : String} {support : SupportRegistry} {p : Provider}
      {account : List Happening} {r : Except Error Unit}
      (h : w.context.support.begin (familyOf path) = .ok (support, some p))
      (h' : Course (w.begun support (familyOf path)) account w' r) :
    Course w (account ++ [.asked w path (w'.settle (familyOf path) r) r])
      (w'.settle (familyOf path) r) r

/-- Every answer takes a course, of which the account is given. -/
def Accounted (ensure : Ensure) (account : Account) : Prop :=
  ∀ w path w' r, ensure w path = some (w', r) → Course w (account w path) w' r

/-- Without a struct class, typing a value asks only whether its type goes across. -/
lemma course_typeOfReady (w : Workspace) (t : CType) :
    Course w (w.accountOfReady t) (w.typeOfReady t).1 ((w.typeOfReady t).2.map fun _ => ()) := by
  cases t with
  | struct id => exact .derived w id
  | void => exact .refused w (by simp)
  | scalar s | pointer t =>
      simp only [typeOfReady, resolveCType, FunctionPointer.resolve]
      split
      · exact .done w
      · exact .refused w (by simp)

section Modules

variable {ensure : Ensure} {account : Account} (haccount : Accounted ensure account)
  {w w' : Workspace}

include haccount

lemma course_typeOfWith {module : String} {t : CType} {r : Except Error ValueType}
    (h : typeOfWith ensure w module t = some (w', r)) :
    Course w (accountOfTyping ensure account w module t) w' (r.map fun _ => ()) := by
  rw [typeOfWith] at h
  rw [accountOfTyping]
  rcases hasked : ensure w module with _ | ⟨w₁, e | ⟨⟩⟩
  · simp [hasked] at h
  · have hcourse := haccount _ _ _ _ hasked
    simp only [hasked, Option.some.injEq, Prod.mk.injEq] at h
    obtain ⟨rfl, rfl⟩ := h
    simpa [Except.map] using hcourse
  · have hcourse := haccount _ _ _ _ hasked
    have hready := course_typeOfReady w₁ t
    simp only [hasked, Option.some.injEq] at h
    rw [h] at hready
    exact hcourse.andThen hready

lemma course_typeNotedWith {family module : String} {run : Nat} {t : CType} {r : Except Error Unit}
    (h : typeNotedWith ensure family run w module t = some (w', r)) :
    Course w (accountOfTyping ensure account w module t) w' r := by
  rw [typeNotedWith] at h
  rcases htyped : typeOfWith ensure w module t with _ | ⟨w₁, r₁⟩
  · simp [htyped] at h
  · simp only [htyped, Option.some.injEq, Prod.mk.injEq] at h
    obtain ⟨rfl, rfl⟩ := h
    exact (course_typeOfWith haccount htyped).noted _ rfl

/-- One thing that a module does. -/
lemma course_performWith {family : String} {run : Nat} {a : Action} {r : Except Error Unit}
    (h : performWith ensure family run w a = some (w', r)) :
    Course w (accountOfAction ensure account w a) w' r := by
  cases a with
  | mapScalar s t =>
      obtain ⟨rfl, rfl⟩ := Prod.mk.inj (Option.some.inj h)
      exact .mapped w s t
  | provide m =>
      obtain ⟨rfl, rfl⟩ := Prod.mk.inj (Option.some.inj h)
      exact .provided w m
  | require path =>
      rw [performWith] at h
      rcases hasked : ensure w path with _ | ⟨w₁, r₁⟩
      · simp [hasked] at h
      · simp only [hasked, Option.some.injEq, Prod.mk.injEq] at h
        obtain ⟨rfl, rfl⟩ := h
        exact (haccount _ _ _ _ hasked).noted _ rfl
  | invite path =>
      rw [performWith] at h
      rcases hasked : ensure w path with _ | ⟨w₁, r₁⟩
      · simp [hasked] at h
      · simp only [hasked, Option.some.injEq, Prod.mk.injEq] at h
        obtain ⟨rfl, rfl⟩ := h
        have hcourse := haccount _ _ _ _ hasked
        cases r₁ with
        | ok _ => exact hcourse.noted _ rfl
        | error e => exact hcourse.forgiven.noted _ rfl
  | typeStruct id => exact course_typeNotedWith haccount h
  | typeObject module t => exact course_typeNotedWith haccount h
  | fail message =>
      obtain ⟨rfl, rfl⟩ := Prod.mk.inj (Option.some.inj h)
      exact .refused w (by simp)
  | failIn n message =>
      obtain ⟨rfl, rfl⟩ := Prod.mk.inj (Option.some.inj h)
      split
      · exact .refused w (by simp)
      · exact .done w

lemma course_runWith {family : String} {run : Nat} {actions : List Action} {r : Except Error Unit}
    (h : runWith ensure family run w actions = some (w', r)) :
    Course w (accountOfActions ensure account family run w actions) w' r := by
  induction actions generalizing w with
  | nil =>
      obtain ⟨rfl, rfl⟩ := Prod.mk.inj (Option.some.inj h)
      exact .done w
  | cons a rest ih =>
      rw [runWith] at h
      rw [accountOfActions]
      rcases hdone : performWith ensure family run w a with _ | ⟨w₁, e | ⟨⟩⟩
      · simp [hdone] at h
      · simp only [hdone, Option.some.injEq, Prod.mk.injEq] at h
        obtain ⟨rfl, rfl⟩ := h
        simpa using course_performWith haccount hdone
      · simp only [hdone] at h
        exact (course_performWith haccount hdone).andThen (ih h)

lemma course_startWith {p : Provider} {r : Except Error Unit}
    (h : startWith ensure w p = some (w', r)) :
    Course w (accountOfStart ensure account w p) w' r := by
  cases p with
  | builtin =>
      obtain ⟨rfl, rfl⟩ := Prod.mk.inj (Option.some.inj h)
      exact .done w
  | scripted m =>
      simp only [accountOfStart]
      cases hm : w.process.modules[m.index]? with
      | none =>
          simp only [startWith, hm, Option.some.injEq, Prod.mk.injEq] at h
          obtain ⟨rfl, rfl⟩ := h
          exact .done w
      | some s =>
          rw [startWith_scripted hm] at h
          have hcounted := (Course.counted w m (s.starts + 1)).noted
            (.started s.family (s.starts + 1)) rfl
          exact hcounted.andThen (course_runWith haccount h)

end Modules

/-- **Every call takes a course**, of which it gives the account: by induction on the depth to which
modules run inside one another. -/
theorem course_ensureWithin (depth : Nat) :
    Accounted (ensureWithin depth) (accountWithin depth) := by
  induction depth using Nat.strongRecOn with
  | ind depth ih =>
      intro w path w' r h
      rcases ensureWithin_cases h with ⟨e, hbegin, rfl, rfl⟩ | ⟨support, hbegin, rfl, rfl⟩
        | ⟨support, p, lower, w₁, rfl, hbegin, hstart, rfl⟩
      · unfold accountWithin
        simpa only [hbegin] using Course.unsupported hbegin
      · unfold accountWithin
        simpa only [hbegin] using Course.ready hbegin
      · have hran := Course.ran hbegin (course_startWith (ih lower (Nat.lt_succ_self lower)) hstart)
        simpa only [accountWithin, hbegin, h] using hran

end Workspace

end ForeignTypes
