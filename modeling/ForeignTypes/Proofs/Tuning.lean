import ForeignTypes.Proofs.Typing
import ForeignTypes.Proofs.Sweeping

/-!
# What does not depend on the ledger

Two contexts may differ in their ledgers and in the threshold that they were made with, and in
nothing else.  Carrying types across and running support modules then come to the same answers, and
leave the two contexts with the same difference.  Lending and boxing look into the ledger and change
it; they come to the same answers as long as both ledgers trim a third one.

How deep modules may run inside one another makes no difference either, once a call comes to an
answer; both facts go through the same induction.

* `Context.tuned`, `Workspace.tuned` — another ledger, and another threshold.
* **`Workspace.ensureWithin_tuned`** — a call in the tuned workspace, with room to go deeper.
* `Workspace.ensureWithin_mono` — the same in one workspace.
* `Workspace.Blind` — operations that neither look at the ledger nor at the threshold.
* `Context.Matches`, `Workspace.Matches` — ledgers that trim a third one.
* **`Workspace.Matches.lend`**, **`Workspace.Matches.box`** — lending and boxing.
-/

namespace ForeignTypes

/-- The same context with another ledger, and made with another threshold. -/
def Context.tuned (c : Context) (l : Ledger) (n : Nat) : Context :=
  { c with ledger := l, options := { c.options with pruneThreshold := n } }

namespace Workspace

def tuned (w : Workspace) (l : Ledger) (n : Nat) : Workspace :=
  { w with context := w.context.tuned l n }

variable {w w' : Workspace} {l : Ledger} {n : Nat}

/-! ## Carrying types across -/

lemma deriveRecord_tuned (w : Workspace) (l : Ledger) (n : Nat) (id : StructId) :
    (w.tuned l n).deriveRecord id
      = ((w.deriveRecord id).1.tuned l n, (w.deriveRecord id).2) := by
  have hderive : (w.tuned l n).context.records.derive (w.tuned l n).process.structs
      (w.tuned l n).context.scalars (w.tuned l n).process.types id
      = w.context.records.derive w.process.structs w.context.scalars w.process.types id := rfl
  rw [deriveRecord, deriveRecord, hderive]
  cases w.context.records.derive w.process.structs w.context.scalars w.process.types id with
  | error e => rfl
  | ok answer => rfl

lemma functionType_tuned (w : Workspace) (l : Ledger) (n : Nat) (f : FunctionPointer) :
    (w.tuned l n).functionType f = ((w.functionType f).1.tuned l n, (w.functionType f).2) := by
  have hderive : (w.tuned l n).deriveFunction f = w.deriveFunction f := rfl
  rw [functionType, functionType, hderive]
  cases w.deriveFunction f with
  | error e => rfl
  | ok callable => rfl

lemma typeOfReady_tuned (w : Workspace) (l : Ledger) (n : Nat) (t : CType) :
    (w.tuned l n).typeOfReady t = ((w.typeOfReady t).1.tuned l n, (w.typeOfReady t).2) := by
  cases t with
  | struct id => exact deriveRecord_tuned w l n id
  | void | scalar s | pointer t => rfl

lemma provideModule_tuned (w : Workspace) (l : Ledger) (n : Nat) (m : ModuleId) :
    (w.tuned l n).provideModule m = (w.provideModule m).tuned l n := by
  have hmodules : (w.tuned l n).process.modules = w.process.modules := rfl
  rw [provideModule, provideModule, hmodules]
  cases w.process.modules[m.index]? with
  | none => rfl
  | some s => rfl

/-! ## Running support modules -/

section Modules

/-- What `ensure` answers, `ensure'` answers in the tuned workspace. -/
def Follows (l : Ledger) (n : Nat) (ensure ensure' : Ensure) : Prop :=
  ∀ w path w' r, ensure w path = some (w', r) →
    ensure' (w.tuned l n) path = some (w'.tuned l n, r)

variable {ensure ensure' : Ensure} (hfollows : Follows l n ensure ensure')

include hfollows

lemma typeOfWith_tuned {module : String} {t : CType} {r : Except Error ValueType}
    (h : typeOfWith ensure w module t = some (w', r)) :
    typeOfWith ensure' (w.tuned l n) module t = some (w'.tuned l n, r) := by
  rw [typeOfWith] at h ⊢
  rcases hasked : ensure w module with _ | ⟨w₁, e | ⟨⟩⟩
  · simp [hasked] at h
  · simp only [hasked, Option.some.injEq, Prod.mk.injEq] at h
    obtain ⟨rfl, rfl⟩ := h
    rw [hfollows _ _ _ _ hasked]
  · simp only [hasked, Option.some.injEq] at h
    rw [hfollows _ _ _ _ hasked]
    simp only [typeOfReady_tuned, h]

lemma typeNotedWith_tuned {family module : String} {run : Nat} {t : CType} {r : Except Error Unit}
    (h : typeNotedWith ensure family run w module t = some (w', r)) :
    typeNotedWith ensure' family run (w.tuned l n) module t = some (w'.tuned l n, r) := by
  rw [typeNotedWith] at h ⊢
  rcases htyped : typeOfWith ensure w module t with _ | ⟨w₁, r₁⟩
  · simp [htyped] at h
  · simp only [htyped, Option.some.injEq, Prod.mk.injEq] at h
    obtain ⟨rfl, rfl⟩ := h
    rw [typeOfWith_tuned hfollows htyped]
    rfl

lemma performWith_tuned {family : String} {run : Nat} {a : Action} {r : Except Error Unit}
    (h : performWith ensure family run w a = some (w', r)) :
    performWith ensure' family run (w.tuned l n) a = some (w'.tuned l n, r) := by
  cases a with
  | mapScalar s t | fail message | failIn k message =>
      obtain ⟨rfl, rfl⟩ := Prod.mk.inj (Option.some.inj h)
      rfl
  | provide m =>
      obtain ⟨rfl, rfl⟩ := Prod.mk.inj (Option.some.inj h)
      rw [performWith, provideModule_tuned]
  | require path | invite path =>
      rw [performWith] at h ⊢
      rcases hasked : ensure w path with _ | ⟨w₁, r₁⟩
      · simp [hasked] at h
      · simp only [hasked, Option.some.injEq, Prod.mk.injEq] at h
        obtain ⟨rfl, rfl⟩ := h
        rw [hfollows _ _ _ _ hasked]
        rfl
  | typeStruct id => exact typeNotedWith_tuned hfollows h
  | typeObject module t => exact typeNotedWith_tuned hfollows h

lemma runWith_tuned {family : String} {run : Nat} {actions : List Action} {r : Except Error Unit}
    (h : runWith ensure family run w actions = some (w', r)) :
    runWith ensure' family run (w.tuned l n) actions = some (w'.tuned l n, r) := by
  induction actions generalizing w with
  | nil =>
      obtain ⟨rfl, rfl⟩ := Prod.mk.inj (Option.some.inj h)
      rfl
  | cons a rest ih =>
      rw [runWith] at h ⊢
      rcases hdone : performWith ensure family run w a with _ | ⟨w₁, e | ⟨⟩⟩
      · simp [hdone] at h
      · simp only [hdone, Option.some.injEq, Prod.mk.injEq] at h
        obtain ⟨rfl, rfl⟩ := h
        rw [performWith_tuned hfollows hdone]
      · simp only [hdone] at h
        rw [performWith_tuned hfollows hdone]
        exact ih h

lemma startWith_tuned {p : Provider} {r : Except Error Unit}
    (h : startWith ensure w p = some (w', r)) :
    startWith ensure' (w.tuned l n) p = some (w'.tuned l n, r) := by
  cases p with
  | builtin =>
      obtain ⟨rfl, rfl⟩ := Prod.mk.inj (Option.some.inj h)
      rfl
  | scripted m =>
      cases hm : w.process.modules[m.index]? with
      | none =>
          have hm' : (w.tuned l n).process.modules[m.index]? = none := hm
          simp only [startWith, hm, Option.some.injEq, Prod.mk.injEq] at h
          obtain ⟨rfl, rfl⟩ := h
          simp only [startWith, hm']
      | some s =>
          have hm' : (w.tuned l n).process.modules[m.index]? = some s := hm
          rw [startWith_scripted hm] at h
          rw [startWith_scripted hm']
          exact runWith_tuned hfollows h

end Modules

lemma settle_tuned (w : Workspace) (l : Ledger) (n : Nat) (family : String)
    (r : Except Error Unit) : (w.tuned l n).settle family r = (w.settle family r).tuned l n := by
  cases r with
  | ok _ => rfl
  | error e => rfl

/-- **A call comes to the same answer** in a tuned workspace, and if it may go deeper: by induction
on the depth. -/
theorem ensureWithin_tuned {depth depth' : Nat} (hdepth : depth ≤ depth') (l : Ledger) (n : Nat) :
    Follows l n (ensureWithin depth) (ensureWithin depth') := by
  induction depth using Nat.strongRecOn generalizing depth' with
  | ind depth ih =>
      intro w path w' r h
      rcases ensureWithin_cases h with ⟨e, hbegin, rfl, rfl⟩ | ⟨support, hbegin, rfl, rfl⟩
        | ⟨support, p, lower, w₁, rfl, hbegin, hstart, rfl⟩
      · exact ensureWithin_error (by exact hbegin) depth'
      · exact ensureWithin_ready (by exact hbegin) depth'
      · obtain ⟨lower', rfl⟩ : ∃ lower', depth' = lower' + 1 := ⟨depth' - 1, by omega⟩
        have hstart' := startWith_tuned
          (ih lower (Nat.lt_succ_self lower) (Nat.le_of_succ_le_succ hdepth)) hstart
        have hbegin' : (w.tuned l n).context.support.begin (familyOf path)
            = .ok (support, some p) := hbegin
        have hbegun : (w.tuned l n).begun support (familyOf path)
            = (w.begun support (familyOf path)).tuned l n := rfl
        rw [ensureWithin_succ hbegin', hbegun, hstart', Option.map_some, settle_tuned]

/-- More room to go deeper does not change an answer. -/
theorem ensureWithin_mono {depth depth' : Nat} (hdepth : depth ≤ depth') {path : String}
    {answer : Workspace × Except Error Unit} (h : ensureWithin depth w path = some answer) :
    ensureWithin depth' w path = some answer := by
  obtain ⟨w', r⟩ := answer
  have htuned {d : Nat} (hd : depth ≤ d) :=
    ensureWithin_tuned hd w.context.ledger w.context.options.pruneThreshold w path w' r h
  -- tuned to its own ledger and threshold the workspace is itself, and so is what the call leaves
  have hsame : some (w', r) = some (w'.tuned _ _, r) := h.symm.trans (htuned (Nat.le_refl _))
  exact (htuned hdepth).trans hsame.symm

/-! ## Operations that do not look -/

/-- An operation that sees neither the ledger nor the threshold of its context. -/
def Blind {α : Type} (f : Workspace → Workspace × Except Error α) : Prop :=
  ∀ w l n, f (w.tuned l n) = ((f w).1.tuned l n, (f w).2)

lemma blind_ensure (path : String) : Blind (·.ensure path) := by
  intro w l n
  obtain ⟨⟨w', r⟩, hasked⟩ := exists_ensureWithin w.fits_families path
  have hasked' := ensureWithin_tuned (Nat.le_refl _) l n _ _ _ _ hasked
  have hfamilies : (w.tuned l n).families = w.families := rfl
  simp only [ensure, hfamilies, hasked, hasked']

lemma blind_typeOf (o : ObjectId) : Blind (·.typeOf o) := by
  intro w l n
  have hobject : (w.tuned l n).process.heap.object? o = w.process.heap.object? o := rfl
  simp only [typeOf, hobject]
  cases w.process.heap.object? o with
  | none => rfl
  | some x =>
      simp only [blind_ensure x.module w l n]
      rcases w.ensure x.module with ⟨w', e | ⟨⟩⟩
      · rfl
      · exact typeOfReady_tuned w' l n x.type

lemma blind_boxOwned (r : RecordType) (t : ValueType) (bytes : List UInt8) :
    Blind (·.boxOwned r t bytes) := by
  intro w l n
  have hstruct : (w.tuned l n).context.records.structOf? r.struct
      = w.context.records.structOf? r.struct := rfl
  have hprocess : (w.tuned l n).process = w.process := rfl
  simp only [boxOwned, hstruct, hprocess]
  split
  · rfl
  · split
    · rfl
    · split
      · rfl
      · split
        · rfl
        · rfl

/-! ## Lending and boxing -/

end Workspace

/-- Two contexts that differ in their ledgers and thresholds only, where both ledgers trim a third
one. -/
def Context.Matches (heap : Heap) (c c' : Context) : Prop :=
  ∃ l n full, c' = c.tuned l n ∧ c.ledger.Trims heap full ∧ l.Trims heap full

lemma Context.Matches.mono {heap heap' : Heap} {c c' : Context} (h : c.Matches heap c')
    (hlater : heap.Ages heap') : c.Matches heap' c' := by
  obtain ⟨l, n, full, heq, hl, hl'⟩ := h
  exact ⟨l, n, full, heq, hl.mono hlater, hl'.mono hlater⟩

namespace Workspace

structure Matches (heap : Heap) (w w' : Workspace) : Prop where
  process : w'.process = w.process
  context : w.context.Matches heap w'.context

variable {w w' : Workspace} {heap : Heap}

/-- Two workspaces and two results of the same work in them. -/
def Alike {α : Type} (heap : Heap) (answer answer' : Workspace × α) : Prop :=
  answer'.2 = answer.2 ∧ answer.1.Matches heap answer'.1

lemma Matches.blind {α : Type} {f : Workspace → Workspace × Except Error α} (hf : Blind f)
    (h : w.Matches heap w') : Alike heap (f w) (f w') := by
  obtain ⟨process, context⟩ := w'
  obtain ⟨rfl, l, n, full, rfl, hl, hl'⟩ := h
  have htuned : f ⟨w.process, w.context.tuned l n⟩ = ((f w).1.tuned l n, (f w).2) := hf w l n
  -- such an operation leaves the ledger as it is
  have hself := congrArg (fun answer => answer.1.context.ledger)
    (hf w w.context.ledger w.context.options.pruneThreshold)
  have hledger : (f w).1.context.ledger = w.context.ledger := hself
  rw [htuned]
  exact ⟨rfl, rfl, l, n, full, rfl, hledger ▸ hl, hl'⟩

/-- Lending, where a failure changes nothing. -/
def lend (w : Workspace) (t : ValueType) (o : ObjectId) (address : Address) :
    Workspace × Except Error Loan :=
  match w.unbox t o address with
  | .ok (w', loan) => (w', .ok loan)
  | .error e => (w, .error e)

/-- **Lending** a living object comes to the same answer. -/
theorem Matches.lend (h : w.Matches w.process.heap w') {o : ObjectId}
    (ho : w.process.heap.isAlive o = true) (t : ValueType) (address : Address) :
    Alike w.process.heap (w.lend t o address) (w'.lend t o address) := by
  obtain ⟨process, context⟩ := w'
  obtain ⟨rfl, l, n, full, rfl, hl, hl'⟩ := h
  have halive : (w.process.heap.retain o).isAlive = w.process.heap.isAlive :=
    funext fun o' => Heap.isAlive_retain ho o'
  have hmade := Heap.index_lt_of_isAlive ho
  have hclass (x : ForeignObject) :
      checkClass ⟨w.process, w.context.tuned l n⟩ t x = w.checkClass t x := rfl
  have hsame (e : Error) : Alike w.process.heap (w, (.error e : Except Error Loan))
      (⟨w.process, w.context.tuned l n⟩, .error e) := ⟨rfl, rfl, l, n, full, rfl, hl, hl'⟩
  simp only [Workspace.lend, unbox, hclass, Process.newRegionId, ForeignSide.takeError, halive]
  cases w.process.heap.object? o with
  | none => exact hsame _
  | some x =>
      simp only
      cases w.checkClass t x with
      | error e => exact hsame e
      | ok _ =>
          simp only
          -- an object that is lent with a fault is not entered
          cases w.process.foreign.outstanding with
          | some message => exact ⟨rfl, rfl, l, n, full, rfl, hl, hl'⟩
          | none => exact ⟨rfl, rfl, _, n, _, rfl, hl.insert hmade _, hl'.insert hmade _⟩

/-- **Boxing** comes to the same answer. -/
theorem Matches.box (h : w.Matches w.process.heap w') (t : ValueType) (r : Region) :
    Alike w.process.heap (w.box t r) (w'.box t r) := by
  have hblind (record : RecordType) (bytes : List UInt8) := h.blind (blind_boxOwned record t bytes)
  obtain ⟨process, context⟩ := w'
  obtain ⟨rfl, l, n, full, rfl, hl, hl'⟩ := h
  have hpeek : (w.context.tuned l n).ledger.peek w.process.heap.isAlive r.id
      = w.context.ledger.peek w.process.heap.isAlive r.id :=
    (hl'.peek r.id).trans (hl.peek r.id).symm
  have hmismatch (o : ObjectId) :
      mismatch? ⟨w.process, w.context.tuned l n⟩ t o = w.mismatch? t o := rfl
  have hsame (e : Error) : Alike w.process.heap (w, (.error e : Except Error ObjectId))
      (⟨w.process, w.context.tuned l n⟩, .error e) := ⟨rfl, rfl, l, n, full, rfl, hl, hl'⟩
  simp only [Workspace.box.eq_def, hpeek, hmismatch]
  cases w.context.ledger.peek w.process.heap.isAlive r.id with
  | some o =>
      simp only
      cases w.mismatch? t o with
      | some e => exact hsame e
      | none => exact ⟨rfl, rfl, _, n, _, rfl, hl.redeem r.id, hl'.redeem r.id⟩
  | none =>
      simp only
      split
      · split
        · exact hblind _ _
        · exact hsame _
      · exact hsame _
      · exact hsame _
      · exact hsame _

end Workspace

end ForeignTypes
