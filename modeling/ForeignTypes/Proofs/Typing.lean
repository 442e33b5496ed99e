import ForeignTypes.Proofs.Depth

/-!
# What typing leaves alone

Carrying types across, running support modules and asking for the type of an object change what a
context knows of types.  They touch no object and no loan: the struct classes, the heap, the foreign
runtime, the counters and the ledger stay as they are, however deep modules run inside one another.

* `Workspace.Spares` — two workspaces that differ in nothing but types and support.
* **`Workspace.Course.spares`** — whatever modules do.
* **`Workspace.spares_ensure`**, **`Workspace.spares_typeOf`** — the operations that run modules.
-/

namespace ForeignTypes.Workspace

/-- What is later differs from what was in nothing but types and support modules. -/
structure Spares (w w' : Workspace) : Prop where
  structs : w'.process.structs = w.process.structs
  heap : w'.process.heap = w.process.heap
  foreign : w'.process.foreign = w.process.foreign
  regions : w'.process.regions = w.process.regions
  contexts : w'.process.contexts = w.process.contexts
  id : w'.context.id = w.context.id
  options : w'.context.options = w.context.options
  ledger : w'.context.ledger = w.context.ledger

lemma Spares.refl (w : Workspace) : w.Spares w := ⟨rfl, rfl, rfl, rfl, rfl, rfl, rfl, rfl⟩

lemma Spares.trans {w₁ w₂ w₃ : Workspace} (h : w₁.Spares w₂) (h' : w₂.Spares w₃) :
    w₁.Spares w₃ where
  structs := h'.structs.trans h.structs
  heap := h'.heap.trans h.heap
  foreign := h'.foreign.trans h.foreign
  regions := h'.regions.trans h.regions
  contexts := h'.contexts.trans h.contexts
  id := h'.id.trans h.id
  options := h'.options.trans h.options
  ledger := h'.ledger.trans h.ledger

/-! ## Types carried across -/

lemma spares_mapScalar (w : Workspace) (s : CScalar) (t : ValueType) : w.Spares (w.mapScalar s t) :=
  ⟨rfl, rfl, rfl, rfl, rfl, rfl, rfl, rfl⟩

lemma spares_deriveRecord (w : Workspace) (id : StructId) : w.Spares (w.deriveRecord id).1 := by
  rw [deriveRecord]
  cases w.context.records.derive w.process.structs w.context.scalars w.process.types id with
  | error e => exact Spares.refl w
  | ok answer => exact ⟨rfl, rfl, rfl, rfl, rfl, rfl, rfl, rfl⟩

lemma spares_functionType (w : Workspace) (f : FunctionPointer) :
    w.Spares (w.functionType f).1 := by
  rw [functionType]
  cases w.deriveFunction f with
  | error e => exact Spares.refl w
  | ok callable => exact ⟨rfl, rfl, rfl, rfl, rfl, rfl, rfl, rfl⟩

/-! ## Support modules -/

lemma spares_record (w : Workspace) (e : SupportEvent) : w.Spares (w.record e) :=
  ⟨rfl, rfl, rfl, rfl, rfl, rfl, rfl, rfl⟩

lemma spares_provideModule (w : Workspace) (m : ModuleId) : w.Spares (w.provideModule m) := by
  rw [provideModule]
  cases w.process.modules[m.index]? with
  | some s => exact ⟨rfl, rfl, rfl, rfl, rfl, rfl, rfl, rfl⟩
  | none => exact Spares.refl w

/-- **Every course leaves the rest alone.** -/
theorem Course.spares {w w' : Workspace} {account : List Happening} {r : Except Error Unit}
    (h : Course w account w' r) : w.Spares w' := by
  induction h with
  | done w | refused w _ | unsupported _ | ready _ => exact Spares.refl _
  | counted w m run => exact ⟨rfl, rfl, rfl, rfl, rfl, rfl, rfl, rfl⟩
  | andThen _ _ ih ih' => exact ih.trans ih'
  | forgiven _ ih => exact ih
  | noted _ event _ ih => exact ih.trans (spares_record _ event)
  | provided w m => exact spares_provideModule w m
  | mapped w s t => exact spares_mapScalar w s t
  | derived w id => exact spares_deriveRecord w id
  | @ran w w' path support p account r _ _ ih =>
      have hbegun : w.Spares (w.begun support (familyOf path)) :=
        ⟨rfl, rfl, rfl, rfl, rfl, rfl, rfl, rfl⟩
      have hsettled : w'.Spares (w'.settle (familyOf path) r) := by
        cases r with
        | ok _ => exact ⟨rfl, rfl, rfl, rfl, rfl, rfl, rfl, rfl⟩
        | error e => exact ⟨rfl, rfl, rfl, rfl, rfl, rfl, rfl, rfl⟩
      exact (hbegun.trans ih).trans hsettled

theorem spares_ensure (w : Workspace) (path : String) : w.Spares (w.ensure path).1 :=
  (course_ensure w path).spares

theorem spares_typeOf (w : Workspace) (o : ObjectId) : w.Spares (w.typeOf o).1 :=
  (course_typeOf w o).spares

end ForeignTypes.Workspace
