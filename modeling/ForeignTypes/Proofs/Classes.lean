import ForeignTypes.Proofs.Nesting
import ForeignTypes.Proofs.Stores
import ForeignTypes.Proofs.Upkeep

/-!
# What commands keep

Whatever a command does, struct classes and types stay: classes are declared, a class gets its
fields once, a search for a layout leaves notes, and new types and support modules are added.  Most
commands do not work with the types of a context either, and change no more of it than its ledger.

* `Process.Keeps`, `Workspace.Keeps`, `Session.Keeps` — what is later has the layouts and types of
  what was, and the contexts that are there differ from what they were in nothing but ledgers.
* `Command.isPlain`, **`Session.keeps_perform`** — the commands that keep all that.
* `Session.GrowsClasses`, **`Session.Runs.growsClasses`** — layouts stay under every command.
* **`Session.Runs.layouts`** — the layouts of a session, now and later.
-/

namespace ForeignTypes

/-! ## Objects made, and regions boxed -/

namespace Process

/-- Classes, types and support modules only grow, and no context is made. -/
structure Keeps (p p' : Process) : Prop where
  structs : p.structs.Grows p'.structs
  types : p.types.Grows p'.types
  contexts : p'.contexts = p.contexts
  families : p.moduleFamilies <+: p'.moduleFamilies

lemma Keeps.refl (p : Process) : p.Keeps p := ⟨.refl _, .refl _, rfl, List.prefix_rfl⟩

lemma Keeps.trans {p p' p'' : Process} (h : p.Keeps p') (h' : p'.Keeps p'') : p.Keeps p'' where
  structs := h.structs.trans h'.structs
  types := h.types.trans h'.types
  contexts := h'.contexts.trans h.contexts
  families := h.families.trans h'.families

/-- A change that concerns none of what is to be kept. -/
lemma Keeps.of_eq {p p' : Process} (hstructs : p'.structs = p.structs) (htypes : p'.types = p.types)
    (hcontexts : p'.contexts = p.contexts) (hmodules : p'.modules = p.modules) : p.Keeps p' := by
  refine ⟨?_, ?_, hcontexts, ?_⟩
  · rw [hstructs]
    exact .refl _
  · rw [htypes]
    exact .refl _
  · simp only [moduleFamilies, hmodules, List.prefix_rfl]

lemma keeps_sizeOf (p : Process) (id : StructId) : p.Keeps (p.sizeOf id).1 :=
  ⟨StructTable.grows_layout p.structs id, .refl _, rfl, List.prefix_rfl⟩

end Process

namespace Workspace

/-- Of the context, nothing changes but the ledger. -/
structure Keeps (w w' : Workspace) : Prop where
  process : w.process.Keeps w'.process
  context : w'.context = { w.context with ledger := w'.context.ledger }

lemma Keeps.refl (w : Workspace) : w.Keeps w := ⟨.refl _, rfl⟩

lemma keeps_functionType (w : Workspace) (f : FunctionPointer) : w.Keeps (w.functionType f).1 := by
  have hgrows := w.growsTypes_functionType f
  rw [functionType] at hgrows ⊢
  cases hf : w.deriveFunction f with
  | error e => exact Keeps.refl w
  | ok callable =>
      rw [hf] at hgrows
      exact ⟨⟨.refl _, hgrows, rfl, List.prefix_rfl⟩, rfl⟩

lemma keeps_unbox {w w' : Workspace} {t : ValueType} {o : ObjectId} {address : Address}
    {loan : Loan} (h : w.unbox t o address = .ok (w', loan)) : w.Keeps w' := by
  simp only [unbox] at h
  split at h
  · exact absurd h (by simp)
  · split at h
    · exact absurd h (by simp)
    · split at h
      · obtain ⟨rfl, -⟩ := Prod.mk.inj (Except.ok.inj h)
        exact ⟨.of_eq rfl rfl rfl rfl, rfl⟩
      · obtain ⟨rfl, -⟩ := Prod.mk.inj (Except.ok.inj h)
        exact ⟨.of_eq rfl rfl rfl rfl, rfl⟩

lemma keeps_boxOwned (w : Workspace) (record : RecordType) (t : ValueType) (bytes : List UInt8) :
    w.Keeps (w.boxOwned record t bytes).1 := by
  have hboxes := w.boxesOwned record t bytes
  generalize w.boxOwned record t bytes = answer at hboxes ⊢
  cases hboxes with
  | unknown | shortOfRecord => exact Keeps.refl w
  | @shortOfClass id => exact ⟨w.process.keeps_sizeOf id, rfl⟩
  | @givenUp id | @made id =>
      exact ⟨(w.process.keeps_sizeOf id).trans (.of_eq rfl rfl rfl rfl), rfl⟩

lemma keeps_box (w : Workspace) (t : ValueType) (r : Region) : w.Keeps (w.box t r).1 := by
  rcases w.box_cases t r with ⟨o, -, -, hbox⟩ | ⟨e, hbox, -⟩ | ⟨id, record, bytes, -, -, -, -, hbox⟩
  · rw [hbox]
    exact ⟨.of_eq rfl rfl rfl rfl, rfl⟩
  · rw [hbox]
    exact Keeps.refl w
  · rw [hbox]
    exact w.keeps_boxOwned record t bytes

end Workspace

/-- The commands that neither make a context nor work with the scalars, records and modules of
one. -/
def Command.isPlain : {α : Type} → Command α → Bool
  | _, makeContext _ _ _ => false
  | _, mapScalar _ _ _ => false
  | _, deriveRecord _ _ _ => false
  | _, typeOf _ _ _ => false
  | _, provide _ _ => false
  | _, ensure _ _ => false
  | _, _ => true

namespace Session

open SessionM

variable {s s' : Session}

/-! ## Commands that keep contexts -/

/-- Every context that is there was there, and differs from what it was in its ledger at most. -/
structure Keeps (s s' : Session) : Prop where
  process : s.process.Keeps s'.process
  contexts : ∀ name c', s'.contexts.get? name = some c' →
    ∃ c, s.contexts.get? name = some c ∧ c' = { c with ledger := c'.ledger }

instance : Std.Refl Keeps where
  refl := fun s => ⟨.refl s.process, fun _ c hc => ⟨c, hc, rfl⟩⟩

instance : IsTrans Session Keeps where
  trans := by
    intro s s' s'' h h'
    refine ⟨h.process.trans h'.process, fun name c'' hc'' => ?_⟩
    obtain ⟨c', hc', heq'⟩ := h'.contexts name c'' hc''
    obtain ⟨c, hc, heq⟩ := h.contexts name c' hc'
    exact ⟨c, hc, by rw [heq', heq]⟩

lemma Keeps.of_eq (hprocess : s.process.Keeps s'.process) (hcontexts : s'.contexts = s.contexts) :
    Keeps s s' :=
  ⟨hprocess, fun _ c hc => ⟨c, hcontexts ▸ hc, rfl⟩⟩

lemma keeps_redeem (s : Session) (t : Ticket) : Keeps s (s.redeem t) := by
  refine ⟨.refl _, fun name c' hc' => ?_⟩
  rw [redeem, updateContext, Table.get?_update] at hc'
  obtain ⟨c, hc, rfl⟩ := Option.map_eq_some_iff.mp hc'
  refine ⟨c, hc, ?_⟩
  split
  · rfl
  · rfl

lemma keeps_withWork {name : String} {c : Context} (hc : s.contexts.get? name = some c)
    {w : Workspace} (hw : Workspace.Keeps ⟨s.process, c⟩ w) : Keeps s (s.withWork name w) := by
  refine ⟨hw.process, fun name' c' hc' => ?_⟩
  rw [withWork, Table.get?_put] at hc'
  split at hc'
  · next hname =>
      obtain rfl := Option.some.inj hc'
      exact ⟨c, hname ▸ hc, hw.context⟩
  · exact ⟨c', hc', rfl⟩

lemma within_keeps_inContext {α : Type} {name : String}
    {f : Workspace → Workspace × Except Error α} (hf : ∀ w : Workspace, w.Keeps (f w).1) :
    Within Keeps (inContext name f) :=
  within_inContext fun _ _ hc => keeps_withWork hc (hf _)

lemma tolerates_keeps : Tolerates Keeps where
  names := fun hprocess hcontexts => .of_eq (hprocess ▸ .refl _) hcontexts
  heap := fun s _ => .of_eq (.of_eq rfl rfl rfl rfl) rfl
  structs := fun s _ hgrows => .of_eq ⟨hgrows, .refl _, rfl, List.prefix_rfl⟩ rfl
  constructed := fun s _ => .of_eq (.of_eq rfl rfl rfl rfl) rfl
  regions := fun s _ => .of_eq (.of_eq rfl rfl rfl rfl) rfl
  modules := fun s m => .of_eq ⟨.refl _, .refl _, rfl, by simp [Process.moduleFamilies]⟩ rfl
  redeem := keeps_redeem
  dropContext := by
    intro s name
    refine ⟨.refl _, fun name' c hc => ?_⟩
    have hold : (s.contexts.erase name).get? name' = some c := hc
    rw [Table.get?_erase] at hold
    split at hold
    · exact absurd hold (by simp)
    · exact ⟨c, hold, rfl⟩

/-- **A plain command keeps** layouts, types and contexts. -/
theorem keeps_perform {α : Type} {c : Command α} (hc : c.isPlain = true) :
    Within Keeps c.perform := by
  have htypes : ∀ (s : Session) types, Keeps s { s with types } := fun s _ => .of_eq (.refl _) rfl
  cases hupkeep : c.isUpkeep with
  | true => exact tolerates_keeps.within hupkeep
  | false =>
      cases c with
      | resolveCType context t name =>
          exact within_bind within_readContext fun v => within_named htypes name v
      | functionType context function name =>
          refine within_bind (within_lookup _ _ _) fun f => ?_
          refine within_bind (within_keeps_inContext ?_) (within_named htypes name)
          exact fun w => w.keeps_functionType f
      | unbox context name t object address =>
          refine within_bind (within_lookup _ _ _) fun o => ?_
          refine within_bind (fun s => Std.Refl.refl s) fun found => ?_
          refine within_bind (within_keeps_inContext fun w => ?_) fun loan => ?_
          · split
            · next hunbox => exact Workspace.keeps_unbox hunbox
            · exact Workspace.Keeps.refl w
          · refine within_bind (fun s => Std.Refl.refl s) fun found => ?_
            refine within_bind (fun s => ?_) fun _ => within_pure _
            exact tolerates_keeps.withLoan s name loan
      | box context name t region =>
          refine within_bind (within_heldRegion region) fun r => ?_
          refine within_bind (within_keeps_inContext fun w => w.keeps_box t r) fun o => ?_
          exact within_bind (tolerates_keeps.nameObject name o) fun _ => within_pure o
      | raise message =>
          show Within Keeps (SessionM.raise message)
          exact within_inProcess fun s => .of_eq (.of_eq rfl rfl rfl rfl) rfl
      | takeError =>
          show Within Keeps SessionM.takeError
          exact within_inProcess fun s => .of_eq (.of_eq rfl rfl rfl rfl) rfl
      | makeContext | mapScalar | deriveRecord | typeOf | provide | ensure =>
          exact absurd hc (by simp [Command.isPlain])
      | _ => exact absurd hupkeep (by simp [Command.isUpkeep, Command.isTyping])

/-! ## Classes under all commands -/

def GrowsClasses (s s' : Session) : Prop := s.process.structs.Grows s'.process.structs

instance : Std.Refl GrowsClasses where
  refl := fun s => StructTable.Grows.refl s.process.structs

instance : IsTrans Session GrowsClasses where
  trans := fun _ _ _ h h' => StructTable.Grows.trans h h'

lemma overlooks_growsClasses : Overlooks GrowsClasses where
  types := fun s _ => StructTable.Grows.refl s.process.structs
  work := by
    intro s name c hc w hw
    show s.process.structs.Grows w.process.structs
    rw [hw.structs]
    exact StructTable.Grows.refl _

/-- **No command takes a layout away**, and none leaves a wrong note. -/
theorem growsClasses_perform (s : Session) {α : Type} (c : Command α) :
    GrowsClasses s (s.perform c).2 := by
  have hsame : ∀ s : Session, GrowsClasses s s := fun s => StructTable.Grows.refl _
  cases hplain : c.isPlain with
  | true => exact (keeps_perform hplain s).process.structs
  | false =>
      cases c with
      | makeContext name options checked =>
          rcases s.perform_makeContext name options checked with ⟨f, hp⟩ | hp
          · rw [hp]
            exact hsame s
          · rw [hp]
            exact hsame s
      | mapScalar | deriveRecord | typeOf | provide | ensure =>
          exact overlooks_growsClasses.within rfl s
      | _ => exact absurd hplain (by simp [Command.isPlain])

/-- **No run takes a layout away.** -/
theorem Runs.growsClasses {history : List Performed} {t : Session} (hruns : s.Runs history t) :
    GrowsClasses s t := by
  induction hruns with
  | nil => exact Std.Refl.refl s
  | cons earlier c ih => exact IsTrans.trans _ _ _ ih (growsClasses_perform _ c)

lemma sane_start : start.process.structs.Sane :=
  StructTable.sane_of_unsearched rfl rfl

/-! ## The layouts of a session -/

variable {history : List Performed}

/-- **The layouts of a session**: after every run, a class has a layout exactly if it is well
nested, and the answer is that layout, whatever was asked and noted before.  It is the same at any
later time.  No search, at whatever depth of another it takes place, leaves a mark. -/
theorem Runs.layouts (hruns : start.Runs history s) (id : StructId) :
    (∃ answer, (s.perform (.layoutOf id)).1 = .ok answer ∧
      (answer.isSome = true ↔ s.process.structs.WellNested id) ∧
      ∀ l, answer = some l ↔ s.process.structs.HasLayout id l) ∧
    (∀ l later t, (s.perform (.layoutOf id)).1 = .ok (some l) → s.Runs later t →
      (t.perform (.layoutOf id)).1 = .ok (some l)) ∧
    ∀ depth (t : StructTable) inner, (t.layoutWithin depth inner).1.visiting = t.visiting := by
  obtain ⟨hsane, -⟩ := hruns.growsClasses sane_start
  refine ⟨⟨(s.process.structs.layout id).2, rfl, ?_, ?_⟩, ?_, ?_⟩
  · rw [Option.isSome_iff_exists, ← StructTable.exists_hasLayout_iff]
    exact exists_congr fun l => StructTable.layout_eq_some_iff hsane
  · exact fun l => StructTable.layout_eq_some_iff hsane
  · intro l later t hl hlater
    obtain ⟨hsane', hextends⟩ := hlater.growsClasses hsane
    have hhas := StructTable.hasLayout_of_layout hsane (Except.ok.inj hl)
    exact congrArg Except.ok ((StructTable.layout_eq_some_iff hsane').mpr (hhas.mono hextends))
  · exact StructTable.visiting_layoutWithin

/-- The session in which a class holds an instance of another one that is not complete. -/
def declaredOuter : Session :=
  ((start.perform (.declareStruct "I" ⟨"Inner", "native.records", none, none⟩)).2.perform
    (.declareStruct "O" ⟨"Outer", "native.records", some 2,
      some [⟨"tag", .scalar .int8, none⟩, ⟨"inner", .struct ⟨0⟩, none⟩]⟩)).2

/-- The outer class has no layout until the inner one is complete; it then has one for good. -/
theorem layouts_declaredOuter :
    (declaredOuter.perform (.layoutOf ⟨1⟩)).1 = .ok none ∧
      ((declaredOuter.perform (.layoutOf ⟨1⟩)).2.perform
        (.setFields "I" [⟨"x", .scalar .int32, none⟩])).2.process.structs.WellNested ⟨1⟩ := by
  have hruns := (((Runs.nil (s := start)).cons
    (.declareStruct "I" ⟨"Inner", "native.records", none, none⟩)).cons
    (.declareStruct "O" ⟨"Outer", "native.records", some 2,
      some [⟨"tag", .scalar .int8, none⟩, ⟨"inner", .struct ⟨0⟩, none⟩]⟩)).cons
    (.layoutOf ⟨1⟩) |>.cons (.setFields "I" [⟨"x", .scalar .int32, none⟩])
  obtain ⟨⟨answer, hanswer, hiff, -⟩, -⟩ := hruns.layouts ⟨1⟩
  refine ⟨rfl, hiff.mp ?_⟩
  obtain rfl := Except.ok.inj hanswer
  rfl

end Session

end ForeignTypes
