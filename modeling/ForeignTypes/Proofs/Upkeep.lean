import ForeignTypes.Proofs.Layouts
import ForeignTypes.Proofs.Operations

/-!
# Making things and letting them go

Most commands make things or let things go: classes, objects, handles, loans, regions, support
modules.  Each of them is a few small changes, one after the other: something goes under a name,
the references to an object change, a layout is noted.  A relation that tolerates every such change
tolerates all these commands.

* `Command.isUpkeep` — the commands.
* `SessionM.Tolerates` — the relations that tolerate the small changes.
* **`SessionM.Tolerates.within`** — they tolerate the commands.
-/

namespace ForeignTypes

/-- The commands that make things and let things go: they open no context, carry no type across,
lend and box nothing, and raise and take no error. -/
def Command.isUpkeep : {α : Type} → Command α → Bool
  | _, makeContext _ _ _ => false
  | _, unbox _ _ _ _ _ => false
  | _, box _ _ _ _ => false
  | _, raise _ => false
  | _, takeError => false
  | _, c => !c.isTyping

namespace SessionM

/-- The relation holds between a session and the same with a small change. -/
structure Tolerates (R : Session → Session → Prop) : Prop where
  names : ∀ {s s' : Session}, s'.process = s.process → s'.contexts = s.contexts → R s s'
  heap : ∀ (s : Session) heap, R s { s with process := { s.process with heap } }
  structs : ∀ (s : Session) {structs : StructTable}, s.process.structs.Grows structs →
    R s { s with process := { s.process with structs } }
  constructed : ∀ (s : Session) constructed, R s { s with process := { s.process with
    foreign := { s.process.foreign with constructed } } }
  regions : ∀ (s : Session) regions, R s { s with process := { s.process with regions } }
  modules : ∀ (s : Session) m, R s { s with process := { s.process with
    modules := s.process.modules ++ [m] } }
  redeem : ∀ (s : Session) t, R s (s.redeem t)
  dropContext : ∀ (s : Session) name, R s { s with contexts := s.contexts.erase name }

/-- Without the class that is named, nothing happens. -/
lemma related_of_struct {R : Session → Session → Prop} [Std.Refl R] {s : Session} {struct : String}
    {α : Type} {f : StructId → Except Failure α × Session} {e : Failure}
    (h : ∀ id, R s (f id).2) :
    R s (match s.structs.get? struct with
      | some id => f id
      | none => (.error e, s)).2 := by
  cases s.structs.get? struct with
  | some id => exact h id
  | none => exact Std.Refl.refl s

namespace Tolerates

variable {R : Session → Session → Prop} (hR : Tolerates R) [IsTrans Session R]

include hR

lemma withObject (s : Session) (name : String) (o : ObjectId) : R s (s.withObject name o) := by
  have hnamed : R s { s with objects := s.objects.put name o } := hR.names rfl rfl
  rw [Session.withObject]
  cases s.objects.get? name with
  | some old => exact IsTrans.trans _ _ _ hnamed (hR.heap _ _)
  | none => exact hnamed

lemma nameObject (name : String) (o : ObjectId) : Within R (nameObject name o) :=
  fun s => hR.withObject s name o

lemma made {s : Session} {answer : Process × Except Error ObjectId}
    (h : R s { s with process := answer.1 }) (name : String) : R s (s.made name answer).2 := by
  rcases answer with ⟨p, e | o⟩
  · exact h
  · exact IsTrans.trans _ _ _ h (hR.withObject _ name o)

lemma makeRecord (s : Session) (id : StructId) (bytes : List UInt8) :
    R s { s with process := (s.process.makeRecord id bytes).1 } := by
  have hsize : R s { s with process := (s.process.sizeOf id).1 } :=
    hR.structs s (StructTable.grows_layout _ id)
  simp only [Process.makeRecord]
  split
  · split
    · exact hsize
    · exact IsTrans.trans _ _ _ hsize (hR.heap _ _)
  · exact IsTrans.trans _ _ _ hsize (hR.heap _ _)

lemma construct (s : Session) (id : StructId) (bytes : List UInt8) :
    R s { s with process := (s.process.construct id bytes).1 } := by
  have hmake := hR.makeRecord s id bytes
  rw [Process.construct]
  split
  · next hp =>
      rw [hp] at hmake
      exact hmake
  · next hp =>
      rw [hp] at hmake
      exact IsTrans.trans _ _ _ hmake (hR.constructed _ _)

variable [Std.Refl R]

lemma endLoan (s : Session) (l : Loan) : R s (s.endLoan l) := by
  have hreleased : R s (if l.isHolding then s.dropObject l.object else s) := by
    split
    · exact hR.heap s _
    · exact Std.Refl.refl s
  rw [Session.endLoan]
  cases l.ticket with
  | some t => exact IsTrans.trans _ _ _ hreleased (hR.redeem _ t)
  | none => exact hreleased

lemma withLoan (s : Session) (name : String) (l : Loan) : R s (s.withLoan name l) := by
  have hnamed : R s { s with loans := s.loans.put name l } := hR.names rfl rfl
  rw [Session.withLoan]
  cases s.loans.get? name with
  | some old => exact IsTrans.trans _ _ _ hnamed (hR.endLoan _ old)
  | none => exact hnamed

/-- **Making things and letting them go** is tolerated by such a relation. -/
theorem within {α : Type} {c : Command α} (hc : c.isUpkeep = true) : Within R c.perform := by
  have hsame : ∀ s : Session, R s s := Std.Refl.refl
  cases c with
  | makeContext | unbox | box | raise | takeError => exact absurd hc (by simp [Command.isUpkeep])
  | resolveCType | mapScalar | deriveRecord | functionType | typeOf | provide | ensure =>
      exact absurd hc (by simp [Command.isUpkeep, Command.isTyping])
  | dropContext name => exact fun s => hR.dropContext s name
  | declareStruct name d =>
      refine within_bind (within_inProcess fun s => ?_) fun id => ?_
      · exact hR.structs s (StructTable.grows_declare _ d)
      · exact within_bind (within_modify fun _ => hR.names rfl rfl) fun _ => within_pure id
  | setFields struct fields =>
      refine within_bind (within_lookup _ _ _) fun id => within_inProcess fun s => ?_
      exact hR.structs s (StructTable.grows_setFields _ id fields)
  | layoutOf id =>
      show Within R (SessionM.layoutOf id)
      exact within_inProcess fun s => hR.structs s (StructTable.grows_layout _ id)
  | extentOf t =>
      show Within R (SessionM.extentOf t)
      exact within_inProcess fun s => hR.structs s (StructTable.grows_extentOf _ t)
  | makeFunction name f =>
      show Within R (SessionM.makeFunction name f)
      exact within_modify fun _ => hR.names rfl rfl
  | makeObject name t module bytes | makeScalar name scalar bytes =>
      refine within_bind (within_inProcess fun s => hR.heap s _) fun o => ?_
      exact within_bind (hR.nameObject name o) fun _ => within_pure o
  | makeRecord name struct bytes =>
      intro s
      show R s (s.perform _).2
      rw [Session.perform_makeRecord]
      exact related_of_struct fun id => hR.made (hR.makeRecord s id bytes) name
  | makeZeroed name struct =>
      intro s
      show R s (s.perform _).2
      rw [Session.perform_makeZeroed]
      refine related_of_struct fun id => hR.made ?_ name
      have hsize : R s { s with process := (s.process.sizeOf id).1 } :=
        hR.structs s (StructTable.grows_layout _ id)
      exact IsTrans.trans _ _ _ hsize (hR.heap _ _)
  | construct name struct bytes =>
      intro s
      show R s (s.perform _).2
      rw [Session.perform_construct]
      exact related_of_struct fun id => hR.made (hR.construct s id bytes) name
  | copyHandle name object =>
      refine within_bind (within_lookup _ _ _) fun o => ?_
      refine within_bind (within_inProcess fun s => hR.heap s _) fun _ => ?_
      exact within_bind (hR.nameObject name o) fun _ => within_pure o
  | dropHandle object =>
      intro s
      show R s (s.perform _).2
      rw [Session.perform_dropHandle]
      cases s.objects.get? object with
      | none => exact hsame s
      | some o =>
          have hnamed : R s { s with objects := s.objects.erase object } := hR.names rfl rfl
          exact IsTrans.trans _ _ _ hnamed (hR.heap _ _)
  | makeWeak name object =>
      refine within_bind (within_lookup _ _ _) fun o => ?_
      exact within_modify fun _ => hR.names rfl rfl
  | upgrade name weak =>
      intro s
      show R s (s.perform _).2
      rw [Session.perform_upgrade]
      cases s.weaks.get? weak with
      | none => exact hsame s
      | some o =>
          show R s (if _ then _ else _ : Except Failure (Option ObjectId) × Session).2
          split
          · exact IsTrans.trans _ (s.retain o) _ (hR.heap s _) (hR.withObject _ name o)
          · exact hsame s
  | releaseLoan loan =>
      refine within_bind (within_lookup _ _ _) fun l => within_modify fun s => ?_
      have hnamed : R s { s with loans := s.loans.put loan { l with isHolding := false } } :=
        hR.names rfl rfl
      show R s (if l.isHolding then _ else _)
      split
      · exact IsTrans.trans _ _ _ hnamed (hR.heap _ _)
      · exact hnamed
  | dropLoan loan =>
      intro s
      show R s (s.perform _).2
      rw [Session.perform_dropLoan]
      cases s.loans.get? loan with
      | none => exact hsame s
      | some l =>
          have hnamed : R s { s with loans := s.loans.erase loan } := hR.names rfl rfl
          exact IsTrans.trans _ _ _ hnamed (hR.endLoan _ l)
  | makeOwned name bytes =>
      refine within_bind (within_inProcess fun s => hR.regions s _) fun r => ?_
      exact within_bind (within_modify fun _ => hR.names rfl rfl) fun _ => within_pure r
  | copyRegion name region =>
      refine within_bind (within_heldRegion region) fun r => ?_
      exact within_modify fun _ => hR.names rfl rfl
  | makeModule name family actions =>
      refine within_bind (within_inProcess fun s => hR.modules s _) fun id => ?_
      exact within_modify fun _ => hR.names rfl rfl
  | registerBuiltin family => exact fun _ => hR.names rfl rfl

end Tolerates

end SessionM

end ForeignTypes
