import ForeignTypes.Proofs.Course
import ForeignTypes.Proofs.Records

/-!
# Stores of types that grow

A type is made once, under an identity that no type had before, and it stays what it was made.  So
whatever is known of a type stays true, in every context and however many modules run meanwhile.

* `TypeStore.Numbered` — no identity is used before its turn.
* `TypeStore.Extends` — a later store, with all types of the earlier.
* **`TypeStore.grows_add`** — a new type is no type that was there.
* `Workspace.LeavesTyping` — what typing reads and writes is as it was.
* **`Workspace.Course.growsTypes`** — the store along a course of things in a context.
-/

namespace ForeignTypes

namespace TypeStore

variable {s s' s'' : TypeStore} {id : TypeId}

/-- Every identity in the store is one that was given out. -/
def Numbered (s : TypeStore) : Prop := ∀ id c, s.composite? id = some c → id.index < s.made.length

def Extends (s s' : TypeStore) : Prop := ∀ id c, s.composite? id = some c → s'.composite? id = some c

/-- A store that is numbered stays so, and keeps its types. -/
def Grows (s s' : TypeStore) : Prop := s.Numbered → s'.Numbered ∧ s.Extends s'

lemma Extends.refl (s : TypeStore) : s.Extends s := fun _ _ h => h

lemma Extends.trans (h : s.Extends s') (h' : s'.Extends s'') : s.Extends s'' :=
  fun id c hc => h' id c (h id c hc)

lemma Grows.refl (s : TypeStore) : s.Grows s := fun hs => ⟨hs, Extends.refl s⟩

lemma Grows.trans (h : s.Grows s') (h' : s'.Grows s'') : s.Grows s'' := by
  intro hs
  obtain ⟨hs', hextends⟩ := h hs
  obtain ⟨hs'', hextends'⟩ := h' hs'
  exact ⟨hs'', hextends.trans hextends'⟩

lemma Extends.record? (h : s.Extends s') {r : RecordType} (hr : s.record? id = some r) :
    s'.record? id = some r := by
  rw [TypeStore.record?] at hr ⊢
  cases hc : s.composite? id with
  | none => simp [hc] at hr
  | some c => rwa [h id c hc, ← hc]

lemma Extends.recordOf? (h : s.Extends s') {t : ValueType} {r : RecordType}
    (hr : s.recordOf? t = some r) : s'.recordOf? t = some r := by
  cases t with
  | record id => exact h.record? hr
  | _ => exact absurd hr (by simp [TypeStore.recordOf?])

/-- A type that has room keeps it. -/
lemma Extends.extentOf (h : s.Extends s') {t : ValueType} {e : Extent}
    (ht : s.extentOf t = some e) : s'.extentOf t = some e := by
  cases t with
  | record id =>
      obtain ⟨r, hr, rfl⟩ := Option.map_eq_some_iff.mp ht
      exact Option.map_eq_some_iff.mpr ⟨r, h.record? hr, rfl⟩
  | _ => exact ht

/-- **A new type is no type that was there.** -/
theorem grows_add (s : TypeStore) (c : Composite) : s.Grows (s.add c).1 := by
  intro hs
  refine ⟨fun id c' hc' => ?_, fun id c' hc' => ?_⟩
  · rw [composite?_add] at hc'
    show id.index < s.made.length + 1
    split at hc'
    · next hid =>
        rw [hid]
        exact Nat.lt_succ_self _
    · exact Nat.lt_succ_of_lt (hs id c' hc')
  · have hold : id ≠ s.nextId := by
      rintro rfl
      exact Nat.lt_irrefl _ (hs _ c' hc')
    rw [composite?_add, if_neg hold]
    exact hc'

end TypeStore

/-! ## Contexts at work -/

/-- A record that a context has already is not made again. -/
lemma RecordCache.growsTypes_derive {c c' : RecordCache} {structs : StructTable} {m : ScalarMap}
    {types types' : TypeStore} {id : StructId} {t : ValueType}
    (h : c.derive structs m types id = .ok (c', types', t)) : types.Grows types' := by
  rcases RecordCache.derive_cases h with ⟨-, -, rfl⟩ | ⟨r, -, -, -, -, hadd⟩
  · exact TypeStore.Grows.refl _
  · rw [(Prod.mk.inj hadd).1]
    exact types.grows_add _

namespace Workspace

lemma growsTypes_deriveRecord (w : Workspace) (id : StructId) :
    w.process.types.Grows (w.deriveRecord id).1.process.types := by
  rw [deriveRecord]
  cases hderive : w.context.records.derive w.process.structs w.context.scalars w.process.types
      id with
  | error e => exact TypeStore.Grows.refl _
  | ok answer => exact RecordCache.growsTypes_derive hderive

lemma growsTypes_functionType (w : Workspace) (f : FunctionPointer) :
    w.process.types.Grows (w.functionType f).1.process.types := by
  rw [functionType]
  cases w.deriveFunction f with
  | error e => exact TypeStore.Grows.refl _
  | ok callable => exact w.process.types.grows_add _

/-- What typing reads and writes is as it was. -/
structure LeavesTyping (w w' : Workspace) : Prop where
  structs : w'.process.structs = w.process.structs
  types : w'.process.types = w.process.types
  scalars : w'.context.scalars = w.context.scalars
  records : w'.context.records = w.context.records

lemma leavesTyping_provideModule (w : Workspace) (m : ModuleId) :
    w.LeavesTyping (w.provideModule m) := by
  rw [provideModule]
  cases w.process.modules[m.index]? with
  | some s => exact ⟨rfl, rfl, rfl, rfl⟩
  | none => exact ⟨rfl, rfl, rfl, rfl⟩

lemma leavesTyping_settle (w : Workspace) (family : String) (r : Except Error Unit) :
    w.LeavesTyping (w.settle family r) := by
  cases r with
  | ok _ => exact ⟨rfl, rfl, rfl, rfl⟩
  | error e => exact ⟨rfl, rfl, rfl, rfl⟩

/-- **The types along a course**: those that were there stay. -/
theorem Course.growsTypes {w w' : Workspace} {account : List Happening} {r : Except Error Unit}
    (h : Course w account w' r) : w.process.types.Grows w'.process.types := by
  induction h with
  | done w | refused w _ | unsupported _ | ready _ => exact TypeStore.Grows.refl _
  | counted w m run | mapped w s t => exact TypeStore.Grows.refl _
  | andThen _ _ ih ih' => exact ih.trans ih'
  | forgiven _ ih => exact ih
  | noted _ _ _ ih => exact ih
  | provided w m =>
      rw [(leavesTyping_provideModule w m).types]
      exact TypeStore.Grows.refl _
  | derived w id => exact w.growsTypes_deriveRecord id
  | @ran w w' path support p account r _ _ ih =>
      rw [(leavesTyping_settle w' (familyOf path) r).types]
      exact ih

end Workspace

end ForeignTypes
