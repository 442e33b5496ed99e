import ForeignTypes.Proofs.Mapping

/-!
# Fields without a size

The layout of a record takes the room of each field from its value type, and gives a field whose
type has no size no room at all.  Pointers have a size, and so have the types that scalars are
mapped to at first; but a scalar can be mapped to any type, and then a field of that scalar may take
no room.  Those are the only such fields.

* `TypeStore.IsUnsized`, `TypeStore.extentOf_eq_none_iff` — the types that have no size.
* `Workspace.Derives` — a record that was not there before.
* `FieldDecl.extentOf_eq_none_iff_of_derive` — the fields that take no room.
* **`Session.Runs.fields_sized`** — the fields of all records that were derived in a context.
* **`Session.not_fields_sized`** — a record with a field that takes no room.
-/

namespace ForeignTypes

namespace TypeStore

/-- The types without a size: no value at all, a foreign value whose layout is not known, and a
record that is not in the store. -/
def IsUnsized (types : TypeStore) : ValueType → Prop
  | .unit | .foreign => True
  | .record id => types.record? id = none
  | .bool | .int _ _ | .float32 | .float64 | .longDouble | .address | .handle | .pointer _
  | .function _ => False

lemma extentOf_eq_none_iff {types : TypeStore} {v : ValueType} :
    types.extentOf v = none ↔ types.IsUnsized v := by
  cases v with
  | record id => exact Option.map_eq_none_iff
  | unit | foreign => exact iff_of_true rfl trivial
  | _ => exact iff_of_false (by simp [extentOf, ValueType.extent?]) id

end TypeStore

/-! ## One field -/

section Fields

variable {m : ScalarMap} {structs : StructTable} {self : StructId} {f : FieldDecl}
  {field : RecordField} {types : TypeStore}

/-- **A field takes no room** exactly if it is of a scalar that is mapped to a type without a size;
a field behind a pointer always takes room. -/
lemma FieldDecl.extentOf_eq_none_iff_of_derive (h : f.derive structs m self = .ok field) :
    types.extentOf field.type = none ↔
      ∃ s v, f.type = .scalar s ∧ m.toValueType? s = some v ∧ types.IsUnsized v := by
  obtain ⟨-, hpeel, hvoid, v, hv, rfl⟩ := derive_eq_ok_iff.mp h
  cases htype : f.type with
  | void => exact absurd htype hvoid
  | struct id => exact absurd (by rw [htype]; rfl) (hpeel id)
  | scalar s =>
      rw [htype] at hv
      rw [TypeStore.extentOf_eq_none_iff]
      constructor
      · exact fun hunsized => ⟨s, v, rfl, hv, hunsized⟩
      · rintro ⟨s', v', hs, hv', hunsized⟩
        obtain rfl := CType.scalar.inj hs
        obtain rfl := Option.some.inj (hv.symm.trans hv')
        exact hunsized
  | pointer inner =>
      rw [htype] at hv
      obtain ⟨v', -, rfl⟩ := Option.map_eq_some_iff.mp hv
      exact iff_of_false (by simp [TypeStore.extentOf, ValueType.extent?]) (by simp)

lemma RecordField.extent_of_some {e : Extent} (h : types.extentOf field.type = some e) :
    field.extent types = ⟨field.name, e.size, e.align⟩ := by
  rw [extent, h]

/-- Every scalar is mapped to a type with a size. -/
def ScalarRule.sized : ScalarRule := fun types _ v => (types.extentOf v).isSome

lemma ScalarRule.stays_sized : sized.Stays := fun _ _ _ _ hextends hv => by
  obtain ⟨e, he⟩ := Option.isSome_iff_exists.mp hv
  exact Option.isSome_iff_exists.mpr ⟨e, hextends.extentOf he⟩

lemma ScalarMap.obeys_sized_builtin (policy : ReversePolicy) (types : TypeStore) :
    (builtin policy).Obeys .sized types := fun s v hv => by
  rw [ScalarRule.sized, keepsSizes_builtin policy s v hv types]
  rfl

/-- Under a map of sized types every field has the room of its type. -/
lemma FieldDecl.exists_extent (hm : m.Obeys .sized types)
    (h : f.derive structs m self = .ok field) :
    ∃ e, types.extentOf field.type = some e ∧
      field.extent types = ⟨field.name, e.size, e.align⟩ := by
  cases he : types.extentOf field.type with
  | some e => exact ⟨e, rfl, RecordField.extent_of_some he⟩
  | none =>
      obtain ⟨s, v, -, hv, hunsized⟩ := (extentOf_eq_none_iff_of_derive h).mp he
      have hsized := hm s v hv
      rw [ScalarRule.sized, TypeStore.extentOf_eq_none_iff.mpr hunsized] at hsized
      exact absurd hsized (by simp)

end Fields

/-! ## Records that are derived -/

/-- What is related to a member of the right list is a member of the left. -/
lemma exists_of_forall₂_of_mem {α β : Type} {R : α → β → Prop} {xs : List α} {ys : List β} {y : β}
    (h : List.Forall₂ R xs ys) (hy : y ∈ ys) : ∃ x ∈ xs, R x y := by
  induction h with
  | nil => exact absurd hy List.not_mem_nil
  | @cons x y' xs ys hxy _ ih =>
      rcases List.mem_cons.mp hy with rfl | hrest
      · exact ⟨x, List.mem_cons_self, hxy⟩
      · obtain ⟨x', hx', hR⟩ := ih hrest
        exact ⟨x', List.mem_cons_of_mem x hx', hR⟩

namespace Workspace

variable {w : Workspace} {id : StructId} {r : RecordType}

/-- Asked for the record of the class, the context derives `r`, which it did not have. -/
structure Derives (w : Workspace) (id : StructId) (r : RecordType) : Prop where
  isNew : w.context.records.get? id = none
  answer : ∃ t, (w.deriveRecord id).2 = .ok t ∧
    (w.deriveRecord id).1.process.types.recordOf? t = some r

lemma Derives.isDerivedWith (h : w.Derives id r) :
    r.struct = id ∧ r.IsDerivedWith w.process.structs w.context.scalars w.process.types := by
  obtain ⟨t, ht, hr⟩ := h.answer
  rcases w.deriveRecord_cases id with ⟨e, -, hw⟩ | ⟨t', ht', -⟩ | ⟨r', -, hid, hr', hw⟩
  · rw [hw] at ht
    exact absurd ht (by simp)
  · exact absurd (h.isNew.symm.trans ht') (by simp)
  · rw [hw] at ht hr
    obtain rfl := Except.ok.inj ht
    obtain rfl := Option.some.inj ((w.recordOf?_withRecord r').symm.trans hr)
    exact ⟨hid, hr'⟩

/-- The fields of the class and those of the record that is derived from it, one by one. -/
lemma Derives.forall₂_fields (h : w.Derives id r) :
    ∃ fields, w.process.structs.fields? id = some fields ∧
      List.Forall₂ (fun f field =>
        f.derive w.process.structs w.context.scalars id = .ok field) fields r.fields ∧
      r.layout = .compute w.process.structs.counting
        (r.fields.map (·.extent w.process.types)) r.pack := by
  obtain ⟨rfl, d, fields, hd, hfields, hderived, hr⟩ := h.isDerivedWith
  refine ⟨fields, StructTable.fields?_eq hd hfields, mapM_eq_ok_iff.mp hderived, ?_⟩
  have hpack : r.pack = d.pack := by rw [hr]; rfl
  rw [hpack]
  exact congrArg RecordType.layout hr

end Workspace

namespace Session

variable {s : Session} {history : List Performed} {name : String} {c : Context}

/-- **The sizes of fields.**  When the record of a class is derived in a context,

* the fields of the class go across one by one, and the layout gives each the room of its type; a
  field takes no room exactly if it is of a scalar that the context maps to a type without a size;
* if each scalar that was ever mapped in the context was mapped to a type with a size, then every
  field has a size. -/
theorem Runs.fields_sized (hruns : start.Runs history s) (hc : s.contexts.get? name = some c) :
    (∀ w id r, .derived w id ∈ happeningsIn history c.id → w.Derives id r →
      r.layout = .compute w.process.structs.counting
        (r.fields.map (·.extent w.process.types)) r.pack ∧
      ∃ fields, w.process.structs.fields? id = some fields ∧
        List.Forall₂ (fun f field => field.name = f.name ∧
          (w.process.types.extentOf field.type = none ↔ ∃ s v, f.type = .scalar s ∧
            w.context.scalars.toValueType? s = some v ∧ w.process.types.IsUnsized v))
          fields r.fields) ∧
    (Mapped .sized (happeningsIn history c.id) →
      ∀ w id r, .derived w id ∈ happeningsIn history c.id → w.Derives id r →
        ∀ field ∈ r.fields, ∃ e, w.process.types.extentOf field.type = some e ∧
          field.extent w.process.types = ⟨field.name, e.size, e.align⟩) := by
  refine ⟨fun w id r _ hr => ?_, fun hmapped w id r hmem hr field hfield => ?_⟩
  · obtain ⟨fields, hfields, hderived, hlayout⟩ := hr.forall₂_fields
    refine ⟨hlayout, fields, hfields, hderived.imp fun f field hf => ⟨?_, ?_⟩⟩
    · obtain ⟨-, -, -, v, -, rfl⟩ := FieldDecl.derive_eq_ok_iff.mp hf
      rfl
    · exact FieldDecl.extentOf_eq_none_iff_of_derive hf
  · obtain ⟨-, hasked⟩ :=
      hruns.obeys ScalarRule.stays_sized ScalarMap.obeys_sized_builtin hc hmapped
    obtain ⟨fields, -, hderived, -⟩ := hr.forall₂_fields
    obtain ⟨f, -, hf⟩ := exists_of_forall₂_of_mem hderived hfield
    exact FieldDecl.exists_extent (hasked w id hmem) hf

/-- The class `Pair` is declared, and its first scalar is mapped to a type. -/
def mappedPair (v : ValueType) : Session :=
  ((start.perform (.mapScalar "main" .int32 v)).2.perform (.declareStruct "P"
    ⟨"Pair", "native.records", none,
      some [⟨"x", .scalar .int32, none⟩, ⟨"y", .scalar .int8, none⟩]⟩)).2

/-- What `Pair` goes across as. -/
def pair (v : ValueType) : RecordType :=
  .ofFields .words {} ⟨0⟩ "Pair" [⟨"x", v⟩, ⟨"y", .int true .w8⟩] none

lemma derives_mappedPair (v : ValueType) : ∃ c, (mappedPair v).contexts.get? "main" = some c ∧
    Workspace.Derives ⟨(mappedPair v).process, c⟩ ⟨0⟩ (pair v) :=
  ⟨_, rfl, rfl, _, rfl, rfl⟩

/-- The record is asked for after the scalar was mapped, and nothing else happens. -/
lemma runs_derivedPair (v : ValueType) : ∃ history c w,
    start.Runs history ((mappedPair v).perform (.deriveRecord "main" "P" none)).2 ∧
    ((mappedPair v).perform (.deriveRecord "main" "P" none)).2.contexts.get? "main" = some c ∧
    happeningsIn history c.id = [.derived w ⟨0⟩, .mapped ⟨start.process, .new ⟨0⟩ {}⟩ .int32 v] ∧
    w.Derives ⟨0⟩ (pair v) := by
  obtain ⟨c, hc, hderives⟩ := derives_mappedPair v
  refine ⟨_, _, ⟨(mappedPair v).process, c⟩,
    (((Runs.nil (s := start)).cons (.mapScalar "main" .int32 v)).cons _).cons _, rfl, ?_, hderives⟩
  obtain rfl := Option.some.inj hc
  rfl

/-- With its first scalar mapped to a wider integer, both fields of the class have a size. -/
theorem fields_sized_mappedPair : ∃ history c w,
    start.Runs history ((mappedPair (.int true .w64)).perform (.deriveRecord "main" "P" none)).2 ∧
    .derived w ⟨0⟩ ∈ happeningsIn history c ∧ w.Derives ⟨0⟩ (pair (.int true .w64)) ∧
    ∀ field ∈ (pair (.int true .w64)).fields,
      ∃ e, w.process.types.extentOf field.type = some e := by
  obtain ⟨history, c, w, hruns, hc, hhappenings, hderives⟩ := runs_derivedPair (.int true .w64)
  have hmapped : Mapped .sized (happeningsIn history c.id) := by
    intro w s v hmem
    simp only [hhappenings, List.mem_cons, List.not_mem_nil, or_false, reduceCtorEq, false_or,
      Happening.mapped.injEq] at hmem
    obtain ⟨-, -, rfl⟩ := hmem
    rfl
  have hmem : .derived w ⟨0⟩ ∈ happeningsIn history c.id := by
    rw [hhappenings]
    exact List.mem_cons_self
  refine ⟨history, c.id, w, hruns, hmem, hderives, fun field hfield => ?_⟩
  obtain ⟨e, he, -⟩ := (hruns.fields_sized hc).2 hmapped w ⟨0⟩ _ hmem hderives field hfield
  exact ⟨e, he⟩

/-- With its first scalar mapped to no value at all, the class has a record whose first field has no
size. -/
theorem not_fields_sized :
    ¬∀ history s name c w id r, start.Runs history s → s.contexts.get? name = some c →
      .derived w id ∈ happeningsIn history c.id → w.Derives id r →
      ∀ field ∈ r.fields, ∃ e, w.process.types.extentOf field.type = some e := by
  intro hall
  obtain ⟨history, c, w, hruns, hc, hhappenings, hderives⟩ := runs_derivedPair .unit
  have hmem : .derived w ⟨0⟩ ∈ happeningsIn history c.id := by
    rw [hhappenings]
    exact List.mem_cons_self
  obtain ⟨e, he⟩ := hall _ _ _ _ w ⟨0⟩ _ hruns hc hmem hderives _ List.mem_cons_self
  exact absurd he (by simp [TypeStore.extentOf, ValueType.extent?])

end Session

end ForeignTypes
