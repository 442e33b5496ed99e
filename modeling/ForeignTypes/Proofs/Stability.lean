import ForeignTypes.Proofs.Contexts

/-!
# Types that stay

A context derives the record of a class at most once.  Whatever happens in it afterwards, and
however the record is asked for, the answer is the type that was made then; and since a type is made
for one class, no other class ever has the same.

* `Typed` — the record of a class was asked for, and this type was the answer.
* **`Workspace.deriveRecord_cases`** — the ways in which asking for a record ends.
* `CachedRecord.Fits` — an entry is of its class, and so is its type.
* **`Workspace.Course.get?_records`** — what a context has are the answers that were given in it.
* **`Session.Runs.types_stable`** — the types of a class in a context.
-/

namespace ForeignTypes

/-- The record of the class `id` was asked for among these happenings, and the answer was `t`. -/
def Typed (hs : List Happening) (id : StructId) (t : ValueType) : Prop :=
  ∃ w, .derived w id ∈ hs ∧ (w.deriveRecord id).2 = .ok t

/-- The entry under an identity is of that class, and so is its type, which has the name and the
limit on alignment of the class and its fields in order. -/
structure CachedRecord.Fits (p : Process) (id : StructId) (e : CachedRecord) : Prop where
  struct : e.struct = id
  type : ∃ r, p.types.recordOf? e.type = some r ∧ r.struct = id ∧ r.Describes p.structs

lemma CachedRecord.Fits.mono {p p' : Process} {id : StructId} {e : CachedRecord} (h : e.Fits p id)
    (hstructs : p.structs.Extends p'.structs) (htypes : p.types.Extends p'.types) :
    e.Fits p' id := by
  obtain ⟨r, hr, hid, hdescribes⟩ := h.type
  exact ⟨h.struct, r, htypes.recordOf? hr, hid, hdescribes.mono hstructs⟩

section Happenings

variable {hs hs' : List Happening} {id id' : StructId} {t : ValueType}

lemma typed_append : Typed (hs ++ hs') id t ↔ Typed hs id t ∨ Typed hs' id t := by
  simp only [Typed, List.mem_append, or_and_right, exists_or]

lemma typed_derived {w : Workspace} :
    Typed [.derived w id'] id t ↔ id = id' ∧ (w.deriveRecord id').2 = .ok t := by
  constructor
  · rintro ⟨w', hmem, ht⟩
    obtain ⟨⟩ := List.mem_singleton.mp hmem
    exact ⟨rfl, ht⟩
  · rintro ⟨rfl, ht⟩
    exact ⟨w, List.mem_singleton_self _, ht⟩

lemma not_typed_nil : ¬Typed [] id t := by
  simp [Typed]

lemma not_typed_mapped {w : Workspace} {s : CScalar} {v : ValueType} :
    ¬Typed [.mapped w s v] id t := by
  simp [Typed]

lemma not_typed_asked {w w' : Workspace} {path : String} {answer : Except Error Unit} :
    ¬Typed [.asked w path w' answer] id t := by
  simp [Typed]

end Happenings

namespace Workspace

variable {w w' : Workspace} {id id' : StructId} {t : ValueType}

/-! ## Asking for a record -/

/-- The workspace after a record was derived and kept. -/
def withRecord (w : Workspace) (r : RecordType) : Workspace where
  process := { w.process with types := (w.process.types.addRecord r).1 }
  context := { w.context with
    records := ⟨w.context.records.entries.put r.struct
      ⟨r.struct, .record w.process.types.nextId⟩⟩ }

/-- **Asking for a record** fails and leaves no trace, answers the type that is there, or derives a
record and keeps it. -/
theorem deriveRecord_cases (w : Workspace) (id : StructId) :
    (∃ e, w.context.records.get? id = none ∧ w.deriveRecord id = (w, .error e)) ∨
    (∃ t, w.context.records.get? id = some t ∧ w.deriveRecord id = (w, .ok t)) ∨
    ∃ r : RecordType, w.context.records.get? id = none ∧ r.struct = id ∧
      r.IsDerivedWith w.process.structs w.context.scalars w.process.types ∧
      w.deriveRecord id = (w.withRecord r, .ok (.record w.process.types.nextId)) := by
  rw [deriveRecord]
  cases hderive : w.context.records.derive w.process.structs w.context.scalars w.process.types
      id with
  | error e =>
      refine .inl ⟨e, ?_, rfl⟩
      by_contra hsome
      obtain ⟨t, ht⟩ := Option.ne_none_iff_exists'.mp hsome
      simp [RecordCache.derive, ht] at hderive
  | ok answer =>
      obtain ⟨records, types, t⟩ := answer
      rcases RecordCache.derive_cases hderive with ⟨ht, rfl, rfl⟩ | ⟨r, hnew, rfl, hr, rfl, hadd⟩
      · exact .inr (.inl ⟨t, ht, rfl⟩)
      · obtain ⟨rfl, rfl⟩ := Prod.mk.inj hadd
        exact .inr (.inr ⟨r, hnew, rfl, hr, rfl⟩)

lemma get?_withRecord (r : RecordType) : (w.withRecord r).context.records.get? id
    = if r.struct = id then some (.record w.process.types.nextId)
      else w.context.records.get? id := by
  simp only [withRecord, RecordCache.get?, Table.get?_put]
  split
  · rfl
  · rfl

/-- A record that was derived is found under the type that was made for it. -/
lemma recordOf?_withRecord (w : Workspace) (r : RecordType) :
    (w.withRecord r).process.types.recordOf? (.record w.process.types.nextId) = some r :=
  (TypeStore.record?_addRecord _ r _).trans (if_pos rfl)

/-- What a context has after it was asked for a record: what it had, and the answer. -/
lemma get?_records_deriveRecord :
    (w.deriveRecord id').1.context.records.get? id = some t ↔
      w.context.records.get? id = some t ∨ id = id' ∧ (w.deriveRecord id').2 = .ok t := by
  rcases w.deriveRecord_cases id' with ⟨e, -, h⟩ | ⟨t', ht', h⟩ | ⟨r, hnew, rfl, -, h⟩
  · simp [h]
  · rw [h]
    refine (or_iff_left_of_imp ?_).symm
    rintro ⟨rfl, ht⟩
    rw [ht', Except.ok.inj ht]
  · rw [h]
    simp only [get?_withRecord, Except.ok.injEq]
    split
    · next hid =>
        subst hid
        simp [hnew]
    · next hid => simp [Ne.symm hid]

/-! ## Courses -/

/-- Every entry that the context has is as it should be. -/
def EntriesFit (w : Workspace) : Prop :=
  ∀ id e, w.context.records.entries.get? id = some e → e.Fits w.process id

lemma EntriesFit.mono (h : w.EntriesFit) (hrecords : w'.context.records = w.context.records)
    (hstructs : w.process.structs.Extends w'.process.structs)
    (htypes : w.process.types.Extends w'.process.types) : w'.EntriesFit := by
  intro id e he
  rw [hrecords] at he
  exact (h id e he).mono hstructs htypes

lemma EntriesFit.of_leavesTyping (h : w.EntriesFit) (hleaves : w.LeavesTyping w') :
    w'.EntriesFit := by
  refine h.mono hleaves.records ?_ ?_
  · rw [hleaves.structs]
    exact .refl _
  · rw [hleaves.types]
    exact .refl _

/-- A record that is derived fits, and makes no other unfit. -/
lemma EntriesFit.withRecord (h : w.EntriesFit) (hnumbered : w.process.types.Numbered)
    {r : RecordType} (hr : r.Describes w.process.structs) : (w.withRecord r).EntriesFit := by
  intro id e he
  simp only [Workspace.withRecord, Table.get?_put] at he
  split at he
  · next hid =>
      obtain rfl := Option.some.inj he
      exact ⟨hid, r, w.recordOf?_withRecord r, hid, hr⟩
  · have hgrows := (w.process.types.grows_add (.record r) hnumbered).2
    exact (h id e he).mono (.refl _) hgrows

namespace Course

variable {account : List Happening} {r : Except Error Unit}

/-- **What a context has along a course**: what it had, and the answers that were given. -/
theorem get?_records (h : Course w account w' r) :
    w'.context.records.get? id = some t ↔
      w.context.records.get? id = some t ∨ Typed account id t := by
  induction h with
  | done w | refused w _ | counted w m run => exact (or_iff_left not_typed_nil).symm
  | provided w m =>
      rw [(leavesTyping_provideModule w m).records]
      exact (or_iff_left not_typed_nil).symm
  | mapped w s v => exact (or_iff_left not_typed_mapped).symm
  | unsupported _ | ready _ => exact (or_iff_left not_typed_asked).symm
  | andThen _ _ ih ih' => rw [ih', ih, typed_append, or_assoc]
  | forgiven _ ih => exact ih
  | noted _ _ _ ih => exact ih
  | derived w id' => rw [get?_records_deriveRecord, typed_derived]
  | @ran w w' path support p account r _ _ ih =>
      rw [(leavesTyping_settle w' (familyOf path) r).records, ih, typed_append,
        or_iff_left not_typed_asked]
      rfl

/-- **The entries of a context fit along every course.** -/
theorem entriesFit (h : Course w account w' r) (hnumbered : w.process.types.Numbered)
    (hw : w.EntriesFit) : w'.EntriesFit := by
  induction h with
  | done w | refused w _ | unsupported _ | ready _ => exact hw
  | counted w m run | mapped w s v => exact hw.mono rfl (.refl _) (.refl _)
  | provided w m => exact hw.of_leavesTyping (leavesTyping_provideModule w m)
  | andThen h _ ih ih' => exact ih' (h.growsTypes hnumbered).1 (ih hnumbered hw)
  | forgiven _ ih => exact ih hnumbered hw
  | noted _ _ _ ih => exact (ih hnumbered hw).mono rfl (.refl _) (.refl _)
  | derived w id =>
      rcases w.deriveRecord_cases id with ⟨e, -, h⟩ | ⟨t, -, h⟩ | ⟨r, -, -, hr, h⟩
      · rw [h]
        exact hw
      · rw [h]
        exact hw
      · rw [h]
        exact hw.withRecord hnumbered hr.describes
  | @ran w w' path support p account r _ _ ih =>
      have hbegun : (w.begun support (familyOf path)).EntriesFit := hw.mono rfl (.refl _) (.refl _)
      exact (ih hnumbered hbegun).of_leavesTyping (leavesTyping_settle w' (familyOf path) r)

end Course

/-! ## Answers -/

/-- A type that the context has is the answer. -/
lemma deriveRecord_of_get? (h : w.context.records.get? id = some t) :
    (w.deriveRecord id).2 = .ok t := by
  rcases w.deriveRecord_cases id with ⟨e, hnone, -⟩ | ⟨t', ht', hw⟩ | ⟨r, hnone, -, -, -⟩
  · exact absurd (hnone.symm.trans h) (by simp)
  · rw [hw, Option.some.inj (ht'.symm.trans h)]
  · exact absurd (hnone.symm.trans h) (by simp)

/-- The type of an object of a struct class is that of its record. -/
lemma typed_of_typeOf {o : ObjectId} {x : ForeignObject}
    (ho : w.process.heap.object? o = some x) (hx : x.type = .struct id)
    (ht : (w.typeOf o).2 = .ok t) : Typed (w.accountOfObject o) id t := by
  rw [typeOf, ho] at ht
  rw [accountOfObject, ho]
  simp only at ht ⊢
  rcases hasked : w.ensure x.module with ⟨w', e | ⟨⟩⟩
  · simp [hasked] at ht
  · rw [hasked, hx] at ht
    simp only [hx]
    exact typed_append.mpr (.inr (typed_derived.mpr ⟨rfl, ht⟩))

/-- A type that the context has is a record of its class. -/
lemma EntriesFit.exists_record (h : w.EntriesFit) (ht : w.context.records.get? id = some t) :
    ∃ r, w.process.types.recordOf? t = some r ∧ r.struct = id := by
  obtain ⟨e, he, rfl⟩ := Option.map_eq_some_iff.mp ht
  obtain ⟨r, hr, hid, -⟩ := (h id e he).type
  exact ⟨r, hr, hid⟩

end Workspace

/-! ## Runs -/

namespace Session

variable {s : Session} {history : List Performed} {name : String} {c : Context} {id : StructId}
  {t : ValueType}

lemma Runs.records (hruns : start.Runs history s) (hc : s.contexts.get? name = some c) :
    (∀ id t, c.records.get? id = some t ↔ Typed (happeningsIn history c.id) id t) ∧
      Workspace.EntriesFit ⟨s.process, c⟩ := by
  refine hruns.context_induction (P := fun process c hs =>
    (∀ id t, c.records.get? id = some t ↔ Typed hs id t) ∧ Workspace.EntriesFit ⟨process, c⟩)
    ?_ ?_ ?_ hc
  · intro process K options
    exact ⟨fun id t => iff_of_false (by simp [Context.new, RecordCache.get?]) not_typed_nil,
      fun id e he => absurd he (by simp [Context.new])⟩
  · rintro process process' c c' hs hstructs htypes _ heq ⟨htyped, hfit⟩
    have hrecords : c'.records = c.records := by rw [heq]
    refine ⟨?_, hfit.mono hrecords hstructs htypes⟩
    rw [hrecords]
    exact htyped
  · rintro w w' account hs r hnumbered hcourse ⟨htyped, hfit⟩
    refine ⟨fun id t => ?_, hcourse.entriesFit hnumbered hfit⟩
    rw [hcourse.get?_records, htyped, typed_append, or_comm]

lemma answer_typed {context : String} {name : Option String}
    {answer : Workspace × Except Error ValueType} :
    (s.typed context name answer).1 = .ok t ↔ answer.2 = .ok t := by
  rcases answer with ⟨w, e | t'⟩
  · simp [typed]
  · cases name with
    | none => simp [typed]
    | some name => simp [typed]

lemma happeningsIn_deriveRecord (hc : s.contexts.get? name = some c) {struct : String}
    (hid : s.structs.get? struct = some id) (type : Option String) :
    (⟨.deriveRecord name struct type, s⟩ : Performed).happeningsIn c.id
      = [.derived ⟨s.process, c⟩ id] := by
  refine (happeningsIn_of_some (by exact hc) c.id).trans ((if_pos rfl).trans ?_)
  simp only [Command.account, hid]

lemma happeningsIn_typeOf (hc : s.contexts.get? name = some c) {object : String} {o : ObjectId}
    (ho : s.objects.get? object = some o) (type : Option String) :
    (⟨.typeOf name object type, s⟩ : Performed).happeningsIn c.id
      = Workspace.accountOfObject ⟨s.process, c⟩ o := by
  refine (happeningsIn_of_some (by exact hc) c.id).trans ((if_pos rfl).trans ?_)
  simp only [Command.account, ho]

/-- The answer to a command counts. -/
lemma typed_of_deriveRecord (hc : s.contexts.get? name = some c) {struct : String}
    (hid : s.structs.get? struct = some id) {type : Option String}
    (ht : (s.perform (.deriveRecord name struct type)).1 = .ok t) :
    Typed (happeningsIn (⟨.deriveRecord name struct type, s⟩ :: history) c.id) id t := by
  rw [perform_deriveRecord hid hc, answer_typed] at ht
  rw [happeningsIn_cons, happeningsIn_deriveRecord hc hid]
  exact typed_append.mpr (.inl (typed_derived.mpr ⟨rfl, ht⟩))

/-- **Types that stay.**  In a context that is there after a run:

* the records are those of the classes for which one was ever answered, one for each;
* every entry is of its class, and so is its type;
* what was once answered for a class is answered whenever its record is asked for, and whenever an
  object of the class has a type; and it is the type of no other class, in this or another context;
* an answer to a command counts among those. -/
theorem Runs.types_stable (hruns : start.Runs history s) (hc : s.contexts.get? name = some c) :
    (c.records.entries.keys.Nodup ∧
      ∀ id t, c.records.get? id = some t ↔ Typed (happeningsIn history c.id) id t) ∧
    (∀ id e, c.records.entries.get? id = some e → e.Fits s.process id) ∧
    (∀ id t, Typed (happeningsIn history c.id) id t →
      (∀ struct type, s.structs.get? struct = some id →
        (s.perform (.deriveRecord name struct type)).1 = .ok t) ∧
      (∀ object type o x t', s.objects.get? object = some o →
        s.process.heap.object? o = some x → x.type = .struct id →
        (s.perform (.typeOf name object type)).1 = .ok t' → t' = t) ∧
      ∀ name' c' id', s.contexts.get? name' = some c' →
        Typed (happeningsIn history c'.id) id' t → id' = id) ∧
    (∀ struct type id t, s.structs.get? struct = some id →
      (s.perform (.deriveRecord name struct type)).1 = .ok t →
      Typed (happeningsIn (⟨.deriveRecord name struct type, s⟩ :: history) c.id) id t) ∧
    ∀ object type o x id t, s.objects.get? object = some o →
      s.process.heap.object? o = some x → x.type = .struct id →
      (s.perform (.typeOf name object type)).1 = .ok t →
      Typed (happeningsIn (⟨.typeOf name object type, s⟩ :: history) c.id) id t := by
  obtain ⟨htyped, hfit⟩ := hruns.records hc
  refine ⟨⟨c.records.entries.nodup_keys, htyped⟩, hfit, ?_, ?_, ?_⟩
  · intro id t ht
    have hget := (htyped id t).mpr ht
    refine ⟨?_, ?_, ?_⟩
    · intro struct type hid
      rw [perform_deriveRecord hid hc, answer_typed]
      exact Workspace.deriveRecord_of_get? hget
    · intro object type o x t' ho hx hclass ht'
      rw [perform_typeOf ho hc, answer_typed] at ht'
      -- the context has both the type that it had and the one that it answers
      have hcourse := Workspace.course_typeOf ⟨s.process, c⟩ o
      have hold := hcourse.get?_records.mpr (.inl hget)
      have hnew := hcourse.get?_records.mpr (.inr (Workspace.typed_of_typeOf hx hclass ht'))
      exact Option.some.inj (hnew.symm.trans hold)
    · intro name' c' id' hc' ht'
      obtain ⟨htyped', hfit'⟩ := hruns.records hc'
      obtain ⟨r, hr, hstruct⟩ := hfit.exists_record hget
      obtain ⟨r', hr', hstruct'⟩ := hfit'.exists_record ((htyped' id' t).mpr ht')
      obtain rfl := Option.some.inj (hr.symm.trans hr')
      exact hstruct'.symm.trans hstruct
  · exact fun struct type id t hid ht => typed_of_deriveRecord hc hid ht
  · intro object type o x id t ho hx hclass ht
    rw [perform_typeOf ho hc, answer_typed] at ht
    rw [happeningsIn_cons, happeningsIn_typeOf hc ho]
    exact typed_append.mpr (.inl (Workspace.typed_of_typeOf hx hclass ht))

/-- The session in which the record of a class is derived. -/
def derivedPoint : Session :=
  ((start.perform (.declareStruct "P"
    ⟨"Point", "native.records", none, some [⟨"x", .scalar .int32, none⟩]⟩)).2.perform
    (.deriveRecord "main" "P" none)).2

/-- Another room for the scalar of its field does not change the type of the class. -/
theorem types_stable_derivedPoint :
    ((derivedPoint.perform (.mapScalar "main" .int32 (.int true .w64))).2.perform
      (.deriveRecord "main" "P" none)).1 = .ok (.record ⟨0⟩) := by
  have hruns := (((Runs.nil (s := start)).cons (.declareStruct "P"
    ⟨"Point", "native.records", none, some [⟨"x", .scalar .int32, none⟩]⟩)).cons
    (.deriveRecord "main" "P" none)).cons (.mapScalar "main" .int32 (.int true .w64))
  obtain ⟨c, hc, hget⟩ : ∃ c,
      (derivedPoint.perform (.mapScalar "main" .int32 (.int true .w64))).2.contexts.get? "main"
        = some c ∧ c.records.get? ⟨0⟩ = some (.record ⟨0⟩) := ⟨_, rfl, rfl⟩
  obtain ⟨⟨-, htyped⟩, -, hstable, -⟩ := hruns.types_stable hc
  exact (hstable ⟨0⟩ (.record ⟨0⟩) ((htyped _ _).mp hget)).1 "P" none rfl

end Session

end ForeignTypes
