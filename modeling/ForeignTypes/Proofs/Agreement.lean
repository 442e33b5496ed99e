import ForeignTypes.Proofs.Mapping

/-!
# Two layouts of one class

The layout of a class is worked out from the C types of its fields, and the layout of its record
from the value types that the scalar map of a context gives them.  Where the map keeps sizes when
the record is derived, the two are the same: the fields that go across are scalars and pointers, and
each takes the same room on both sides.  A record is derived once and kept, so it is the map of that
moment that counts, and not the map of the moment when the record is asked for again.

* `SizesKept` — the map kept sizes when the record of the class was derived.
* **`Workspace.Course.agrees`** — the record that a context has for a class has the layout of it.
* **`Session.Runs.layouts_agree`** — the answers of a session for a class and for its record.
* **`Session.not_layouts_agree`** — a record that was derived under another map stays as it is.
-/

namespace ForeignTypes

/-- When the record of the class was derived, the map of the context kept sizes. -/
def SizesKept (hs : List Happening) (id : StructId) : Prop :=
  ∀ w t, .derived w id ∈ hs → w.context.records.get? id = none → (w.deriveRecord id).2 = .ok t →
    w.context.scalars.KeepsSizesIn w.process.types

/-- Each scalar that was mapped among these happenings was mapped to a type of its own room. -/
def RightlyMapped (hs : List Happening) : Prop :=
  ∀ w s v, .mapped w s v ∈ hs → w.process.types.extentOf v = some (CScalar.extent s)

lemma sizesKept_append {hs hs' : List Happening} {id : StructId} :
    SizesKept (hs ++ hs') id ↔ SizesKept hs id ∧ SizesKept hs' id := by
  simp only [SizesKept, List.mem_append, or_imp, forall_and]

/-- Each scalar has the room of its value type. -/
def ScalarRule.sameRoom : ScalarRule := fun types s v => types.extentOf v = some s.extent

lemma ScalarRule.stays_sameRoom : sameRoom.Stays := fun _ _ _ _ h hv => h.extentOf hv

namespace Workspace

variable {w w' : Workspace} {account : List Happening} {r : Except Error Unit} {id : StructId}

/-- What the context has as the record of the class has the layout of the class. -/
def Agrees (w : Workspace) (id : StructId) : Prop :=
  ∀ t, w.context.records.get? id = some t →
    ∃ r, w.process.types.recordOf? t = some r ∧ w.process.structs.HasLayout id r.layout

lemma Agrees.mono (h : w.Agrees id) (hrecords : w'.context.records = w.context.records)
    (hstructs : w.process.structs.Extends w'.process.structs)
    (htypes : w.process.types.Extends w'.process.types) : w'.Agrees id := by
  intro t ht
  rw [hrecords] at ht
  obtain ⟨r, hr, hlayout⟩ := h t ht
  exact ⟨r, htypes.recordOf? hr, hlayout.mono hstructs⟩

lemma Agrees.of_leavesTyping (h : w.Agrees id) (hleaves : w.LeavesTyping w') : w'.Agrees id := by
  refine h.mono hleaves.records ?_ ?_
  · rw [hleaves.structs]
    exact .refl _
  · rw [hleaves.types]
    exact .refl _

/-- A record that is derived under a map that keeps sizes agrees with its class. -/
lemma Agrees.deriveRecord (h : w.Agrees id) (hnumbered : w.process.types.Numbered)
    {id' : StructId} (hkept : SizesKept [.derived w id'] id) :
    (w.deriveRecord id').1.Agrees id := by
  rcases w.deriveRecord_cases id' with ⟨e, -, hw⟩ | ⟨t, -, hw⟩ | ⟨r, hnew, rfl, hr, hw⟩
  · rw [hw]
    exact h
  · rw [hw]
    exact h
  · intro t ht
    rw [hw] at ht ⊢
    rw [get?_withRecord] at ht
    split at ht
    · next hid =>
        subst hid
        obtain rfl := Option.some.inj ht
        have hkeeps := hkept w _ (List.mem_singleton_self _) hnew (congrArg Prod.snd hw)
        exact ⟨r, w.recordOf?_withRecord r, hr.hasLayout hkeeps⟩
    · obtain ⟨r', hr', hlayout⟩ := h t ht
      have hgrows := (w.process.types.grows_add (.record r) hnumbered).2
      exact ⟨r', hgrows.recordOf? hr', hlayout⟩

/-- **Records agree with their classes along every course** in which the map kept sizes when they
were derived. -/
theorem Course.agrees (h : Course w account w' r) (hnumbered : w.process.types.Numbered)
    (hkept : SizesKept account id) (hw : w.Agrees id) : w'.Agrees id := by
  induction h with
  | done w | refused w _ | unsupported _ | ready _ => exact hw
  | counted w m run | mapped w s v => exact hw
  | provided w m => exact hw.of_leavesTyping (leavesTyping_provideModule w m)
  | derived w id' => exact hw.deriveRecord hnumbered hkept
  | andThen h _ ih ih' =>
      obtain ⟨hbefore, hafter⟩ := sizesKept_append.mp hkept
      exact ih' (h.growsTypes hnumbered).1 hafter (ih hnumbered hbefore hw)
  | forgiven _ ih => exact ih hnumbered hkept hw
  | noted _ _ _ ih => exact ih hnumbered hkept hw
  | @ran w w' path support p account r _ _ ih =>
      obtain ⟨hbefore, -⟩ := sizesKept_append.mp hkept
      exact (ih hnumbered hbefore hw).of_leavesTyping (leavesTyping_settle w' (familyOf path) r)

end Workspace

/-! ## Runs -/

namespace Session

variable {s : Session} {history : List Performed} {name : String} {c : Context} {id : StructId}
  {t : ValueType}

/-- The map that a context starts with keeps sizes, and rightly mapped scalars keep it so. -/
lemma Runs.keepsSizes (hruns : start.Runs history s) (hc : s.contexts.get? name = some c)
    (hmapped : RightlyMapped (happeningsIn history c.id)) :
    c.scalars.KeepsSizesIn s.process.types ∧ ∀ id, SizesKept (happeningsIn history c.id) id := by
  have hbuiltin : ∀ policy types, (ScalarMap.builtin policy).Obeys ScalarRule.sameRoom types :=
    fun policy => (ScalarMap.keepsSizes_builtin policy).keepsSizesIn
  obtain ⟨hkeeps, hasked⟩ := hruns.obeys ScalarRule.stays_sameRoom hbuiltin hc hmapped
  exact ⟨hkeeps, fun id w t hmem _ _ => hasked w id hmem⟩

lemma Runs.agrees (hruns : start.Runs history s) (hc : s.contexts.get? name = some c)
    (hkept : SizesKept (happeningsIn history c.id) id) :
    Workspace.Agrees ⟨s.process, c⟩ id := by
  revert hkept
  refine hruns.context_induction
    (P := fun process c hs => SizesKept hs id → Workspace.Agrees ⟨process, c⟩ id) ?_ ?_ ?_ hc
  · intro process K options _ t ht
    exact absurd ht (by simp [Context.new, RecordCache.get?])
  · intro process process' c c' hs hstructs htypes _ heq ih hkept
    have hrecords : c'.records = c.records := by rw [heq]
    exact (ih hkept).mono hrecords hstructs htypes
  · intro w w' account hs r hnumbered hcourse ih hkept
    obtain ⟨hnew, hold⟩ := sizesKept_append.mp hkept
    exact hcourse.agrees hnumbered hnew (ih hold)

/-- A type that was answered for a class is a record of the layout that the class has. -/
lemma Runs.layout_of_typed (hruns : start.Runs history s) (hc : s.contexts.get? name = some c)
    (hkept : SizesKept (happeningsIn history c.id) id)
    (ht : Typed (happeningsIn history c.id) id t) :
    ∃ r, s.process.types.recordOf? t = some r ∧
      (s.perform (.layoutOf id)).1 = .ok (some r.layout) := by
  obtain ⟨hsane, -⟩ := hruns.growsClasses sane_start
  obtain ⟨htyped, -⟩ := hruns.records hc
  obtain ⟨r, hr, hlayout⟩ := hruns.agrees hc hkept t ((htyped id t).mpr ht)
  exact ⟨r, hr, congrArg Except.ok ((StructTable.layout_eq_some_iff hsane).mpr hlayout)⟩

/-- **The layout of a class and that of its record.**  In a context that is there after a run:

* if each scalar that was mapped in it was mapped to a type of its own room, then its map keeps
  sizes, and did so when each of its records was derived;
* if the map keeps sizes, and did so when the record of a class was derived, in case it was derived
  before, then a record that is answered for the class has the layout that the class has. -/
theorem Runs.layouts_agree (hruns : start.Runs history s) (hc : s.contexts.get? name = some c) :
    (RightlyMapped (happeningsIn history c.id) →
      c.scalars.KeepsSizesIn s.process.types ∧ ∀ id, SizesKept (happeningsIn history c.id) id) ∧
    ∀ struct type id t, s.structs.get? struct = some id →
      c.scalars.KeepsSizesIn s.process.types → SizesKept (happeningsIn history c.id) id →
      (s.perform (.deriveRecord name struct type)).1 = .ok t →
      ∃ r, (s.perform (.deriveRecord name struct type)).2.process.types.recordOf? t = some r ∧
        ((s.perform (.deriveRecord name struct type)).2.perform (.layoutOf id)).1
          = .ok (some r.layout) := by
  refine ⟨hruns.keepsSizes hc, fun struct type id t hid hkeeps hkept ht => ?_⟩
  -- the context after the command is the one in which the record was derived
  have hlater : (s.perform (.deriveRecord name struct type)).2.contexts.get? name
      = some (Workspace.deriveRecord ⟨s.process, c⟩ id).1.context := by
    rw [perform_deriveRecord hid hc, contexts_typed, Table.get?_put, if_pos rfl]
  have hsame : (Workspace.deriveRecord ⟨s.process, c⟩ id).1.context.id = c.id :=
    (Workspace.spares_deriveRecord ⟨s.process, c⟩ id).id
  refine (hruns.cons (.deriveRecord name struct type)).layout_of_typed hlater ?_ ?_
  · rw [hsame, happeningsIn_cons, happeningsIn_deriveRecord hc hid, sizesKept_append]
    refine ⟨fun w t' hmem _ _ => ?_, hkept⟩
    obtain ⟨⟩ := List.mem_singleton.mp hmem
    exact hkeeps
  · rw [hsame]
    exact typed_of_deriveRecord hc hid ht

/-- A class of two fields, whose limit on alignment is no power of two. -/
def declaredSample : Session :=
  (start.perform (.declareStruct "S" ⟨"Sample", "native.records", some 3,
    some [⟨"tag", .scalar .int8, none⟩, ⟨"at", .pointer (.scalar .double), none⟩]⟩)).2

/-- The class and its record have one layout. -/
theorem layouts_agree_declaredSample :
    ∃ r, (declaredSample.perform (.deriveRecord "main" "S" none)).2.process.types.recordOf?
        (.record ⟨0⟩) = some r ∧
      ((declaredSample.perform (.deriveRecord "main" "S" none)).2.perform (.layoutOf ⟨0⟩)).1
        = .ok (some r.layout) := by
  have hruns := (Runs.nil (s := start)).cons (.declareStruct "S" ⟨"Sample", "native.records", some 3,
    some [⟨"tag", .scalar .int8, none⟩, ⟨"at", .pointer (.scalar .double), none⟩]⟩)
  obtain ⟨c, hc⟩ : ∃ c, declaredSample.contexts.get? "main" = some c := ⟨_, rfl⟩
  obtain ⟨hkeeps, hagree⟩ := hruns.layouts_agree hc
  -- no scalar was mapped, and no record was asked for
  obtain ⟨hnow, hkept⟩ := hkeeps fun w s v hmem => by
    simp [happeningsIn, Performed.happeningsIn, Command.context?] at hmem
  exact hagree "S" none ⟨0⟩ (.record ⟨0⟩) rfl hnow (hkept ⟨0⟩) rfl

/-- A class of one integer. -/
def oneInteger : StructDecl :=
  ⟨"Point", "native.records", none, some [⟨"x", .scalar .int32, none⟩]⟩

/-- The integer is mapped to a wider one when the record of the class is derived, and to its own
type again afterwards. -/
def mappedAway : Session :=
  let away := (start.perform (.mapScalar "main" .int32 (.int true .w64))).2
  let declared := (away.perform (.declareStruct "P" oneInteger)).2
  let derived := (declared.perform (.deriveRecord "main" "P" none)).2
  (derived.perform (.mapScalar "main" .int32 (.int true .w32))).2

lemma runs_mappedAway : ∃ history, start.Runs history mappedAway := by
  have hdeclared := ((Runs.nil (s := start)).cons (.mapScalar "main" .int32 (.int true .w64))).cons
    (.declareStruct "P" oneInteger)
  exact ⟨_, (hdeclared.cons (.deriveRecord "main" "P" none)).cons
    (.mapScalar "main" .int32 (.int true .w32))⟩

/-- Mapped away and back again, each scalar has the room of its value type. -/
lemma keepsSizes_mappedAway (types : TypeStore) :
    (((ScalarMap.builtin .canonical).register .int32 (.int true .w64)).register .int32
      (.int true .w32)).KeepsSizesIn types := by
  intro s v hv
  rw [ScalarMap.toValueType?_register, ScalarMap.toValueType?_register] at hv
  split at hv
  · next hs =>
      subst hs
      obtain rfl := Option.some.inj hv
      rfl
  · exact ScalarMap.keepsSizes_builtin .canonical s v hv types

/-- **That the map keeps sizes now is not enough**: a record that was derived before is answered as
it is, and then it has eight bytes where the class has four. -/
theorem not_layouts_agree :
    ¬∀ history s name c struct type id t, start.Runs history s → s.contexts.get? name = some c →
      s.structs.get? struct = some id → c.scalars.KeepsSizesIn s.process.types →
      (s.perform (.deriveRecord name struct type)).1 = .ok t →
      ∃ r, (s.perform (.deriveRecord name struct type)).2.process.types.recordOf? t = some r ∧
        ((s.perform (.deriveRecord name struct type)).2.perform (.layoutOf id)).1
          = .ok (some r.layout) := by
  intro hall
  obtain ⟨history, hruns⟩ := runs_mappedAway
  obtain ⟨c, hc⟩ : ∃ c, mappedAway.contexts.get? "main" = some c := ⟨_, rfl⟩
  have hkeeps : c.scalars.KeepsSizesIn mappedAway.process.types := by
    obtain rfl := Option.some.inj hc
    exact keepsSizes_mappedAway _
  obtain ⟨r, hr, hlayout⟩ := hall history mappedAway "main" c "P" none ⟨0⟩ (.record ⟨0⟩) hruns hc
    rfl hkeeps rfl
  obtain rfl := Option.some.inj hr
  have hclass : ((mappedAway.perform (.deriveRecord "main" "P" none)).2.perform
      (.layoutOf ⟨0⟩)).1 = .ok (some ⟨[⟨"x", 0, 4⟩], 4, 4⟩) := rfl
  -- the record was laid out with eight bytes for the field
  obtain ⟨⟩ := hclass.symm.trans hlayout

end Session

end ForeignTypes
