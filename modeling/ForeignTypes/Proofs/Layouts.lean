import ForeignTypes.Struct.Layout
import Mathlib.Tactic.Common

/-!
# What layouts are found

A layout of a struct class is put together from the room its fields take, and that of a field of
another struct from the layout of that struct.  A search answers such layouts only, and takes such
notes only; it leaves no mark behind.  Declaring classes and giving fields take no layout away,
since a class that has its fields keeps them.

* `StructTable.HasLayout`, `HasExtent`, `HasExtents` — the layouts of a table.
* `StructTable.Extends` — a later table: classes that are complete stay as they are.
* `StructTable.Learned`, `StructTable.Sane` — the notes of a table are right, and no mark is left.
* **`StructTable.hasLayout_of_layout`** — what a search answers is a layout.
* **`StructTable.grows_layout`**, `grows_declare`, `grows_setFields` — all changes of a table.
-/

namespace ForeignTypes.StructTable

/-! ## The layouts of a table -/

mutual

inductive HasLayout (t : StructTable) : StructId → Layout → Prop
  | mk {id : StructId} {d : StructDecl} {fields : List FieldDecl} {extents : List FieldExtent}
      (hd : t.decl? id = some d) (hfields : d.fields = some fields)
      (hextents : HasExtents t fields extents) :
    HasLayout t id (Layout.compute t.counting extents d.pack)

inductive HasExtent (t : StructTable) : CType → Extent → Prop
  | scalar (s : CScalar) : HasExtent t (.scalar s) s.extent
  | pointer (type : CType) : HasExtent t (.pointer type) .pointer
  | struct {id : StructId} {l : Layout} (h : HasLayout t id l) : HasExtent t (.struct id) l.extent

/-- The fields take the room, each its own. -/
inductive HasExtents (t : StructTable) : List FieldDecl → List FieldExtent → Prop
  | nil : HasExtents t [] []
  | cons {f : FieldDecl} {fs : List FieldDecl} {e : Extent} {es : List FieldExtent}
      (h : HasExtent t f.type e) (hs : HasExtents t fs es) :
    HasExtents t (f :: fs) (⟨f.name, e.size, e.align⟩ :: es)

end

/-- A later table: the classes that are complete stay as they are. -/
structure Extends (t t' : StructTable) : Prop where
  complete : ∀ id d, t.decl? id = some d → d.fields.isSome = true → t'.decl? id = some d
  counting : t'.counting = t.counting

variable {t t' t'' : StructTable}

lemma Extends.refl (t : StructTable) : t.Extends t := ⟨fun _ _ hd _ => hd, rfl⟩

lemma Extends.trans (h : t.Extends t') (h' : t'.Extends t'') : t.Extends t'' where
  complete := fun id d hd hfields => h'.complete id d (h.complete id d hd hfields) hfields
  counting := h'.counting.trans h.counting

lemma extends_of_eq (hdecls : t'.decls = t.decls) (hcounting : t'.counting = t.counting) :
    t.Extends t' where
  complete := fun id d hd _ => by rw [decl?, hdecls]; exact hd
  counting := hcounting

mutual

/-- A later table has all layouts of the earlier one. -/
theorem HasLayout.mono (h : t.Extends t') {id : StructId} {l : Layout} :
    t.HasLayout id l → t'.HasLayout id l
  | .mk hd hfields hextents => by
      rw [← h.counting]
      have hcomplete := h.complete _ _ hd (by rw [hfields]; rfl)
      exact .mk hcomplete hfields (HasExtents.mono h hextents)

theorem HasExtent.mono (h : t.Extends t') {type : CType} {e : Extent} :
    t.HasExtent type e → t'.HasExtent type e
  | .scalar s => .scalar s
  | .pointer type => .pointer type
  | .struct hl => .struct (HasLayout.mono h hl)

theorem HasExtents.mono (h : t.Extends t') {fields : List FieldDecl} {es : List FieldExtent} :
    t.HasExtents fields es → t'.HasExtents fields es
  | .nil => .nil
  | .cons he hes => .cons (HasExtent.mono h he) (HasExtents.mono h hes)

end

/-! ## The search -/

/-- Every note that a table keeps is a layout. -/
def Learned (t : StructTable) : Prop := ∀ id l, t.laidOut.get? id = some l → t.HasLayout id l

/-- What a search changes: notes, and nothing else. -/
structure Searched (t t' : StructTable) : Prop where
  decls : t'.decls = t.decls
  counting : t'.counting = t.counting
  visiting : t'.visiting = t.visiting
  learned : t'.Learned

lemma Searched.extends (h : t.Searched t') : t.Extends t' := extends_of_eq h.decls h.counting

lemma Searched.extends_back (h : t.Searched t') : t'.Extends t :=
  extends_of_eq h.decls.symm h.counting.symm

lemma Learned.searched (h : t.Learned) : t.Searched t := ⟨rfl, rfl, rfl, h⟩

lemma Searched.trans (h : t.Searched t') (h' : t'.Searched t'') : t.Searched t'' where
  decls := h'.decls.trans h.decls
  counting := h'.counting.trans h.counting
  visiting := h'.visiting.trans h.visiting
  learned := h'.learned

/-- A way to find layouts that answers only layouts, and notes only layouts. -/
def Sound (layoutOf : StructTable → StructId → StructTable × Option Layout) : Prop :=
  ∀ t id, t.Learned → t.Searched (layoutOf t id).1 ∧
    ∀ l, (layoutOf t id).2 = some l → t.HasLayout id l

section Search

variable {layoutOf : StructTable → StructId → StructTable × Option Layout}

lemma extentWith_sound (h : Sound layoutOf) (ht : t.Learned) (type : CType) :
    t.Searched (extentWith layoutOf t type).1 ∧
      ∀ e, (extentWith layoutOf t type).2 = some e → t.HasExtent type e := by
  cases type with
  | void => exact ⟨ht.searched, fun e he => absurd he (by simp [extentWith])⟩
  | scalar s =>
      refine ⟨ht.searched, fun e he => ?_⟩
      obtain rfl := Option.some.inj he
      exact .scalar s
  | pointer type =>
      refine ⟨ht.searched, fun e he => ?_⟩
      obtain rfl := Option.some.inj he
      exact .pointer type
  | struct id =>
      obtain ⟨hsearched, hlayout⟩ := h t id ht
      refine ⟨hsearched, fun e he => ?_⟩
      obtain ⟨l, hl, rfl⟩ := Option.map_eq_some_iff.mp he
      exact .struct (hlayout l hl)

/-- The fields are searched one after the other, each in the table that the search before it
left. -/
lemma extentsWith_sound (h : Sound layoutOf) (ht : t.Learned) (fields : List FieldDecl) :
    t.Searched (extentsWith layoutOf t fields).1 ∧
      ∀ es, (extentsWith layoutOf t fields).2 = some es → t.HasExtents fields es := by
  induction fields generalizing t with
  | nil =>
      refine ⟨ht.searched, fun es hes => ?_⟩
      obtain rfl := Option.some.inj hes
      exact .nil
  | cons f fs ih =>
      obtain ⟨hsearched, hextent⟩ := extentWith_sound h ht f.type
      simp only [extentsWith]
      split
      · next t₁ hf =>
          rw [hf] at hsearched
          exact ⟨hsearched, fun es hes => absurd hes (by simp)⟩
      · next t₁ e hf =>
          rw [hf] at hsearched hextent
          obtain ⟨hrest, hextents⟩ := ih hsearched.learned
          split
          · next t₂ hfs =>
              rw [hfs] at hrest
              exact ⟨hsearched.trans hrest, fun es hes => absurd hes (by simp)⟩
          · next t₂ es hfs =>
              rw [hfs] at hrest hextents
              refine ⟨hsearched.trans hrest, fun es' hes' => ?_⟩
              obtain rfl := Option.some.inj hes'
              exact .cons (hextent e rfl) ((hextents es rfl).mono hsearched.extends_back)

end Search

lemma extends_enter (t : StructTable) (id : StructId) : t.Extends (t.enter id) :=
  extends_of_eq rfl rfl

lemma extends_of_enter (t : StructTable) (id : StructId) : (t.enter id).Extends t :=
  extends_of_eq rfl rfl

lemma extends_leave (t : StructTable) (id : StructId) : t.Extends (t.leave id) :=
  extends_of_eq rfl rfl

lemma learned_enter (ht : t.Learned) (id : StructId) : (t.enter id).Learned :=
  fun id' l hl => (ht id' l hl).mono (extends_enter t id)

/-- A mark that is set and taken away leaves no trace. -/
lemma searched_leave {id : StructId} (hid : id ∉ t.visiting)
    (h : (t.enter id).Searched t') : t.Searched (t'.leave id) where
  decls := h.decls
  counting := h.counting
  visiting := by
    show t'.visiting.filter (· ≠ id) = t.visiting
    rw [h.visiting]
    show (t.visiting ++ [id]).filter (· ≠ id) = t.visiting
    rw [List.filter_append, List.filter_eq_self.mpr]
    · simp
    · intro id' hid'
      simpa using fun heq : id' = id => hid (heq ▸ hid')
  learned := fun id' l hl =>
    (h.learned id' l hl).mono (extends_leave t' id)

lemma learned_learn (ht : t.Learned) {id : StructId} {l : Layout} (hl : t.HasLayout id l) :
    (t.learn id l).Learned := by
  intro id' l' hl'
  have hmono : t.Extends (t.learn id l) := extends_of_eq rfl rfl
  have hget : (t.laidOut.put id l).get? id' = some l' := hl'
  rw [Table.get?_put] at hget
  split at hget
  · next heq =>
      obtain rfl := Option.some.inj hget
      exact heq ▸ hl.mono hmono
  · exact (ht id' l' hget).mono hmono

/-- By induction on the depth of nesting that is searched. -/
theorem sound_layoutWithin (depth : Nat) : Sound (layoutWithin depth) := by
  induction depth with
  | zero => exact fun t id ht => ⟨ht.searched, fun l hl => absurd hl (by simp [layoutWithin])⟩
  | succ depth ih =>
      intro t id ht
      rw [layoutWithin]
      split
      · next l hl =>
          refine ⟨ht.searched, fun l' hl' => ?_⟩
          obtain rfl := Option.some.inj hl'
          exact ht id l hl
      · split
        · next name module pack fields hd =>
            split
            · exact ⟨ht.searched, fun l hl => absurd hl (by simp)⟩
            · next hvisiting =>
                -- the fields are searched while the class is marked
                obtain ⟨hsearched, hextents⟩ :=
                  extentsWith_sound ih (learned_enter ht id) fields
                split
                · next hnone =>
                    rw [hnone] at hsearched
                    exact ⟨searched_leave hvisiting hsearched, fun l hl => absurd hl (by simp)⟩
                · next t' es hes =>
                    rw [hes] at hsearched hextents
                    have hleft := searched_leave hvisiting hsearched
                    have hl : t.HasLayout id (Layout.compute t.counting es pack) :=
                      .mk hd rfl ((hextents es rfl).mono (extends_of_enter t id))
                    refine ⟨⟨hleft.decls, hleft.counting, hleft.visiting, ?_⟩, fun l' hl' => ?_⟩
                    · exact learned_learn hleft.learned (hl.mono hleft.extends)
                    · obtain rfl := Option.some.inj hl'
                      exact hl
        · exact ⟨ht.searched, fun l hl => absurd hl (by simp)⟩

/-! ## Tables over time -/

/-- A table between searches: its notes are right, and no class is marked. -/
structure Sane (t : StructTable) : Prop where
  learned : t.Learned
  visiting : t.visiting = []

/-- A table that was never searched is sane. -/
lemma sane_of_unsearched (hnotes : t.laidOut = {}) (hmarks : t.visiting = []) : t.Sane where
  learned := fun id l hl => absurd hl (by simp [hnotes])
  visiting := hmarks

/-- **What a search answers is a layout.** -/
theorem hasLayout_of_layout (ht : t.Sane) {id : StructId} {l : Layout}
    (h : (t.layout id).2 = some l) : t.HasLayout id l :=
  (sound_layoutWithin _ t id ht.learned).2 l h

/-- A search leaves the declarations as they are. -/
lemma decls_layout (ht : t.Sane) (id : StructId) : (t.layout id).1.decls = t.decls :=
  (sound_layoutWithin _ t id ht.learned).1.decls

/-- How a sane table changes in the course of time: it stays sane, and its layouts stay. -/
def Grows (t t' : StructTable) : Prop := t.Sane → t'.Sane ∧ t.Extends t'

lemma Grows.refl (t : StructTable) : t.Grows t := fun ht => ⟨ht, Extends.refl t⟩

lemma Grows.trans (h : t.Grows t') (h' : t'.Grows t'') : t.Grows t'' := by
  intro ht
  obtain ⟨ht', hlater⟩ := h ht
  obtain ⟨ht'', hlater'⟩ := h' ht'
  exact ⟨ht'', hlater.trans hlater'⟩

lemma Searched.grows (h : t.Learned → t.Searched t') : t.Grows t' := by
  intro ht
  have hsearched := h ht.learned
  exact ⟨⟨hsearched.learned, hsearched.visiting.trans ht.visiting⟩, hsearched.extends⟩

theorem grows_layout (t : StructTable) (id : StructId) : t.Grows (t.layout id).1 :=
  Searched.grows fun ht => (sound_layoutWithin _ t id ht).1

lemma grows_extentOf (t : StructTable) (type : CType) : t.Grows (t.extentOf type).1 :=
  Searched.grows fun ht =>
    (extentWith_sound (fun t id ht => sound_layoutWithin _ t id ht) ht type).1

theorem grows_declare (t : StructTable) (d : StructDecl) : t.Grows (t.declare d).1 := by
  intro ht
  have hlater : t.Extends (t.declare d).1 := by
    refine ⟨fun id d' hd' _ => ?_, rfl⟩
    rw [decl?_declare, if_neg, hd']
    rintro rfl
    exact absurd (hd'.symm.trans (decl?_nextId t)) (by simp)
  exact ⟨⟨fun id l hl => (ht.learned id l hl).mono hlater, ht.visiting⟩, hlater⟩

/-- A class that has its fields keeps them. -/
theorem grows_setFields (t : StructTable) (id : StructId) (fields : List FieldDecl) :
    t.Grows (t.setFields id fields).1 := by
  rw [setFields]
  split
  · next name module pack hd =>
      intro ht
      have hlater : t.Extends { t with
          decls := t.decls.modify id.index ({ · with fields := some fields }) } := by
        refine ⟨fun id' d' hd' hfields => ?_, rfl⟩
        rw [decl?] at hd hd' ⊢
        simp only [List.getElem?_modify, hd']
        split
        · next hindex =>
            rw [hindex, hd'] at hd
            obtain rfl := Option.some.inj hd
            exact absurd hfields (by simp)
        · rfl
      exact ⟨⟨fun id' l hl => (ht.learned id' l hl).mono hlater, ht.visiting⟩, hlater⟩
  · exact Grows.refl t

end ForeignTypes.StructTable
