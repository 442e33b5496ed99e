import ForeignTypes.Proofs.Layouts
import Mathlib.Data.Fintype.EquivFin
import Mathlib.Data.List.Perm.Subperm
import Mathlib.Logic.Relation

/-!
# Structs inside structs

The search for a layout keeps notes and marks, and stops at a class that is marked.  What it answers
depends on neither.  A class has a layout exactly if it is *well nested*: all that it holds by
value, at any depth, is complete and free of `void`, and no chain of it comes back to where it began.

One half is an induction on the layout.  For the other half, the classes on the way down are all
different, so that there are no more of them than declarations; hence the nesting is well-founded,
the depth of the search suffices, and the mark that stops a search is that of a class without a
layout.

* `StructTable.Holds`, `StructTable.WellNested` — nesting by value.
* **`StructTable.exists_hasLayout_iff`** — the classes that have a layout.
* **`StructTable.layout_eq_some_iff`** — a search answers the layout, whatever was noted before.
-/

namespace ForeignTypes

namespace StructTable

open Relation

variable {t t' : StructTable} {id id' : StructId} {l l' : Layout}

/-- The class `id` holds an instance of the class `inner` by value. -/
def Holds (t : StructTable) (id inner : StructId) : Prop :=
  ∃ fields, t.fields? id = some fields ∧ ∃ f ∈ fields, f.type = .struct inner

/-- Of all that the class holds by value, at any depth and itself included: each class is complete,
has no field of type `void`, and does not hold itself through any chain. -/
structure WellNested (t : StructTable) (id : StructId) : Prop where
  complete : ∀ inner, ReflTransGen t.Holds id inner → t.isComplete inner = true
  no_void : ∀ inner, ReflTransGen t.Holds id inner → ∀ fields, t.fields? inner = some fields →
    ∀ f ∈ fields, f.type ≠ .void
  acyclic : ∀ inner, ReflTransGen t.Holds id inner → ¬ TransGen t.Holds inner inner

lemma fields?_eq {d : StructDecl} {fields : List FieldDecl} (hd : t.decl? id = some d)
    (hfields : d.fields = some fields) : t.fields? id = some fields := by
  rw [fields?, hd]
  exact hfields

lemma exists_fields (h : t.isComplete id = true) : ∃ fields, t.fields? id = some fields :=
  Option.isSome_iff_exists.mp h

lemma exists_decl {fields : List FieldDecl} (h : t.fields? id = some fields) :
    ∃ d, t.decl? id = some d ∧ d.fields = some fields :=
  Option.bind_eq_some_iff.mp h

lemma index_lt_of_isComplete (h : t.isComplete id = true) : id.index < t.decls.length := by
  obtain ⟨fields, hfields⟩ := exists_fields h
  obtain ⟨d, hd, -⟩ := exists_decl hfields
  exact (List.getElem?_eq_some_iff.mp hd).1

lemma Holds.isComplete (h : t.Holds id id') : t.isComplete id = true := by
  obtain ⟨fields, hfields, -⟩ := h
  rw [StructTable.isComplete, hfields]
  rfl

lemma holds_of_decls_eq (h : t'.decls = t.decls) : t'.Holds = t.Holds := by
  funext id inner
  simp only [Holds, fields?, decl?, h]

/-! ## What has a layout is well nested -/

/-- Each field has the room of its type. -/
lemma HasExtents.exists_get? {fields : List FieldDecl} {es : List FieldExtent} {i : Nat}
    {f : FieldDecl} (h : t.HasExtents fields es) (hf : fields[i]? = some f) :
    ∃ e, es[i]? = some ⟨f.name, e.size, e.align⟩ ∧ t.HasExtent f.type e := by
  induction fields generalizing es i with
  | nil => exact absurd hf (by simp)
  | cons f' fs ih =>
      cases h with
      | @cons _ _ e _ he hes =>
          cases i with
          | zero =>
              obtain rfl : f' = f := by simpa using hf
              exact ⟨e, rfl, he⟩
          | succ i =>
              have hf : fs[i]? = some f := by simpa using hf
              obtain ⟨e', he', hextent⟩ := ih hes hf
              exact ⟨e', by simpa using he', hextent⟩

lemma HasExtents.exists_mem {fields : List FieldDecl} {es : List FieldExtent} {f : FieldDecl}
    (h : t.HasExtents fields es) (hf : f ∈ fields) :
    ∃ e, ⟨f.name, e.size, e.align⟩ ∈ es ∧ t.HasExtent f.type e := by
  obtain ⟨i, hi⟩ := List.mem_iff_getElem?.mp hf
  obtain ⟨e, hget, he⟩ := h.exists_get? hi
  exact ⟨e, List.mem_of_getElem? hget, he⟩

lemma HasLayout.exists_fields (h : t.HasLayout id l) :
    ∃ fields es, t.fields? id = some fields ∧ t.HasExtents fields es := by
  cases h with
  | mk hd hfields hextents => exact ⟨_, _, fields?_eq hd hfields, hextents⟩

lemma HasLayout.exists_extent (h : t.HasLayout id l) {fields : List FieldDecl}
    (hfields : t.fields? id = some fields) : ∀ f ∈ fields, ∃ e, t.HasExtent f.type e := by
  obtain ⟨fields', es, hfields', hes⟩ := h.exists_fields
  obtain rfl := Option.some.inj (hfields'.symm.trans hfields)
  intro f hf
  obtain ⟨e, -, he⟩ := hes.exists_mem hf
  exact ⟨e, he⟩

lemma HasLayout.inner (h : t.HasLayout id l) (hinner : t.Holds id id') :
    ∃ l', t.HasLayout id' l' := by
  obtain ⟨fields, hfields, f, hf, htype⟩ := hinner
  obtain ⟨e, he⟩ := h.exists_extent hfields f hf
  rw [htype] at he
  cases he with
  | struct hl => exact ⟨_, hl⟩

lemma HasLayout.reachable (h : t.HasLayout id l) (hreach : ReflTransGen t.Holds id id') :
    ∃ l', t.HasLayout id' l' := by
  induction hreach with
  | refl => exact ⟨l, h⟩
  | tail _ hinner ih =>
      obtain ⟨l', hl'⟩ := ih
      exact hl'.inner hinner

mutual

/-- Layouts are put together from below, so no chain of structs inside structs is endless. -/
theorem HasLayout.acc {id : StructId} {l : Layout} :
    t.HasLayout id l → Acc (Function.swap t.Holds) id
  | .mk hd hfields hextents => by
      refine Acc.intro _ ?_
      rintro inner ⟨fields', hfields', f, hf, htype⟩
      have hparts := HasExtents.acc hextents
      obtain rfl := Option.some.inj ((fields?_eq hd hfields).symm.trans hfields')
      exact hparts f hf inner htype

theorem HasExtent.acc {type : CType} {e : Extent} :
    t.HasExtent type e → ∀ inner, type = .struct inner → Acc (Function.swap t.Holds) inner
  | .scalar _, inner, htype => absurd htype (by simp)
  | .pointer _, inner, htype => absurd htype (by simp)
  | .struct hl, inner, htype => by
      have hacc := HasLayout.acc hl
      exact CType.struct.inj htype ▸ hacc

theorem HasExtents.acc {fields : List FieldDecl} {es : List FieldExtent} :
    t.HasExtents fields es → ∀ f ∈ fields, ∀ inner, f.type = .struct inner →
      Acc (Function.swap t.Holds) inner
  | .nil, f, hf => absurd hf (by simp)
  | .cons he hes, f', hf' => by
      have hhead := HasExtent.acc he
      have htail := HasExtents.acc hes
      rcases List.mem_cons.mp hf' with rfl | hf'
      · exact hhead
      · exact htail f' hf'

end

/-- A chain that comes back to where it began could be followed for ever. -/
lemma not_transGen_of_acc (h : Acc (Function.swap t.Holds) id) : ¬ TransGen t.Holds id id := by
  induction h with
  | intro id _ ih =>
      intro hcycle
      obtain ⟨inner, hinner, hback⟩ := TransGen.head'_iff.mp hcycle
      exact ih inner hinner (TransGen.tail' hback hinner)

lemma HasLayout.wellNested (h : t.HasLayout id l) : t.WellNested id where
  complete := by
    intro inner hreach
    obtain ⟨l', hl'⟩ := h.reachable hreach
    obtain ⟨fields, es, hfields, -⟩ := hl'.exists_fields
    simp [isComplete, hfields]
  no_void := by
    intro inner hreach fields hfields f hf hvoid
    obtain ⟨l', hl'⟩ := h.reachable hreach
    obtain ⟨e, he⟩ := hl'.exists_extent hfields f hf
    rw [hvoid] at he
    cases he
  acyclic := by
    intro inner hreach
    obtain ⟨l', hl'⟩ := h.reachable hreach
    exact not_transGen_of_acc hl'.acc

/-! ## What is well nested has a layout -/

lemma WellNested.inner (h : t.WellNested id) (hinner : t.Holds id id') :
    t.WellNested id' where
  complete := fun inner' hreach => h.complete inner' (.head hinner hreach)
  no_void := fun inner' hreach => h.no_void inner' (.head hinner hreach)
  acyclic := fun inner' hreach => h.acyclic inner' (.head hinner hreach)

/-- The classes inside are finitely many, and without a cycle the nesting is well-founded. -/
lemma WellNested.acc (h : t.WellNested id) : Acc (Function.swap t.Holds) id := by
  let Inside := { inner : StructId // ReflTransGen t.Holds id inner }
  have hfinite : Finite Inside := by
    refine Finite.of_injective (β := Fin t.decls.length)
      (fun x => ⟨x.1.index, index_lt_of_isComplete (h.complete x.1 x.2)⟩) ?_
    rintro ⟨⟨i⟩, hi⟩ ⟨⟨j⟩, hj⟩ hij
    simp only [Fin.mk.injEq] at hij
    simp only [hij]
  let below : Inside → Inside → Prop := fun x y => TransGen t.Holds y.1 x.1
  have htrans : IsTrans Inside below := ⟨fun _ _ _ hxy hyz => hyz.trans hxy⟩
  have hirrefl : Std.Irrefl below := ⟨fun x => h.acyclic x.1 x.2⟩
  have hwf : WellFounded below := Finite.wellFounded_of_trans_of_irrefl below
  have hacc : ∀ x : Inside, Acc (Function.swap t.Holds) x.1 := by
    intro x
    induction x using hwf.induction with
    | _ x ih =>
        refine Acc.intro _ fun inner hinner => ?_
        exact ih ⟨inner, x.2.tail hinner⟩ (TransGen.single hinner)
  exact hacc ⟨id, .refl⟩

lemma exists_hasExtents {fields : List FieldDecl}
    (h : ∀ f ∈ fields, ∃ e, t.HasExtent f.type e) : ∃ es, t.HasExtents fields es := by
  induction fields with
  | nil => exact ⟨[], .nil⟩
  | cons f fs ih =>
      obtain ⟨e, he⟩ := h f (by simp)
      obtain ⟨es, hes⟩ := ih fun f' hf' => h f' (by simp [hf'])
      exact ⟨_, .cons he hes⟩

lemma WellNested.exists_hasLayout (h : t.WellNested id) : ∃ l, t.HasLayout id l := by
  have hacc := h.acc
  induction hacc with
  | intro id _ ih =>
      obtain ⟨fields, hfields⟩ := exists_fields (h.complete id .refl)
      obtain ⟨d, hd, hdfields⟩ := exists_decl hfields
      have hextent : ∀ f ∈ fields, ∃ e, t.HasExtent f.type e := by
        intro f hf
        cases htype : f.type with
        | void => exact absurd htype (h.no_void id .refl fields hfields f hf)
        | scalar s => exact ⟨_, .scalar s⟩
        | pointer type => exact ⟨_, .pointer type⟩
        | struct inner =>
            have hinner : t.Holds id inner := ⟨fields, hfields, f, hf, htype⟩
            obtain ⟨l, hl⟩ := ih inner hinner (h.inner hinner)
            exact ⟨_, .struct hl⟩
      obtain ⟨es, hes⟩ := exists_hasExtents hextent
      exact ⟨_, .mk hd hdfields hes⟩

/-- **The classes that have a layout** are those that are well nested. -/
theorem exists_hasLayout_iff : (∃ l, t.HasLayout id l) ↔ t.WellNested id := by
  constructor
  · rintro ⟨l, hl⟩
    exact hl.wellNested
  · intro h
    exact h.exists_hasLayout

mutual

/-- **A class has one layout at most.** -/
theorem HasLayout.unique {id : StructId} {l l' : Layout} :
    t.HasLayout id l → t.HasLayout id l' → l = l'
  | .mk hd hfields hextents, h' => by
      have hunique : ∀ es', t.HasExtents _ es' → _ = es' := fun _ => HasExtents.unique hextents
      cases h' with
      | mk hd' hfields' hextents' =>
          obtain rfl := Option.some.inj (hd.symm.trans hd')
          obtain rfl := Option.some.inj (hfields.symm.trans hfields')
          rw [hunique _ hextents']

theorem HasExtent.unique {type : CType} {e e' : Extent} :
    t.HasExtent type e → t.HasExtent type e' → e = e'
  | .scalar _, h' => by
      cases h'
      rfl
  | .pointer _, h' => by
      cases h'
      rfl
  | .struct hl, h' => by
      cases h' with
      | struct hl' => rw [HasLayout.unique hl hl']

theorem HasExtents.unique {fields : List FieldDecl} {es es' : List FieldExtent} :
    t.HasExtents fields es → t.HasExtents fields es' → es = es'
  | .nil, h' => by
      cases h'
      rfl
  | .cons he hes, h' => by
      cases h' with
      | cons he' hes' => rw [HasExtent.unique he he', HasExtents.unique hes hes']

end

/-! ## The search of fields -/

section Search

variable {layoutOf : StructTable → StructId → StructTable × Option Layout}

lemma extentWith_of_hasExtent {type : CType} {e : Extent} (h : t.HasExtent type e)
    (hfound : ∀ inner l, type = .struct inner → t.HasLayout inner l →
      (layoutOf t inner).2 = some l) : (extentWith layoutOf t type).2 = some e := by
  cases h with
  | scalar s => rfl
  | pointer type => rfl
  | struct hl => simp [extentWith, hfound _ _ rfl hl]

/-- The fields are searched one after the other; what one search notes does not stop the next. -/
lemma extentsWith_of_hasExtents (hsound : Sound layoutOf) (ht : t.Learned)
    {fields : List FieldDecl} {es : List FieldExtent} (h : t.HasExtents fields es)
    (hfound : ∀ t', t.Searched t' → ∀ f ∈ fields, ∀ inner l, f.type = .struct inner →
      t'.HasLayout inner l → (layoutOf t' inner).2 = some l) :
    (extentsWith layoutOf t fields).2 = some es := by
  induction fields generalizing t es with
  | nil =>
      cases h
      rfl
  | cons f fs ih =>
      cases h with
      | @cons _ _ e es he hes =>
          obtain ⟨hsearched, -⟩ := extentWith_sound hsound ht f.type
          have hextent : (extentWith layoutOf t f.type).2 = some e :=
            extentWith_of_hasExtent he (hfound t ht.searched f (by simp))
          have hextents : (extentsWith layoutOf (extentWith layoutOf t f.type).1 fs).2 = some es := by
            refine ih hsearched.learned (hes.mono hsearched.extends) fun t' ht' f' hf' => ?_
            exact hfound t' (hsearched.trans ht') f' (by simp [hf'])
          rcases hf : extentWith layoutOf t f.type with ⟨t₁, e₁⟩
          rw [hf] at hextent hextents
          rcases hfs : extentsWith layoutOf t₁ fs with ⟨t₂, es₂⟩
          rw [hfs] at hextents
          simp_all [extentsWith]

/-! ## The search leaves no mark -/

lemma visiting_extentWith (h : ∀ t id, (layoutOf t id).1.visiting = t.visiting) (t : StructTable)
    (type : CType) : (extentWith layoutOf t type).1.visiting = t.visiting := by
  cases type with
  | struct id => exact h t id
  | void | scalar _ | pointer _ => rfl

lemma visiting_extentsWith (h : ∀ t id, (layoutOf t id).1.visiting = t.visiting)
    (t : StructTable) (fields : List FieldDecl) :
    (extentsWith layoutOf t fields).1.visiting = t.visiting := by
  induction fields generalizing t with
  | nil => rfl
  | cons f fs ih =>
      have hhead := visiting_extentWith h t f.type
      rcases hf : extentWith layoutOf t f.type with ⟨t₁, _ | e⟩
      · simp_all [extentsWith]
      · have htail := ih t₁
        rcases hfs : extentsWith layoutOf t₁ fs with ⟨t₂, _ | es⟩ <;> simp_all [extentsWith]

end Search

lemma visiting_leave {t' : StructTable} (hid : id ∉ t.visiting)
    (h : t'.visiting = (t.enter id).visiting) : (t'.leave id).visiting = t.visiting := by
  simp only [leave, h, enter, List.filter_append]
  rw [List.filter_eq_self.mpr]
  · simp
  · intro v hv
    have hne : v ≠ id := fun heq => hid (heq ▸ hv)
    simp [hne]

/-- **A search leaves the marks as it found them**, wherever it starts. -/
theorem visiting_layoutWithin (depth : Nat) (t : StructTable) (id : StructId) :
    (t.layoutWithin depth id).1.visiting = t.visiting := by
  induction depth generalizing t id with
  | zero => rfl
  | succ depth ih =>
      rw [layoutWithin]
      split
      · rfl
      · split
        · next fields _ =>
            split
            · rfl
            · next hid =>
                have hfields := visiting_extentsWith ih (t.enter id) fields
                rcases hes : extentsWith (layoutWithin depth) (t.enter id) fields with ⟨t', _ | es⟩
                · rw [hes] at hfields
                  exact visiting_leave hid hfields
                · rw [hes] at hfields
                  exact visiting_leave hid hfields
        · rfl

/-! ## The search finds every layout -/

/-- The classes that are marked are different ones on the way down to the class. -/
structure OnTheWay (t : StructTable) (id : StructId) : Prop where
  nodup : t.visiting.Nodup
  holds : ∀ v ∈ t.visiting, TransGen t.Holds v id

lemma OnTheWay.length_le (h : t.OnTheWay id) : t.visiting.length ≤ t.decls.length := by
  have hindex : ∀ v ∈ t.visiting, v.index < t.decls.length := by
    intro v hv
    obtain ⟨id', hv', -⟩ := TransGen.head'_iff.mp (h.holds v hv)
    exact index_lt_of_isComplete hv'.isComplete
  have hnodup : (t.visiting.map StructId.index).Nodup := by
    refine h.nodup.map ?_
    rintro ⟨i⟩ ⟨j⟩ hij
    simp only at hij
    simp only [hij]
  have hsub : t.visiting.map StructId.index ⊆ List.range t.decls.length := by
    intro i hi
    obtain ⟨v, hv, rfl⟩ := List.mem_map.mp hi
    exact List.mem_range.mpr (hindex v hv)
  simpa using (List.subperm_of_subset hnodup hsub).length_le

/-- From the fields of a marked class the way goes on to the classes they hold. -/
lemma OnTheWay.enter (h : t.OnTheWay id) (hid : id ∉ t.visiting) (hholds : t.Holds id id')
    {t' : StructTable} (ht' : (t.enter id).Searched t') : t'.OnTheWay id' := by
  have hsame : t'.Holds = t.Holds := holds_of_decls_eq ht'.decls
  have hvisiting : t'.visiting = t.visiting ++ [id] := ht'.visiting
  constructor
  · rw [hvisiting]
    simpa using h.nodup.concat hid
  · intro v hv
    rw [hsame]
    rw [hvisiting, List.mem_append, List.mem_singleton] at hv
    rcases hv with hv | rfl
    · exact (h.holds v hv).tail hholds
    · exact TransGen.single hholds

/-- By induction on the depth that is left, which exceeds the number of classes that may still be
met on the way down. -/
theorem layoutWithin_of_hasLayout (depth : Nat) (ht : t.Learned) (hway : t.OnTheWay id)
    (hdepth : t.decls.length < depth + t.visiting.length) (h : t.HasLayout id l) :
    (t.layoutWithin depth id).2 = some l := by
  induction depth generalizing t id l with
  | zero =>
      have hle := hway.length_le
      omega
  | succ depth ih =>
      -- a class that is marked holds itself, so it has no layout
      have hid : id ∉ t.visiting := fun hmem => not_transGen_of_acc h.acc (hway.holds id hmem)
      rw [layoutWithin]
      cases hnote : t.laidOut.get? id with
      | some l' => rw [(ht id l' hnote).unique h]
      | none =>
          cases h with
          | @mk _ d fields es hd hfields hextents =>
              obtain ⟨name, module, pack, dfields⟩ := d
              obtain rfl : dfields = some fields := hfields
              have hsearch : (extentsWith (layoutWithin depth) (t.enter id) fields).2 = some es := by
                refine extentsWith_of_hasExtents (sound_layoutWithin depth) (learned_enter ht id)
                  (hextents.mono (extends_enter t id)) ?_
                intro t' ht' f hf inner l hinner hl
                refine ih ht'.learned (hway.enter hid ⟨fields, fields?_eq hd rfl, f, hf, hinner⟩ ht')
                  ?_ hl
                have hvisiting : t'.visiting = t.visiting ++ [id] := ht'.visiting
                have hdecls : t'.decls = t.decls := ht'.decls
                simp only [hvisiting, hdecls, List.length_append, List.length_singleton]
                omega
              rcases hes : extentsWith (layoutWithin depth) (t.enter id) fields with ⟨t', es'⟩
              rw [hes] at hsearch
              obtain rfl := hsearch
              simp only [hd, hid, if_false]
              rw [hes]

/-- **What a search answers**: the layout of the class, if it has one. -/
theorem layout_eq_some_iff (ht : t.Sane) : (t.layout id).2 = some l ↔ t.HasLayout id l := by
  constructor
  · exact hasLayout_of_layout ht
  · intro h
    refine layoutWithin_of_hasLayout _ ht.learned ⟨?_, ?_⟩ ?_ h
    · simp [ht.visiting]
    · simp [ht.visiting]
    · omega

end StructTable

end ForeignTypes
