import ForeignTypes.Proofs.Nesting
import ForeignTypes.Proofs.Placement

/-!
# Natural alignment

A layout places a struct that is held by value as one block, and says nothing of what is inside.  A
scalar or pointer deep inside lies at the sum of the offsets on the way to it.  Without a limit on
alignment that is still a multiple of its own alignment: all alignments are powers of two, so that
of the outer struct is a multiple of all inner ones, and so are the offset and the size of each
block.

The *path* of a part lists the positions of the fields on the way to it.

* `StructTable.typeAt?`, `leafAt?`, `offsetAt?` — what lies at the end of a path, and where.
* `CType.leafExtent?` — the room of a scalar or a pointer.
* `StructTable.Unpacked` — no limit on alignment, at any depth.
* `HasExtent.part` — a part is aligned and inside the whole, by induction on its path.
* `HasExtent.apart` — two different leaves do not overlap.
* **`StructTable.natural_alignment`** — all leaves of a class.
-/

namespace ForeignTypes

/-- The room of a scalar or a pointer; other types have none of their own. -/
def CType.leafExtent? : CType → Option Extent
  | .scalar s => some s.extent
  | .pointer _ => some .pointer
  | .void | .struct _ => none

namespace StructTable

open Relation

/-! ## Paths -/

/-- The type of the part that is reached by the fields at these positions, one inside the other. -/
def typeAt? (t : StructTable) : CType → List Nat → Option CType
  | type, [] => some type
  | .struct id, i :: path => do
    let fields ← t.fields? id
    let f ← fields[i]?
    t.typeAt? f.type path
  | _, _ :: _ => none

/-- The room of the scalar or pointer that is reached. -/
def leafAt? (t : StructTable) (type : CType) (path : List Nat) : Option Extent :=
  (t.typeAt? type path).bind CType.leafExtent?

/-- Where the part starts that is reached, counted from the start of the whole: the sum of the
offsets of the fields on the way. -/
def offsetAt? (t : StructTable) : CType → List Nat → Option Nat
  | _, [] => some 0
  | .struct id, i :: path => do
    let fields ← t.fields? id
    let f ← fields[i]?
    let l ← (t.layout id).2
    let p ← l.fields[i]?
    let inner ← t.offsetAt? f.type path
    return p.offset + inner
  | _, _ :: _ => none

/-- Neither the class nor any class inside it has a limit on alignment. -/
def Unpacked (t : StructTable) (id : StructId) : Prop :=
  ∀ inner d, ReflTransGen t.Holds id inner → t.decl? inner = some d → d.pack = none

variable {t : StructTable} {id : StructId} {l : Layout} {type : CType} {e e' : Extent}
  {i : Nat} {path : List Nat} {fields : List FieldDecl} {f : FieldDecl}

lemma Unpacked.inner {inner : StructId} (h : t.Unpacked id) (hfields : t.fields? id = some fields)
    (hf : f ∈ fields) (htype : f.type = .struct inner) : t.Unpacked inner :=
  fun _ d hreach => h _ d (.head ⟨fields, hfields, f, hf, htype⟩ hreach)

lemma typeAt?_cons {part : CType} (h : t.typeAt? type (i :: path) = some part) :
    ∃ id fields f, type = .struct id ∧ t.fields? id = some fields ∧ fields[i]? = some f ∧
      t.typeAt? f.type path = some part := by
  cases type with
  | struct id =>
      simp only [typeAt?, Option.bind_eq_bind, Option.bind_eq_some_iff] at h
      obtain ⟨fields, hfields, f, hf, h⟩ := h
      exact ⟨id, fields, f, rfl, hfields, hf, h⟩
  | void | scalar s | pointer type => exact absurd h (by simp [typeAt?])

lemma leafAt?_cons (h : t.leafAt? type (i :: path) = some e) :
    ∃ id fields f, type = .struct id ∧ t.fields? id = some fields ∧ fields[i]? = some f ∧
      t.leafAt? f.type path = some e := by
  obtain ⟨leaf, hleaf, he⟩ := Option.bind_eq_some_iff.mp h
  obtain ⟨id, fields, f, htype, hfields, hf, hrest⟩ := typeAt?_cons hleaf
  exact ⟨id, fields, f, htype, hfields, hf, Option.bind_eq_some_iff.mpr ⟨leaf, hrest, he⟩⟩

/-- A class is not a leaf itself. -/
lemma leafAt?_struct_nil (t : StructTable) (id : StructId) : t.leafAt? (.struct id) [] = none := rfl

lemma hasExtent_of_leafExtent? (h : type.leafExtent? = some e) : t.HasExtent type e := by
  cases type with
  | scalar s =>
      obtain rfl := Option.some.inj h
      exact .scalar s
  | pointer type =>
      obtain rfl := Option.some.inj h
      exact .pointer type
  | void | struct id => exact absurd h (by simp [CType.leafExtent?])

lemma offsetAt?_cons {p : Placement} {offset : Nat} (hfields : t.fields? id = some fields)
    (hf : fields[i]? = some f) (hl : (t.layout id).2 = some l) (hp : l.fields[i]? = some p)
    (h : t.offsetAt? f.type path = some offset) :
    t.offsetAt? (.struct id) (i :: path) = some (p.offset + offset) := by
  simp [offsetAt?, hfields, hf, hl, hp, h]

/-! ## Powers of two -/

lemma isPowerOfTwo_of_leafExtent? (h : type.leafExtent? = some e) : e.align.isPowerOfTwo := by
  have hpow : ∀ n ∈ [1, 2, 4, 8, 16], Nat.isPowerOfTwo n := by
    simp only [List.mem_cons, List.not_mem_nil, or_false]
    rintro n (rfl | rfl | rfl | rfl | rfl)
    · exact ⟨0, rfl⟩
    · exact ⟨1, rfl⟩
    · exact ⟨2, rfl⟩
    · exact ⟨3, rfl⟩
    · exact ⟨4, rfl⟩
  cases type with
  | scalar s =>
      obtain rfl := Option.some.inj h
      exact hpow _ s.extent_align.2
  | pointer type =>
      obtain rfl := Option.some.inj h
      exact hpow 8 (by simp)
  | void | struct id => exact absurd h (by simp [CType.leafExtent?])

mutual

/-- Without a limit, the alignment of a class is a power of two. -/
theorem HasLayout.isPowerOfTwo {id : StructId} {l : Layout} :
    t.HasLayout id l → t.Unpacked id → l.align.isPowerOfTwo
  | .mk hd hfields hextents, h => by
      have hfields' := fields?_eq hd hfields
      have hparts := HasExtents.isPowerOfTwo hextents fun f hf inner => h.inner hfields' hf
      rw [h _ _ .refl hd]
      exact Layout.isPowerOfTwo_commonAlign hparts

theorem HasExtent.isPowerOfTwo {type : CType} {e : Extent} :
    t.HasExtent type e → (∀ inner, type = .struct inner → t.Unpacked inner) →
      e.align.isPowerOfTwo
  | .scalar s, _ => isPowerOfTwo_of_leafExtent? (show (CType.scalar s).leafExtent? = _ from rfl)
  | .pointer t, _ => isPowerOfTwo_of_leafExtent? (show (CType.pointer t).leafExtent? = _ from rfl)
  | .struct hl, h => HasLayout.isPowerOfTwo hl (h _ rfl)

theorem HasExtents.isPowerOfTwo {fields : List FieldDecl} {es : List FieldExtent} :
    t.HasExtents fields es → (∀ f ∈ fields, ∀ inner, f.type = .struct inner → t.Unpacked inner) →
      ∀ e ∈ es, e.align.isPowerOfTwo
  | .nil, _ => by simp
  | .cons he hes, h => by
      have hhead := HasExtent.isPowerOfTwo he (h _ (by simp))
      have htail := HasExtents.isPowerOfTwo hes fun f hf => h f (by simp [hf])
      simpa using ⟨hhead, htail⟩

end

/-! ## One field -/

/-- A field is placed inside the class, at a multiple of its alignment, which divides that of the
class. -/
lemma HasLayout.field (hexact : t.counting = .exact) (h : t.HasLayout id l) (hid : t.Unpacked id)
    (hfields : t.fields? id = some fields) (hf : fields[i]? = some f) :
    ∃ e p, t.HasExtent f.type e ∧ l.fields[i]? = some p ∧ p.size = e.size ∧ e.align ∣ p.offset ∧
      p.offset + e.size ≤ l.size ∧ e.align ∣ l.align := by
  cases h with
  | @mk _ d fields' es hd hdfields hes =>
      obtain rfl := Option.some.inj ((fields?_eq hd hdfields).symm.trans hfields)
      have hpow := hes.isPowerOfTwo fun f hf inner => hid.inner hfields hf
      obtain ⟨e, he, hextent⟩ := hes.exists_get? hf
      have hmem := List.mem_of_getElem? he
      obtain ⟨p, hp, hsize, hdvd, hinside⟩ := Layout.exists_placed_compute d.pack he
      rw [hid _ _ .refl hd, hexact] at *
      rw [Layout.effectiveAlign_none (hpow _ hmem)] at hdvd
      have hdvd' := Layout.align_dvd_commonAlign hpow hmem
      rw [hsize] at hinside
      exact ⟨e, p, hextent, hp, hsize, hdvd, hinside, hdvd'⟩

/-! ## Parts and leaves -/

section Parts

variable (ht : t.Sane) (hexact : t.counting = .exact)

include ht hexact

/-- **A part of a value** lies inside it, at a multiple of the part's alignment, which divides that
of the whole: by induction on the path, from the outside in. -/
theorem HasExtent.part {part : CType} (h : t.HasExtent type e)
    (hunpacked : ∀ id, type = .struct id → t.Unpacked id)
    (hpart : t.typeAt? type path = some part) (hextent : t.HasExtent part e') :
    ∃ offset, t.offsetAt? type path = some offset ∧ e'.align ∣ offset ∧
      offset + e'.size ≤ e.size ∧ e'.align ∣ e.align := by
  induction path generalizing type e with
  | nil =>
      obtain rfl : type = part := by simpa [typeAt?] using hpart
      obtain rfl := h.unique hextent
      exact ⟨0, rfl, Nat.dvd_zero _, by omega, Nat.dvd_refl _⟩
  | cons i path ih =>
      obtain ⟨id, fields, f, rfl, hfields, hf, hrest⟩ := typeAt?_cons hpart
      have hid := hunpacked id rfl
      cases h with
      | @struct _ l hl =>
          obtain ⟨inner, p, hinner, hp, -, hdvd, hinside, hwhole⟩ := hl.field hexact hid hfields hf
          obtain ⟨offset, hoffset, haligned, hfits, halign⟩ := ih hinner
            (fun _ => hid.inner hfields (List.mem_of_getElem? hf)) hrest
          refine ⟨p.offset + offset, ?_, ?_, ?_, Nat.dvd_trans halign hwhole⟩
          · exact offsetAt?_cons hfields hf ((layout_eq_some_iff ht).mpr hl) hp hoffset
          · -- the block starts at a multiple of its own alignment, and that of the part divides it
            exact Nat.dvd_add (Nat.dvd_trans halign hdvd) haligned
          · show p.offset + offset + e'.size ≤ l.size
            omega

/-- A leaf, as a part. -/
lemma HasExtent.leaf (h : t.HasExtent type e)
    (hunpacked : ∀ id, type = .struct id → t.Unpacked id) (hleaf : t.leafAt? type path = some e') :
    ∃ offset, t.offsetAt? type path = some offset ∧ e'.align ∣ offset ∧
      offset + e'.size ≤ e.size ∧ e'.align ∣ e.align := by
  obtain ⟨leaf, hpart, he'⟩ := Option.bind_eq_some_iff.mp hleaf
  exact h.part ht hexact hunpacked hpart (hasExtent_of_leafExtent? he')

/-- A leaf of a class lies in one of its fields. -/
lemma HasLayout.leaf (h : t.HasLayout id l) (hid : t.Unpacked id)
    (hfields : t.fields? id = some fields) (hf : fields[i]? = some f)
    (hleaf : t.leafAt? f.type path = some e') :
    ∃ e p offset, t.HasExtent f.type e ∧ l.fields[i]? = some p ∧
      t.offsetAt? f.type path = some offset ∧
      t.offsetAt? (.struct id) (i :: path) = some (p.offset + offset) ∧
      offset + e'.size ≤ p.size := by
  obtain ⟨e, p, he, hp, hsize, -⟩ := h.field hexact hid hfields hf
  obtain ⟨offset, hoffset, -, hfits, -⟩ :=
    he.leaf ht hexact (fun _ => hid.inner hfields (List.mem_of_getElem? hf)) hleaf
  have hwhole := offsetAt?_cons hfields hf ((layout_eq_some_iff ht).mpr h) hp hoffset
  exact ⟨e, p, offset, he, hp, hoffset, hwhole, hsize ▸ hfits⟩

omit ht in
lemma HasLayout.pairwise (h : t.HasLayout id l) {i j : Nat} (hij : i < j) {p q : Placement}
    (hp : l.fields[i]? = some p) (hq : l.fields[j]? = some q) : p.offset + p.size ≤ q.offset := by
  cases h with
  | mk _ _ _ =>
      rw [hexact] at hp hq
      exact Layout.pairwise_compute hij hp hq

/-- **Two leaves do not overlap**: where their paths part, they lie in two fields. -/
theorem HasExtent.apart (h : t.HasExtent type e)
    (hunpacked : ∀ id, type = .struct id → t.Unpacked id) {path' : List Nat} {e₁ e₂ : Extent}
    (hne : path ≠ path') (hleaf : t.leafAt? type path = some e₁)
    (hleaf' : t.leafAt? type path' = some e₂) {offset offset' : Nat}
    (hoffset : t.offsetAt? type path = some offset)
    (hoffset' : t.offsetAt? type path' = some offset') :
    offset + e₁.size ≤ offset' ∨ offset' + e₂.size ≤ offset := by
  induction path generalizing type e path' offset offset' with
  | nil =>
      cases path' with
      | nil => exact absurd rfl hne
      | cons j path' =>
          obtain ⟨id, -, -, rfl, -⟩ := leafAt?_cons hleaf'
          exact absurd hleaf (by simp [leafAt?_struct_nil])
  | cons i path ih =>
      obtain ⟨id, fields, f, rfl, hfields, hf, hrest⟩ := leafAt?_cons hleaf
      cases path' with
      | nil => exact absurd hleaf' (by simp [leafAt?_struct_nil])
      | cons j path' =>
          obtain ⟨id', fields', f', heq, hfields', hf', hrest'⟩ := leafAt?_cons hleaf'
          obtain rfl := CType.struct.inj heq
          obtain rfl := Option.some.inj (hfields.symm.trans hfields')
          have hid := hunpacked id rfl
          cases h with
          | @struct _ l hl =>
              obtain ⟨inner, p, o, hinner, hp, ho, hwhole, hfits⟩ :=
                hl.leaf ht hexact hid hfields hf hrest
              obtain ⟨inner', p', o', -, hp', ho', hwhole', hfits'⟩ :=
                hl.leaf ht hexact hid hfields hf' hrest'
              obtain rfl := Option.some.inj (hwhole.symm.trans hoffset)
              obtain rfl := Option.some.inj (hwhole'.symm.trans hoffset')
              rcases Nat.lt_trichotomy i j with hij | rfl | hij
              · have horder := hl.pairwise hexact hij hp hp'
                omega
              · -- both lie in the same field, and part further inside
                obtain rfl := Option.some.inj (hf.symm.trans hf')
                obtain rfl := Option.some.inj (hp.symm.trans hp')
                have hne' : path ≠ path' := fun heq => hne (heq ▸ rfl)
                have hinside := ih hinner (fun _ => hid.inner hfields (List.mem_of_getElem? hf))
                  hne' hrest hrest' ho ho'
                omega
              · have horder := hl.pairwise hexact hij hp' hp
                omega

end Parts

/-- **Natural alignment at every depth.**  Sizes are counted exactly, a class has a layout, and
neither the class nor any class inside it has a limit on alignment.  Then

* each leaf that is reached through a chain of fields lies at a multiple of its own alignment and
  inside the class, and its alignment divides the size and the alignment of the class;
* two different leaves do not overlap. -/
theorem natural_alignment (ht : t.Sane) (hexact : t.counting = .exact)
    (hl : (t.layout id).2 = some l) (hid : t.Unpacked id) :
    (∀ path e, t.leafAt? (.struct id) path = some e →
      ∃ offset, t.offsetAt? (.struct id) path = some offset ∧ e.align ∣ offset ∧
        offset + e.size ≤ l.size ∧ e.align ∣ l.size ∧ e.align ∣ l.align) ∧
    ∀ path path' e e' offset offset', path ≠ path' →
      t.leafAt? (.struct id) path = some e → t.leafAt? (.struct id) path' = some e' →
      t.offsetAt? (.struct id) path = some offset → t.offsetAt? (.struct id) path' = some offset' →
      offset + e.size ≤ offset' ∨ offset' + e'.size ≤ offset := by
  have hlayout := hasLayout_of_layout ht hl
  have hextent : t.HasExtent (.struct id) l.extent := .struct hlayout
  have hunpacked : ∀ inner, CType.struct id = .struct inner → t.Unpacked inner := by
    rintro inner ⟨⟩
    exact hid
  have hsize : l.align ∣ l.size := by
    cases hlayout with
    | mk _ _ _ =>
        rw [hexact]
        exact Layout.dvd_size_compute _ _
  constructor
  · intro path e hleaf
    obtain ⟨offset, hoffset, hdvd, hinside, hwhole⟩ := hextent.leaf ht hexact hunpacked hleaf
    exact ⟨offset, hoffset, hdvd, hinside, Nat.dvd_trans hwhole hsize, hwhole⟩
  · intro path path' e e' offset offset' hne hleaf hleaf' hoffset hoffset'
    exact hextent.apart ht hexact hunpacked hne hleaf hleaf' hoffset hoffset'

/-- A byte, a struct of a byte and a word, and another byte. -/
def nestedPair : StructTable where
  decls := [
    ⟨"Pair", "native.records", none,
      some [⟨"a", .scalar .int8, none⟩, ⟨"b", .scalar .int64, none⟩]⟩,
    ⟨"Outer", "native.records", none, some [⟨"x", .scalar .int8, none⟩,
      ⟨"pair", .struct ⟨0⟩, none⟩, ⟨"y", .scalar .int8, none⟩]⟩]
  counting := .exact

/-- The word lies sixteen bytes into the outer struct. -/
theorem natural_alignment_nestedPair :
    (nestedPair.layout ⟨1⟩).2
        = some ⟨[⟨"x", 0, 1⟩, ⟨"pair", 8, 16⟩, ⟨"y", 24, 1⟩], 32, 8⟩ ∧
      nestedPair.leafAt? (.struct ⟨1⟩) [1, 1] = some ⟨8, 8⟩ ∧
      nestedPair.offsetAt? (.struct ⟨1⟩) [1, 1] = some 16 ∧ 8 ∣ 16 ∧ 16 + 8 ≤ 32 := by
  have hsane : nestedPair.Sane := ⟨fun id l hl => absurd hl (by simp [nestedPair]), rfl⟩
  have hid : nestedPair.Unpacked ⟨1⟩ := by
    intro inner d _ hd
    have hall : ∀ d ∈ nestedPair.decls, d.pack = none := by decide
    exact hall d (List.mem_of_getElem? hd)
  have hl : (nestedPair.layout ⟨1⟩).2
      = some ⟨[⟨"x", 0, 1⟩, ⟨"pair", 8, 16⟩, ⟨"y", 24, 1⟩], 32, 8⟩ := by decide +kernel
  have hleaf : nestedPair.leafAt? (.struct ⟨1⟩) [1, 1] = some ⟨8, 8⟩ := by decide +kernel
  have hoffset : nestedPair.offsetAt? (.struct ⟨1⟩) [1, 1] = some 16 := by decide +kernel
  obtain ⟨offset, hoffset', hdvd, hinside, -, -⟩ :=
    (natural_alignment hsane rfl hl hid).1 [1, 1] ⟨8, 8⟩ hleaf
  obtain rfl := Option.some.inj (hoffset.symm.trans hoffset')
  exact ⟨hl, hleaf, hoffset, hdvd, hinside⟩

end StructTable

end ForeignTypes
