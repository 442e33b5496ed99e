import ForeignTypes.Proofs.Packing
import ForeignTypes.Proofs.Sizes

/-!
# Fields by name

The type of a field is looked up by name among the fields of a record, and its offset among the
places of the layout; a code generator puts the two answers together.  Names may repeat.  The two
lists have the same names in the same order, so that both searches stop at the same index, and that
is where the name was declared first.

The bytes from the offset on, as many as the type has, are those of the field alone, as long as the
record is not too large for its size to be counted.  A record of scalars and pointers never is, but
a scalar can be mapped to a record, and the next record to be derived then holds that one.

* `RecordType.exactLayout`, `RecordType.Fits` — the layout without a bound on sums, and records for
  which the bound does not matter.
* `RecordType.LookupsAgree` — what the two searches tell of a record.
* `RecordType.fits_of_few` — records of scalars and pointers are small enough.
* **`RecordType.lookupsAgree`** — the searches agree in what is laid out field by field.
* `Workspace.HasDerived`, **`Workspace.Course.hasDerived`** — each record of a context was derived
  in it.
* **`Session.Runs.lookups_agree`** — the same of every record that is answered.
* **`Session.not_lookups_agree`** — a record that does not fit.
-/

namespace ForeignTypes

/-! ## Searching by name -/

section Searching

variable {α : Type} {f : α → String} {xs : List α} {x : α} {name : String}

/-- What is found under a name is where the name stands first. -/
lemma exists_idxOf?_of_find? (h : xs.find? (fun x => f x = name) = some x) :
    ∃ i, (xs.map f).idxOf? name = some i ∧ xs[i]? = some x := by
  rw [List.find?_eq_bind_findIdx?_getElem?] at h
  obtain ⟨i, hi, hx⟩ := Option.bind_eq_some_iff.mp h
  refine ⟨i, ?_, hx⟩
  rw [List.idxOf?, List.findIdx?_map]
  exact hi

lemma isSome_find?_name :
    (xs.find? fun x => f x = name).isSome = decide (name ∈ xs.map f) := by
  rw [Bool.eq_iff_iff]
  simp

end Searching

/-! ## What the searches tell -/

namespace RecordType

/-- The layout that the record has without a bound on sums. -/
def exactLayout (types : TypeStore) (r : RecordType) : Layout :=
  .compute .exact (r.fields.map (·.extent types)) r.pack

/-- The size of the record can be counted: in words, it is less than 2^64 bytes. -/
def Fits (counting : Counting) (types : TypeStore) (r : RecordType) : Prop :=
  counting = .words → (r.exactLayout types).size < wordRange

/-- The field at an index, and the first byte of its place. -/
structure StartsAt (r : RecordType) (i : Nat) (field : RecordField) (first : Nat) : Prop where
  field : r.fields[i]? = some field
  place : (r.layout.fields[i]?).map (·.offset) = some first

/-- The fields of the record and the places of its layout, searched by name, are those of the
declared fields. -/
structure LookupsAgree (counting : Counting) (types : TypeStore) (decls : List FieldDecl)
    (r : RecordType) : Prop where
  /-- For each declared field there is one field, and one place, of the same name. -/
  fields : r.fields.map (·.name) = decls.map (·.name)
  places : r.layout.fields.map (·.name) = decls.map (·.name)
  /-- A place has the size of the type of its field. -/
  sizes : r.layout.fields.map (·.size) = r.fields.map fun field => (field.extent types).size
  /-- Under a name there are a field and an offset, or neither. -/
  isSome : ∀ name, (r.field? name).isSome = (r.layout.offsetOf? name).isSome
  /-- Both are of the field that was declared first under the name. -/
  found : ∀ name field first, r.field? name = some field → r.layout.offsetOf? name = some first →
    ∃ i, (decls.map (·.name)).idxOf? name = some i ∧ r.StartsAt i field first
  /-- The bytes of a field are inside the record. -/
  inside : r.Fits counting types → ∀ i field first e, r.StartsAt i field first →
    types.extentOf field.type = some e → first + e.size ≤ r.layout.size
  /-- No byte is of two fields. -/
  apart : r.Fits counting types → ∀ i j field field' first first' e e', i ≠ j →
    r.StartsAt i field first → types.extentOf field.type = some e →
    r.StartsAt j field' first' → types.extentOf field'.type = some e' →
    first + e.size ≤ first' ∨ first' + e'.size ≤ first
  /-- A record that does not fit is one whose layout is not the exact one. -/
  exact : r.Fits counting types ↔ r.layout = r.exactLayout types
  /-- Then some field is not inside, or some byte is of two fields, if the alignments that count are
  powers of two. -/
  tidy : (∀ field ∈ r.fields, Layout.effectiveAlign r.pack (field.extent types).align ∣ wordRange) →
    (r.layout.Tidy ↔ r.Fits counting types)
  /-- A record without records in it fits, unless it has more fields than there is memory for. -/
  few : (∀ field ∈ r.fields, ∀ id, field.type ≠ .record id) → r.fields.length < 2 ^ 59 →
    r.Fits counting types

variable {r : RecordType} {counting : Counting} {types : TypeStore} {decls : List FieldDecl}
  {i j : Nat} {field field' : RecordField} {first first' : Nat} {e e' : Extent}

/-! ## The size of a record -/

lemma fits_iff
    (hlayout : r.layout = .compute counting (r.fields.map (·.extent types)) r.pack) :
    r.Fits counting types ↔ r.layout = r.exactLayout types := by
  rw [hlayout]
  cases counting with
  | exact => exact iff_of_true (fun h => absurd h (by simp)) rfl
  | words => exact ⟨fun h => Layout.compute_words_iff.mpr (h rfl),
      fun h _ => Layout.compute_words_iff.mp h⟩

lemma tidy_iff (hlayout : r.layout = .compute counting (r.fields.map (·.extent types)) r.pack)
    (hdvd : ∀ field ∈ r.fields,
      Layout.effectiveAlign r.pack (field.extent types).align ∣ wordRange) :
    r.layout.Tidy ↔ r.Fits counting types := by
  have hdvd' : ∀ f ∈ r.fields.map (·.extent types),
      Layout.effectiveAlign r.pack f.align ∣ wordRange := by simpa using hdvd
  rw [hlayout]
  cases counting with
  | exact => exact iff_of_true (Layout.tidy_compute_exact _ _) fun h => absurd h (by simp)
  | words =>
      rw [Layout.tidy_compute_words_iff hdvd']
      exact ⟨fun h _ => h, fun h => h rfl⟩

/-- All that is not a record is small. -/
lemma extent_le (types : TypeStore) (h : ∀ id, field.type ≠ .record id) :
    (field.extent types).size ≤ 16 ∧ (field.extent types).align ≤ 16 := by
  obtain ⟨name, v⟩ := field
  cases v with
  | record id => exact absurd rfl (h id)
  | int signed width =>
      have hbytes : width.bytes ≤ 16 := by cases width <;> decide
      exact ⟨hbytes, hbytes⟩
  | _ => simp [RecordField.extent, TypeStore.extentOf, ValueType.extent?, Extent.aligned,
      Extent.pointer]

lemma fits_of_few (hleaf : ∀ field ∈ r.fields, ∀ id, field.type ≠ .record id)
    (hfew : r.fields.length < 2 ^ 59) : r.Fits counting types := by
  intro _
  have hsmall : ∀ f ∈ r.fields.map (·.extent types),
      f.size ≤ 16 ∧ Layout.effectiveAlign r.pack f.align ≤ 16 := by
    intro f hf
    obtain ⟨field, hfield, rfl⟩ := List.mem_map.mp hf
    obtain ⟨hsize, halign⟩ := extent_le types (hleaf field hfield)
    refine ⟨hsize, ?_⟩
    cases r.pack with
    | none => simp only [Layout.effectiveAlign]; omega
    | some most => simp only [Layout.effectiveAlign]; omega
  have hsize := Layout.size_compute_le (by decide) (fun f hf => (hsmall f hf).1)
    fun f hf => (hsmall f hf).2
  rw [List.length_map] at hsize
  show Layout.size (.compute .exact _ _) < 2 ^ 64
  omega

/-! ## Fields and places -/

lemma name_extent (field : RecordField) (types : TypeStore) :
    (field.extent types).name = field.name := by
  rw [RecordField.extent]
  cases types.extentOf field.type with
  | some e => rfl
  | none => rfl

/-- The places have the names of the fields, however sums are counted. -/
lemma names_places
    (hlayout : r.layout = .compute counting (r.fields.map (·.extent types)) r.pack) :
    r.layout.fields.map (·.name) = r.fields.map (·.name) := by
  have hplaces := congrArg (List.map Prod.fst)
    (Layout.map_place counting r.pack 0 (r.fields.map (·.extent types)))
  simp only [List.map_map, Function.comp_def, name_extent] at hplaces
  rw [hlayout]
  exact hplaces

/-- The places have the sizes of the fields, whether sums fit or not. -/
lemma sizes_places
    (hlayout : r.layout = .compute counting (r.fields.map (·.extent types)) r.pack) :
    r.layout.fields.map (·.size) = r.fields.map fun field => (field.extent types).size := by
  have hplaces := congrArg (List.map Prod.snd)
    (Layout.map_place counting r.pack 0 (r.fields.map (·.extent types)))
  simp only [List.map_map, Function.comp_def] at hplaces
  rw [hlayout]
  exact hplaces

/-- In an exact layout a field with a size has a place of that size. -/
lemma StartsAt.exists_placement (h : r.StartsAt i field first)
    (hexact : r.layout = r.exactLayout types) (he : types.extentOf field.type = some e) :
    ∃ p, (r.exactLayout types).fields[i]? = some p ∧ p.offset = first ∧ p.size = e.size ∧
      first + e.size ≤ r.layout.size := by
  have hextent : (r.fields.map (·.extent types))[i]? = some ⟨field.name, e.size, e.align⟩ := by
    rw [List.getElem?_map, h.field, Option.map_some, RecordField.extent_of_some he]
  obtain ⟨p, hp, (hsize : p.size = e.size), -, hinside⟩ :=
    Layout.exists_placed_compute r.pack hextent
  have hplace := h.place
  rw [hexact, exactLayout, hp] at hplace
  obtain rfl : p.offset = first := Option.some.inj hplace
  refine ⟨p, hp, rfl, hsize, ?_⟩
  rw [hexact, ← hsize]
  exact hinside

/-- Of two fields with a size, the earlier one ends before the later one starts. -/
lemma StartsAt.end_le (h : r.StartsAt i field first) (h' : r.StartsAt j field' first')
    (hexact : r.layout = r.exactLayout types) (he : types.extentOf field.type = some e)
    (he' : types.extentOf field'.type = some e') (hij : i < j) : first + e.size ≤ first' := by
  obtain ⟨p, hp, rfl, hsize, -⟩ := h.exists_placement hexact he
  obtain ⟨q, hq, rfl, -, -⟩ := h'.exists_placement hexact he'
  rw [← hsize]
  exact Layout.pairwise_compute hij hp hq

/-- **The searches agree** in a record that is laid out field by field. -/
theorem lookupsAgree (hnames : r.fields.map (·.name) = decls.map (·.name))
    (hlayout : r.layout = .compute counting (r.fields.map (·.extent types)) r.pack) :
    r.LookupsAgree counting types decls where
  fields := hnames
  places := (names_places hlayout).trans hnames
  sizes := sizes_places hlayout
  isSome := by
    intro name
    rw [field?, Layout.offsetOf?, Option.isSome_map, isSome_find?_name, isSome_find?_name,
      names_places hlayout]
  found := by
    intro name field first hfield hfirst
    obtain ⟨p, hp, hoffset⟩ := Option.map_eq_some_iff.mp hfirst
    obtain ⟨i, hi, hat⟩ := exists_idxOf?_of_find? hfield
    obtain ⟨j, hj, hplace⟩ := exists_idxOf?_of_find? hp
    -- the two lists have one list of names, and so the name has one index
    rw [names_places hlayout] at hj
    obtain rfl := Option.some.inj (hi.symm.trans hj)
    rw [hnames] at hi
    refine ⟨i, hi, hat, ?_⟩
    rw [hplace, Option.map_some, hoffset]
  inside := by
    intro hfits i field first e hat he
    obtain ⟨p, -, -, -, hinside⟩ := hat.exists_placement ((fits_iff hlayout).mp hfits) he
    exact hinside
  apart := by
    intro hfits i j field field' first first' e e' hne hat he hat' he'
    have hexact := (fits_iff hlayout).mp hfits
    rcases Nat.lt_or_gt_of_ne hne with hlt | hgt
    · exact .inl (hat.end_le hat' hexact he he' hlt)
    · exact .inr (hat'.end_le hat hexact he' he hgt)
  exact := fits_iff hlayout
  tidy := tidy_iff hlayout
  few := fits_of_few

end RecordType

/-! ## The records of a context -/

namespace Workspace

variable {w w' : Workspace} {hs hs' account : List Happening} {id : StructId} {t : ValueType}
  {r : RecordType}

lemma Derives.lookupsAgree (h : w.Derives id r) :
    ∃ decls, w.process.structs.fields? id = some decls ∧
      r.LookupsAgree w.process.structs.counting w.process.types decls := by
  obtain ⟨decls, hdecls, hderived, hlayout⟩ := h.forall₂_fields
  exact ⟨decls, hdecls, RecordType.lookupsAgree
    (FieldDecl.names_of_derive (mapM_eq_ok_iff.mpr hderived)) hlayout⟩

/-- What the context has as the record of a class was derived among these happenings, and all types
that were there then are still there. -/
def HasDerived (w : Workspace) (hs : List Happening) : Prop :=
  ∀ id t, w.context.records.get? id = some t → ∃ w₀ r, .derived w₀ id ∈ hs ∧ w₀.Derives id r ∧
    w.process.types.recordOf? t = some r ∧ w₀.process.types.Extends w.process.types

lemma HasDerived.mono (h : w.HasDerived hs) (hrecords : w'.context.records = w.context.records)
    (htypes : w.process.types.Extends w'.process.types) (hhs : hs ⊆ hs') : w'.HasDerived hs' := by
  intro id t ht
  rw [hrecords] at ht
  obtain ⟨w₀, r, hmem, hderives, hr, hextends⟩ := h id t ht
  exact ⟨w₀, r, hhs hmem, hderives, htypes.recordOf? hr, hextends.trans htypes⟩

lemma HasDerived.of_leavesTyping (h : w.HasDerived hs) (hleaves : w.LeavesTyping w')
    (hhs : hs ⊆ hs') : w'.HasDerived hs' := by
  refine h.mono hleaves.records ?_ hhs
  rw [hleaves.types]
  exact .refl _

/-- A record that is derived is there afterwards, with those that were there before. -/
lemma HasDerived.deriveRecord (h : w.HasDerived hs) (hnumbered : w.process.types.Numbered)
    (id : StructId) : (w.deriveRecord id).1.HasDerived (.derived w id :: hs) := by
  rcases w.deriveRecord_cases id with ⟨e, -, hw⟩ | ⟨t, -, hw⟩ | ⟨r, hnew, rfl, -, hw⟩
  · rw [hw]
    exact h.mono rfl (.refl _) (List.subset_cons_self _ _)
  · rw [hw]
    exact h.mono rfl (.refl _) (List.subset_cons_self _ _)
  · have hgrows := (w.process.types.grows_add (.record r) hnumbered).2
    intro id t ht
    rw [hw] at ht ⊢
    rw [get?_withRecord] at ht
    split at ht
    · next hid =>
        subst hid
        obtain rfl := Option.some.inj ht
        refine ⟨w, r, List.mem_cons_self, ⟨hnew, _, congrArg Prod.snd hw, ?_⟩,
          w.recordOf?_withRecord r, hgrows⟩
        rw [hw]
        exact w.recordOf?_withRecord r
    · obtain ⟨w₀, r', hmem, hderives, hr', hextends⟩ := h id t ht
      exact ⟨w₀, r', List.mem_cons_of_mem _ hmem, hderives, hgrows.recordOf? hr',
        hextends.trans hgrows⟩

/-- **Along every course** the records of a context are those that were derived in it. -/
theorem Course.hasDerived {answer : Except Error Unit} (h : Course w account w' answer)
    (hnumbered : w.process.types.Numbered) (hw : w.HasDerived hs) :
    w'.HasDerived (account ++ hs) := by
  induction h generalizing hs with
  | done w | refused w _ | counted w m run => exact hw
  | unsupported _ | ready _ => exact hw.mono rfl (.refl _) (List.subset_cons_self _ _)
  | mapped w s v => exact hw.mono rfl (.refl _) (List.subset_cons_self _ _)
  | provided w m => exact hw.of_leavesTyping (leavesTyping_provideModule w m) (List.Subset.refl _)
  | derived w id => exact hw.deriveRecord hnumbered id
  | andThen h _ ih ih' =>
      refine (ih' (h.growsTypes hnumbered).1 (ih hnumbered hw)).mono rfl (.refl _) ?_
      intro happening hmem
      simp only [List.mem_append] at hmem ⊢
      tauto
  | forgiven _ ih => exact ih hnumbered hw
  | noted _ _ _ ih => exact ih hnumbered hw
  | @ran w w' path support p account answer _ _ ih =>
      have hbegun : (w.begun support (familyOf path)).HasDerived hs :=
        hw.mono rfl (.refl _) (List.Subset.refl _)
      refine (ih hnumbered hbegun).of_leavesTyping
        (leavesTyping_settle w' (familyOf path) answer) ?_
      intro happening hmem
      simp only [List.mem_append] at hmem ⊢
      tauto

end Workspace

/-! ## Runs -/

namespace Session

variable {s : Session} {history : List Performed} {name struct : String} {c : Context}
  {id : StructId} {type : Option String} {t : ValueType}

lemma Runs.hasDerived (hruns : start.Runs history s) (hc : s.contexts.get? name = some c) :
    Workspace.HasDerived ⟨s.process, c⟩ (happeningsIn history c.id) := by
  refine hruns.context_induction
    (P := fun process c hs => Workspace.HasDerived ⟨process, c⟩ hs) ?_ ?_ ?_ hc
  · intro process K options id t ht
    exact absurd ht (by simp [Context.new, RecordCache.get?])
  · intro process process' c c' hs _ htypes _ heq ih
    have hrecords : c'.records = c.records := by rw [heq]
    exact ih.mono hrecords htypes (List.Subset.refl _)
  · intro w w' account hs answer hnumbered hcourse ih
    exact hcourse.hasDerived hnumbered ih

/-- **Fields by name.**  When the record of a class is asked for in a context that is there after a
run, and a type is the answer, then the type is a record that was derived in the context at that
moment or earlier, and

* there are one field and one place for each field of the class, under the same name and at the same
  index;
* under each name there are a field and an offset, or neither, and both are those of the field of
  the class that was declared first under the name;
* the bytes of a field, from its offset on and as many as its type has, are inside the record and
  belong to no other field that has a size.

The last part holds exactly if the record fits, provided that the alignments are powers of two; and
it does fit unless it takes 2^64 bytes or more, for which it has to hold other records, through
scalars that are mapped to them.  The sizes of types are those of the moment when the record was
derived. -/
theorem Runs.lookups_agree (hruns : start.Runs history s) (hc : s.contexts.get? name = some c)
    (hid : s.structs.get? struct = some id)
    (ht : (s.perform (.deriveRecord name struct type)).1 = .ok t) :
    ∃ w r decls,
      .derived w id ∈ happeningsIn (⟨.deriveRecord name struct type, s⟩ :: history) c.id ∧
      w.Derives id r ∧
      (s.perform (.deriveRecord name struct type)).2.process.types.recordOf? t = some r ∧
      w.process.types.Extends (s.perform (.deriveRecord name struct type)).2.process.types ∧
      w.process.structs.fields? id = some decls ∧
      r.LookupsAgree w.process.structs.counting w.process.types decls := by
  have hlater := hruns.cons (.deriveRecord name struct type)
  have hc' : (s.perform (.deriveRecord name struct type)).2.contexts.get? name
      = some (Workspace.deriveRecord ⟨s.process, c⟩ id).1.context := by
    rw [perform_deriveRecord hid hc, contexts_typed, Table.get?_put, if_pos rfl]
  have hsame : (Workspace.deriveRecord ⟨s.process, c⟩ id).1.context.id = c.id :=
    (Workspace.spares_deriveRecord ⟨s.process, c⟩ id).id
  obtain ⟨htyped, -⟩ := hlater.records hc'
  have hderived := hlater.hasDerived hc'
  rw [hsame] at htyped hderived
  have hget := (htyped id t).mpr (typed_of_deriveRecord hc hid ht)
  obtain ⟨w, r, hmem, hderives, hr, hextends⟩ := hderived id t hget
  obtain ⟨decls, hdecls, hagree⟩ := hderives.lookupsAgree
  exact ⟨w, r, decls, hmem, hderives, hr, hextends, hdecls, hagree⟩

/-- A class is declared that has two fields of one name, of different types. -/
def twiceNamed : Session :=
  (start.perform (.declareStruct "T" ⟨"Twice", "native.records", none, some
    [⟨"x", .scalar .int8, none⟩, ⟨"y", .scalar .int64, none⟩, ⟨"x", .scalar .int32, none⟩]⟩)).2

/-- What it goes across as. -/
def twice : RecordType :=
  .ofFields .words {} ⟨0⟩ "Twice"
    [⟨"x", .int true .w8⟩, ⟨"y", .int true .w64⟩, ⟨"x", .int true .w32⟩] none

/-- Both searches find the first of the two, and all others lie after its byte. -/
theorem lookups_agree_twiceNamed :
    (twiceNamed.perform (.deriveRecord "main" "T" none)).2.process.types.recordOf? (.record ⟨0⟩)
        = some twice ∧
      twice.field? "x" = some ⟨"x", .int true .w8⟩ ∧ twice.layout.offsetOf? "x" = some 0 ∧
      twice.StartsAt 0 ⟨"x", .int true .w8⟩ 0 ∧
      ∃ w : Workspace, w.Derives ⟨0⟩ twice ∧ ∀ j field first e, 0 ≠ j →
        twice.StartsAt j field first → w.process.types.extentOf field.type = some e →
        0 + 1 ≤ first ∨ first + e.size ≤ 0 := by
  have hruns := (Runs.nil (s := start)).cons (.declareStruct "T" ⟨"Twice", "native.records", none,
    some [⟨"x", .scalar .int8, none⟩, ⟨"y", .scalar .int64, none⟩, ⟨"x", .scalar .int32, none⟩]⟩)
  obtain ⟨c, hc⟩ : ∃ c, twiceNamed.contexts.get? "main" = some c := ⟨_, rfl⟩
  have hid : twiceNamed.structs.get? "T" = some ⟨0⟩ := rfl
  have ht : (twiceNamed.perform (.deriveRecord "main" "T" none)).1 = .ok (.record ⟨0⟩) := rfl
  have hfound : (twiceNamed.perform (.deriveRecord "main" "T" none)).2.process.types.recordOf?
      (.record ⟨0⟩) = some twice := rfl
  obtain ⟨w, r, decls, -, hderives, hr, -, -, hagree⟩ := hruns.lookups_agree hc hid ht
  obtain rfl := Option.some.inj (hfound.symm.trans hr)
  obtain ⟨i, hi, hat⟩ := hagree.found "x" ⟨"x", .int true .w8⟩ 0 rfl rfl
  rw [← hagree.fields] at hi
  obtain rfl : 0 = i := Option.some.inj hi
  have hfits := hagree.few (by simp [twice, RecordType.ofFields]) (by decide)
  exact ⟨hfound, rfl, rfl, hat, w, hderives, fun j field first e hne hat' he =>
    hagree.apart hfits 0 j _ field 0 first (.aligned 1) e hne hat rfl hat' he⟩

/-! ### Records within records -/

/-- A class of two fields of one scalar. -/
def twoOfOne : StructDecl :=
  ⟨"Pair", "native.records", none, some [⟨"a", .scalar .int64, none⟩, ⟨"b", .scalar .int64, none⟩]⟩

/-- The record of the class is derived `n` times, and each time the scalar is mapped to it, so that
the next one is twice as large. -/
def doubled : Nat → Session
  | 0 => start
  | n + 1 =>
    let derived := (((doubled n).perform (.declareStruct "P" twoOfOne)).2.perform
      (.deriveRecord "main" "P" none)).2
    (derived.perform (.mapScalar "main" .int64 (.record ⟨n⟩))).2

lemma runs_doubled : ∀ n, ∃ history, start.Runs history (doubled n)
  | 0 => ⟨[], .nil⟩
  | n + 1 => by
      obtain ⟨history, hruns⟩ := runs_doubled n
      have hdeclared := hruns.cons (.declareStruct "P" twoOfOne)
      have hderived := hdeclared.cons (.deriveRecord "main" "P" none)
      exact ⟨_, hderived.cons (.mapScalar "main" .int64 (.record ⟨n⟩))⟩

/-- The record that is derived next after sixty. -/
def halves : RecordType where
  struct := ⟨60⟩
  name := "Pair"
  fields := [⟨"a", .record ⟨59⟩⟩, ⟨"b", .record ⟨59⟩⟩]
  pack := none
  layout := ⟨[⟨"a", 0, 2 ^ 63⟩, ⟨"b", 2 ^ 63, 2 ^ 63⟩], 0, 8⟩

/-- The session in which the class is declared once more. -/
def declaredLast : Session := ((doubled 60).perform (.declareStruct "P" twoOfOne)).2

/-- Of the sixty records before it each is twice as large as the one below, the first one of sixteen
bytes; so either field takes 2^63 bytes, and their sum is zero in words. -/
lemma derived_halves :
    (declaredLast.contexts.get? "main").isSome = true ∧
    declaredLast.structs.get? "P" = some ⟨60⟩ ∧
    (declaredLast.perform (.deriveRecord "main" "P" none)).1.toOption = some (.record ⟨60⟩) ∧
    (declaredLast.perform (.deriveRecord "main" "P" none)).2.process.types.recordOf? (.record ⟨60⟩)
      = some halves ∧
    (declaredLast.perform (.deriveRecord "main" "P" none)).2.process.types.extentOf (.record ⟨59⟩)
      = some ⟨2 ^ 63, 8⟩ := by
  decide +kernel

/-- **A record that does not fit** is said to take no room at all, and its fields, of 2^63 bytes
each, are not inside. -/
theorem not_lookups_agree :
    ¬∀ history s name c struct id type t, start.Runs history s → s.contexts.get? name = some c →
      s.structs.get? struct = some id → (s.perform (.deriveRecord name struct type)).1 = .ok t →
      let types := (s.perform (.deriveRecord name struct type)).2.process.types
      ∃ r, types.recordOf? t = some r ∧
        ((∀ field ∈ r.fields, ∃ e, types.extentOf field.type = some e) →
          ∀ field first e, field ∈ r.fields → r.field? field.name = some field →
            r.layout.offsetOf? field.name = some first → types.extentOf field.type = some e →
            first + e.size ≤ r.layout.size) := by
  intro hall
  obtain ⟨history, hruns⟩ := runs_doubled 60
  have hdeclared : start.Runs _ declaredLast := hruns.cons (.declareStruct "P" twoOfOne)
  obtain ⟨hc, hid, ht, hhalves, hextent⟩ := derived_halves
  obtain ⟨c, hc⟩ := Option.isSome_iff_exists.mp hc
  obtain ⟨r, hr, hinside⟩ := hall _ _ _ _ _ _ _ _ hdeclared hc hid (toOption_eq_some.mp ht)
  obtain rfl := Option.some.inj (hhalves.symm.trans hr)
  have hsized : ∀ field ∈ halves.fields, field.type = .record ⟨59⟩ := by decide
  have hle := hinside (fun field hfield => ⟨_, hsized field hfield ▸ hextent⟩)
    ⟨"a", .record ⟨59⟩⟩ 0 _ List.mem_cons_self rfl rfl hextent
  exact absurd hle (by decide)

end Session

end ForeignTypes
