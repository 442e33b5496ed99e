import ForeignTypes.Proofs.Nesting
import ForeignTypes.Proofs.Overflow
import Mathlib.Algebra.Ring.Nat

/-!
# How large nested structs get

A struct that holds another one twice is twice as large, and sixty such steps are enough to leave
the range of a word.  So the layouts of well-nested classes can overflow, and the layout that is
answered then is not the layout of the class.

This is the only thing that goes wrong.  Whatever lies inside a class is no larger than the class.
So if the exact size of a class fits into a word, nothing overflows on the way to its layout, in the
class or in any class inside it; and if nothing overflows, all sizes on the way are exact.

* `StructTable.exactly` — the same classes, with sizes that are counted without a bound.
* `StructTable.Overflows` — a sum in the layout of a class does not fit into a word.
* `HasLayout.words`, `HasLayout.exact` — a layout in the one counting that is one in the other.
* **`StructTable.exists_overflows_iff`** — when something overflows on the way to a layout.
* **`StructTable.layouts_fit`**, **`StructTable.not_layouts_fit`** — the classes whose layout is
  exact, and a class whose layout is not.
-/

namespace ForeignTypes

namespace StructTable

open Relation

/-- The same classes, with sizes that are counted without a bound. -/
def exactly (t : StructTable) : StructTable where
  decls := t.decls
  counting := .exact

/-- Some sum in the layout of the class does not fit into a word, where the fields take the room
that the table says. -/
def Overflows (t : StructTable) (id : StructId) : Prop :=
  ∃ d fields es, t.decl? id = some d ∧ d.fields = some fields ∧ t.HasExtents fields es ∧
    Layout.overflows es d.pack = true

variable {t : StructTable} {id inner : StructId} {l l' : Layout}

/-! ## The inside of a class -/

/-- In exact counting a field is no larger than the class. -/
lemma size_le_size_compute {es : List FieldExtent} {e : FieldExtent} (h : e ∈ es)
    (limit : Option Nat) : e.size ≤ (Layout.compute .exact es limit).size := by
  obtain ⟨i, hi⟩ := List.mem_iff_getElem?.mp h
  obtain ⟨p, -, hsize, -, hinside⟩ := Layout.exists_placed_compute limit hi
  omega

/-- So if the class fits into a word, its fields do. -/
lemma size_lt_of_compute {es : List FieldExtent} {limit : Option Nat}
    (h : (Layout.compute .exact es limit).size < wordRange) : ∀ e ∈ es, e.size < wordRange :=
  fun _ he => Nat.lt_of_le_of_lt (size_le_size_compute he limit) h

lemma HasLayout.size_le (hexact : t.counting = .exact) (h : t.HasLayout id l)
    (hinner : t.Holds id inner) (h' : t.HasLayout inner l') : l'.size ≤ l.size := by
  cases h with
  | @mk _ d fields es hd hfields hes =>
      obtain ⟨fields', hfields', f, hf, htype⟩ := hinner
      obtain rfl := Option.some.inj ((fields?_eq hd hfields).symm.trans hfields')
      obtain ⟨e, hmem, he⟩ := hes.exists_mem hf
      rw [htype] at he
      obtain rfl := he.unique (.struct h')
      rw [hexact]
      exact size_le_size_compute hmem d.pack

/-- What a class holds, at any depth, is no larger than the class. -/
lemma HasLayout.size_le_of_reachable (hexact : t.counting = .exact) (h : t.HasLayout id l)
    (hreach : ReflTransGen t.Holds id inner) (h' : t.HasLayout inner l') : l'.size ≤ l.size := by
  induction hreach generalizing l' with
  | refl => exact Nat.le_of_eq (congrArg Layout.size (h'.unique h))
  | tail hreach hinner ih =>
      obtain ⟨m, hm⟩ := h.reachable hreach
      exact Nat.le_trans (hm.size_le hexact hinner h') (ih hm)

/-! ## From one counting to the other -/

/-- A size that was counted in words is one. -/
lemma HasLayout.size_lt (hwords : t.counting = .words) (h : t.HasLayout id l) :
    l.size < wordRange := by
  cases h with
  | mk _ _ _ =>
      rw [hwords]
      exact Counting.keep_words_lt _

mutual

/-- A layout whose exact size fits into a word is the layout in words. -/
theorem HasLayout.words (hwords : t.counting = .words) {id : StructId} {l : Layout} :
    t.exactly.HasLayout id l → l.size < wordRange → t.HasLayout id l
  | @HasLayout.mk _ _ d fields es hd hfields hes, hfits => by
      have hparts := HasExtents.words hwords hes (size_lt_of_compute hfits)
      have hsame : Layout.compute .exact es d.pack = Layout.compute t.counting es d.pack := by
        rw [hwords]
        exact (Layout.compute_words_iff.mpr hfits).symm
      have hlayout : t.HasLayout id (Layout.compute t.counting es d.pack) :=
        .mk hd hfields hparts
      exact hsame ▸ hlayout

theorem HasExtent.words (hwords : t.counting = .words) {type : CType} {e : Extent} :
    t.exactly.HasExtent type e → e.size < wordRange → t.HasExtent type e
  | .scalar s, _ => .scalar s
  | .pointer type, _ => .pointer type
  | .struct hl, hfits => .struct (HasLayout.words hwords hl hfits)

theorem HasExtents.words (hwords : t.counting = .words) {fields : List FieldDecl}
    {es : List FieldExtent} : t.exactly.HasExtents fields es → (∀ e ∈ es, e.size < wordRange) →
      t.HasExtents fields es
  | .nil, _ => .nil
  | .cons he hes, hfits => by
      have hhead := HasExtent.words hwords he (hfits _ List.mem_cons_self)
      exact .cons hhead (HasExtents.words hwords hes fun e he => hfits e (by simp [he]))

end

mutual

/-- If nothing overflows on the way to a layout in words, it is the exact layout. -/
theorem HasLayout.exact (hwords : t.counting = .words) {id : StructId} {l : Layout} :
    t.HasLayout id l → (∀ inner, ReflTransGen t.Holds id inner → ¬ t.Overflows inner) →
      t.exactly.HasLayout id l
  | @HasLayout.mk _ _ d fields es hd hfields hes, hfits => by
      have hparts := HasExtents.exact hwords hes fun f hf inner htype inner' hreach =>
        hfits inner' (.head ⟨fields, fields?_eq hd hfields, f, hf, htype⟩ hreach)
      have hnone : ¬ Layout.overflows es d.pack = true := fun hover =>
        hfits id .refl ⟨d, fields, es, hd, hfields, hes, hover⟩
      have hsame : Layout.compute t.counting es d.pack = Layout.compute .exact es d.pack := by
        rw [hwords]
        rw [Layout.overflows_iff, Nat.not_le] at hnone
        exact Layout.compute_words_iff.mpr hnone
      have hlayout : t.exactly.HasLayout id (Layout.compute .exact es d.pack) :=
        .mk hd hfields hparts
      exact hsame ▸ hlayout

theorem HasExtent.exact (hwords : t.counting = .words) {type : CType} {e : Extent} :
    t.HasExtent type e →
      (∀ id, type = .struct id → ∀ inner, ReflTransGen t.Holds id inner → ¬ t.Overflows inner) →
      t.exactly.HasExtent type e
  | .scalar s, _ => .scalar s
  | .pointer type, _ => .pointer type
  | .struct hl, hfits => .struct (HasLayout.exact hwords hl (hfits _ rfl))

theorem HasExtents.exact (hwords : t.counting = .words) {fields : List FieldDecl}
    {es : List FieldExtent} : t.HasExtents fields es →
      (∀ f ∈ fields, ∀ id, f.type = .struct id → ∀ inner, ReflTransGen t.Holds id inner →
        ¬ t.Overflows inner) → t.exactly.HasExtents fields es
  | .nil, _ => .nil
  | .cons he hes, hfits => by
      have hhead := HasExtent.exact hwords he (hfits _ (by simp))
      exact .cons hhead (HasExtents.exact hwords hes fun f hf => hfits f (by simp [hf]))

end

/-! ## When something overflows -/

/-- How structs nest does not depend on how sizes are counted. -/
lemma wellNested_exactly : t.exactly.WellNested id ↔ t.WellNested id :=
  ⟨fun h => ⟨h.complete, h.no_void, h.acyclic⟩, fun h => ⟨h.complete, h.no_void, h.acyclic⟩⟩

lemma sane_exactly (t : StructTable) : t.exactly.Sane := sane_of_unsearched rfl rfl

/-- A class that fits does not overflow. -/
lemma not_overflows_of_lt (hwords : t.counting = .words) (h : t.exactly.HasLayout id l)
    (hfits : l.size < wordRange) : ¬ t.Overflows id := by
  rintro ⟨d, fields, es, hd, hfields, hes, hover⟩
  cases h with
  | @mk _ d' fields' es' hd' hfields' hes' =>
      obtain rfl := Option.some.inj (hd.symm.trans hd')
      obtain rfl := Option.some.inj (hfields.symm.trans hfields')
      obtain rfl := hes.unique (hes'.words hwords (size_lt_of_compute hfits))
      rw [Layout.overflows_iff] at hover
      exact Nat.not_lt_of_le hover hfits

/-- **Something overflows** on the way to the layout of a class, in the class or in a class inside
it, exactly if the exact size of the class does not fit into a word. -/
theorem exists_overflows_iff (hwords : t.counting = .words) (h : t.exactly.HasLayout id l) :
    (∃ inner, ReflTransGen t.Holds id inner ∧ t.Overflows inner) ↔ wordRange ≤ l.size := by
  constructor
  · rintro ⟨inner, hreach, hover⟩
    obtain ⟨l', hl'⟩ := h.reachable hreach
    by_contra hfits
    have hle := h.size_le_of_reachable rfl hreach hl'
    exact not_overflows_of_lt hwords hl' (by omega) hover
  · intro hlarge
    by_contra hnone
    obtain ⟨m, hm⟩ := (wellNested_exactly.mp h.wellNested).exists_hasLayout
    have hexact := hm.exact hwords fun inner hreach hover => hnone ⟨inner, hreach, hover⟩
    obtain rfl := h.unique hexact
    have hsmall := hm.size_lt hwords
    omega

/-- **The layouts that are exact.**  A class is well nested, so it has a layout, in words and in
exact counting.  On the way to its layout in words, in the class or in a class inside it, something
overflows exactly if its exact size is 2^64 or more; and the layout in words is the exact one exactly
if that size is less. -/
theorem layouts_fit (ht : t.Sane) (hwords : t.counting = .words) (hid : t.WellNested id) :
    ∃ l exact, (t.layout id).2 = some l ∧ (t.exactly.layout id).2 = some exact ∧
      ((∃ inner, ReflTransGen t.Holds id inner ∧ t.Overflows inner) ↔ wordRange ≤ exact.size) ∧
      (l = exact ↔ exact.size < wordRange) := by
  obtain ⟨l, hl⟩ := hid.exists_hasLayout
  obtain ⟨exact, hexact⟩ := (wellNested_exactly.mpr hid).exists_hasLayout
  refine ⟨l, exact, (layout_eq_some_iff ht).mpr hl,
    (layout_eq_some_iff t.sane_exactly).mpr hexact, exists_overflows_iff hwords hexact, ?_⟩
  constructor
  · rintro rfl
    exact hl.size_lt hwords
  · intro hfits
    exact hl.unique (hexact.words hwords hfits)

/-! ## Doubling -/

/-- A word. -/
def wordDecl : StructDecl := ⟨"Word", "native.records", none, some [⟨"x", .scalar .int64, none⟩]⟩

/-- Two instances of the class that was declared as the one of this number. -/
def pairDecl (k : Nat) : StructDecl := ⟨"Pair", "native.records", none,
  some [⟨"a", .struct ⟨k⟩, none⟩, ⟨"b", .struct ⟨k⟩, none⟩]⟩

/-- A word, and above it `n` structs, each of which holds the one below it twice. -/
def doubled (n : Nat) : StructTable where
  decls := wordDecl :: (List.range n).map pairDecl

/-- The layout of two values of eight-byte alignment, one after the other. -/
def twice (size : Nat) : Layout := ⟨[⟨"a", 0, size⟩, ⟨"b", size, size⟩], size + size, 8⟩

variable {n k : Nat}

lemma sane_doubled (n : Nat) : (doubled n).Sane := sane_of_unsearched rfl rfl

lemma decl?_doubled (h : k < n) : (doubled n).decl? ⟨k + 1⟩ = some (pairDecl k) := by
  simp [doubled, decl?, h]

lemma compute_twice (m : Nat) : Layout.compute .exact
    [⟨"a", 8 * m, 8⟩, ⟨"b", 8 * m, 8⟩] none = twice (8 * m) := by
  have hstart : Counting.exact.alignUp 0 8 = 0 := rfl
  have hmid : Counting.exact.alignUp (8 * m) 8 = 8 * m := by
    simp only [Counting.alignUp, Counting.keep, stepsUp]
    omega
  have hend : Counting.exact.alignUp (8 * m + 8 * m) 8 = 8 * m + 8 * m := by
    simp only [Counting.alignUp, Counting.keep, stepsUp]
    omega
  simp [Layout.compute, Layout.place, Layout.commonAlign, Layout.effectiveAlign,
    Counting.keep_exact, hstart, hmid, hend, twice]

lemma hasLayout_next {m : Nat} (h : k < n) (hl : (doubled n).exactly.HasLayout ⟨k⟩ l)
    (hsize : l.size = 8 * m) (halign : l.align = 8) :
    (doubled n).exactly.HasLayout ⟨k + 1⟩ (twice (8 * m)) := by
  have hboth := HasLayout.mk (t := (doubled n).exactly) (decl?_doubled h) rfl
    (.cons (.struct hl) (.cons (.struct hl) .nil))
  simp only [Layout.extent, hsize, halign] at hboth
  exact compute_twice m ▸ hboth

/-- Each class is twice as large as the one below it. -/
lemma hasLayout_doubled (h : k < n) :
    (doubled n).exactly.HasLayout ⟨k + 1⟩ (twice (8 * 2 ^ k)) := by
  induction k with
  | zero =>
      have hfields := HasExtents.cons (t := (doubled n).exactly)
        (f := ⟨"x", .scalar .int64, none⟩) (.scalar .int64) .nil
      have hword : (doubled n).exactly.HasLayout ⟨0⟩ (Layout.compute .exact [⟨"x", 8, 8⟩] none) :=
        .mk (d := wordDecl) rfl rfl hfields
      exact hasLayout_next h hword (by decide) (by decide)
  | succ k ih =>
      refine hasLayout_next h (ih (Nat.lt_of_succ_lt h)) ?_ rfl
      show 8 * 2 ^ k + 8 * 2 ^ k = 8 * 2 ^ (k + 1)
      omega

/-- Sixty steps above a word, a class takes half the range of a word, and its layout is exact. -/
theorem layouts_fit_doubled : (doubled 60).WellNested ⟨60⟩ ∧
    ((doubled 60).layout ⟨60⟩).2 = some (twice (2 ^ 62)) ∧
    ¬∃ inner, ReflTransGen (doubled 60).Holds ⟨60⟩ inner ∧ (doubled 60).Overflows inner := by
  have hexact : (doubled 60).exactly.HasLayout ⟨60⟩ (twice (2 ^ 62)) :=
    hasLayout_doubled (show 59 < 60 by decide)
  have hid : (doubled 60).WellNested ⟨60⟩ := wellNested_exactly.mp hexact.wellNested
  obtain ⟨l, exact, hl, hl', hover, heq⟩ := layouts_fit (sane_doubled 60) rfl hid
  obtain rfl := (hasLayout_of_layout (sane_exactly _) hl').unique hexact
  obtain rfl := heq.mpr (by decide)
  exact ⟨hid, hl, fun hsome => absurd (hover.mp hsome) (by decide)⟩

/-- **One step more does not fit.**  The class is well nested, and its layout is said to take no
room at all, with a field that starts at 2^63. -/
theorem not_layouts_fit : (doubled 61).WellNested ⟨61⟩ ∧ (doubled 61).Overflows ⟨61⟩ ∧
    ((doubled 61).layout ⟨61⟩).2 = some ⟨[⟨"a", 0, 2 ^ 63⟩, ⟨"b", 2 ^ 63, 2 ^ 63⟩], 0, 8⟩ ∧
    ((doubled 61).exactly.layout ⟨61⟩).2 = some (twice (2 ^ 63)) := by
  have hexact : (doubled 61).exactly.HasLayout ⟨61⟩ (twice (2 ^ 63)) :=
    hasLayout_doubled (show 60 < 61 by decide)
  have hid : (doubled 61).WellNested ⟨61⟩ := wellNested_exactly.mp hexact.wellNested
  -- the class below still fits, so its layout in words is the exact one
  have hbelow : (doubled 61).HasLayout ⟨60⟩ (twice (2 ^ 62)) :=
    (hasLayout_doubled (show 59 < 61 by decide)).words rfl (by decide)
  have hfields := HasExtents.cons (f := ⟨"a", .struct ⟨60⟩, none⟩) (.struct hbelow)
    (.cons (f := ⟨"b", .struct ⟨60⟩, none⟩) (.struct hbelow) .nil)
  have hdecl := decl?_doubled (show 60 < 61 by decide)
  refine ⟨hid, ⟨_, _, _, hdecl, rfl, hfields, by decide⟩, ?_, ?_⟩
  · exact (layout_eq_some_iff (sane_doubled 61)).mpr (.mk hdecl rfl hfields)
  · exact (layout_eq_some_iff (sane_exactly _)).mpr hexact

end StructTable

end ForeignTypes
