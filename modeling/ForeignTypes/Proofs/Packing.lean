import ForeignTypes.Proofs.Alignment
import ForeignTypes.Proofs.LayoutRules
import ForeignTypes.Proofs.Overflow

/-!
# What a limit on alignment does

A limit on alignment is there to make a struct smaller.  It does so as long as each alignment that
counts under the limit divides the one without it: the next multiple of a divisor is never further
away than that of the number itself.  Alignments are powers of two, so this holds if the limit is a
power of two as well, or if it limits nothing.  A limit of three does worse than none: the next
multiple of three may lie beyond the next multiple of four.

* `Layout.NoLooser` — no field starts later, and neither size nor alignment is larger.
* `Counting.alignUp_le_alignUp` — the next multiple of a divisor.
* **`Layout.noLooser_none`** — limits under which alignments divide the natural ones.
* `Layout.size_compute_le` — a layout of few small fields is small, so that it fits into words.
* **`StructTable.pack_tightens`** — the limits that never loosen a class.
* **`StructTable.exists_loosened`**, `StructTable.not_pack_tightens` — all others loosen some class.
-/

namespace ForeignTypes

/-- The next multiple of a divisor is not further away. -/
lemma Counting.alignUp_le_alignUp {a b x y : Nat} (hdvd : a ∣ b) (hb : 0 < b) (h : x ≤ y) :
    exact.alignUp x a ≤ exact.alignUp y b := by
  have hleast := isLeast_alignUp x (Nat.pos_of_dvd_of_pos hdvd hb)
  exact hleast.2 ⟨Nat.dvd_trans hdvd (dvd_alignUp y b), Nat.le_trans h (le_alignUp y hb)⟩

namespace Layout

variable {limit : Option Nat} {fs : List FieldExtent} {most align m stop stop' : Nat}

/-- No field starts later than in the other layout, and the size and the alignment of the whole are
not larger. -/
structure NoLooser (l l' : Layout) : Prop where
  offsets : List.Forall₂ (fun p q => p.name = q.name ∧ p.offset ≤ q.offset) l.fields l'.fields
  size : l.size ≤ l'.size
  align : l.align ≤ l'.align

/-! ## Limits that divide -/

/-- A limit that is a power of two, or that is not exceeded, makes a divisor of an alignment. -/
lemma effectiveAlign_dvd (halign : align.isPowerOfTwo)
    (hmost : (max most 1).isPowerOfTwo ∨ align ≤ most) :
    effectiveAlign (some most) align ∣ align := by
  have hpos := Nat.pos_of_isPowerOfTwo halign
  rw [effectiveAlign, Nat.max_eq_left hpos]
  rcases Nat.le_total align (max most 1) with hle | hle
  · simp [Nat.min_eq_left hle]
  · rw [Nat.min_eq_right hle]
    rcases hmost with hmost | hmost
    · exact dvd_of_isPowerOfTwo hmost halign hle
    · have hsame : max most 1 = align := by omega
      simp [hsame]

/-- The alignment of the whole divides the one without a limit if all alignments do. -/
lemma commonAlign_dvd (hpow : ∀ f ∈ fs, f.align.isPowerOfTwo)
    (hdvd : ∀ f ∈ fs, effectiveAlign limit f.align ∣ f.align) :
    commonAlign limit fs ∣ commonAlign none fs :=
  commonAlign_dvd_of_dvd fun f hf => Nat.dvd_trans (hdvd f hf) (align_dvd_commonAlign hpow hf)

/-- By induction on the fields: what starts no later ends no later, and so for the next one. -/
lemma noLater_place (hpow : ∀ f ∈ fs, f.align.isPowerOfTwo)
    (hdvd : ∀ f ∈ fs, effectiveAlign limit f.align ∣ f.align) (hstop : stop ≤ stop') :
    List.Forall₂ (fun p q => p.name = q.name ∧ p.offset ≤ q.offset)
        (place .exact limit stop fs).1 (place .exact none stop' fs).1 ∧
      (place .exact limit stop fs).2 ≤ (place .exact none stop' fs).2 := by
  induction fs generalizing stop stop' with
  | nil => exact ⟨.nil, hstop⟩
  | cons f fs ih =>
      have hnatural := effectiveAlign_none (hpow f (by simp))
      have hstart : Counting.exact.alignUp stop (effectiveAlign limit f.align)
          ≤ Counting.exact.alignUp stop' (effectiveAlign none f.align) := by
        rw [hnatural]
        exact Counting.alignUp_le_alignUp (hdvd f (by simp))
          (Nat.pos_of_isPowerOfTwo (hpow f (by simp))) hstop
      obtain ⟨hrest, hend⟩ := ih (fun g hg => hpow g (by simp [hg]))
        (fun g hg => hdvd g (by simp [hg])) (Nat.add_le_add_right hstart f.size)
      exact ⟨.cons ⟨rfl, hstart⟩ hrest, hend⟩

/-- **Alignments that divide the natural ones** give a layout that is no looser than the natural
one. -/
theorem noLooser_none (hpow : ∀ f ∈ fs, f.align.isPowerOfTwo)
    (hdvd : ∀ f ∈ fs, effectiveAlign limit f.align ∣ f.align) :
    (compute .exact fs limit).NoLooser (compute .exact fs none) := by
  have hcommon := commonAlign_dvd hpow hdvd
  have hpos := commonAlign_pos none fs
  obtain ⟨hplaces, hend⟩ := noLater_place hpow hdvd (Nat.le_refl 0)
  exact ⟨hplaces, Counting.alignUp_le_alignUp hcommon hpos hend, Nat.le_of_dvd hpos hcommon⟩

/-! ## Few small fields -/

lemma commonAlign_le (hm : 0 < m) (h : ∀ f ∈ fs, effectiveAlign limit f.align ≤ m) :
    commonAlign limit fs ≤ m := by
  rcases (isGreatest_commonAlign limit fs).1 with hone | ⟨f, hf, heq⟩
  · omega
  · rw [← heq]
    exact h f hf

/-- A field takes its size, and less than its alignment before it. -/
lemma place_le (stop : Nat) (hsize : ∀ f ∈ fs, f.size ≤ m)
    (halign : ∀ f ∈ fs, effectiveAlign limit f.align ≤ m) :
    (place .exact limit stop fs).2 ≤ stop + 2 * m * fs.length := by
  induction fs generalizing stop with
  | nil => simp [place]
  | cons f fs ih =>
      have hstart := Counting.alignUp_lt stop (effectiveAlign_pos limit f.align)
      have hfield := hsize f (by simp)
      have hmost := halign f (by simp)
      have hrest := ih (Counting.exact.alignUp stop (effectiveAlign limit f.align) + f.size)
        (fun g hg => hsize g (by simp [hg])) (fun g hg => halign g (by simp [hg]))
      rw [List.length_cons, Nat.mul_add_one]
      exact Nat.le_trans hrest (by omega)

lemma size_compute_le (hm : 0 < m) (hsize : ∀ f ∈ fs, f.size ≤ m)
    (halign : ∀ f ∈ fs, effectiveAlign limit f.align ≤ m) :
    (compute .exact fs limit).size < 2 * m * fs.length + m := by
  have hstop := place_le 0 hsize halign
  have hpad := Counting.alignUp_lt (place .exact limit 0 fs).2 (commonAlign_pos limit fs)
  have hcommon := commonAlign_le hm halign
  show Counting.exact.alignUp (place .exact limit 0 fs).2 (commonAlign limit fs) < _
  omega

end Layout

namespace StructTable

open Layout

variable {t : StructTable} {id id' : StructId} {fields : List FieldDecl} {es : List FieldExtent}
  {most : Nat}

/-! ## Classes of scalars and pointers -/

lemma leafExtent?_le {type : CType} {e : Extent} (h : type.leafExtent? = some e) :
    e.size ≤ 16 ∧ e.align ≤ 16 := by
  cases type with
  | scalar s =>
      obtain rfl := Option.some.inj h
      cases s <;> decide
  | pointer type =>
      obtain rfl := Option.some.inj h
      decide
  | void | struct id => exact absurd h (by simp [CType.leafExtent?])

/-- The room of a field without structs in it is that of its type alone. -/
lemma HasExtents.exists_leaf (h : t.HasExtents fields es)
    (hleaf : ∀ f ∈ fields, f.type.leafExtent?.isSome = true) {e : FieldExtent} (he : e ∈ es) :
    ∃ f ∈ fields, f.type.leafExtent? = some ⟨e.size, e.align⟩ := by
  induction fields generalizing es with
  | nil =>
      cases h
      exact absurd he (by simp)
  | cons f fs ih =>
      cases h with
      | @cons _ _ e' _ hhead htail =>
          rcases List.mem_cons.mp he with rfl | he
          · obtain ⟨e'', he''⟩ := Option.isSome_iff_exists.mp (hleaf f (by simp))
            obtain rfl := hhead.unique (hasExtent_of_leafExtent? he'')
            exact ⟨f, by simp, he''⟩
          · obtain ⟨g, hg, hextent⟩ := ih htail (fun g hg => hleaf g (by simp [hg])) he
            exact ⟨g, by simp [hg], hextent⟩

lemma exists_hasExtents_of_leaf (t : StructTable)
    (hleaf : ∀ f ∈ fields, f.type.leafExtent?.isSome = true) : ∃ es, t.HasExtents fields es := by
  refine exists_hasExtents fun f hf => ?_
  obtain ⟨e, he⟩ := Option.isSome_iff_exists.mp (hleaf f hf)
  exact ⟨e, hasExtent_of_leafExtent? he⟩

lemma HasExtents.length_eq (h : t.HasExtents fields es) : es.length = fields.length := by
  induction fields generalizing es with
  | nil =>
      cases h
      rfl
  | cons f fs ih =>
      cases h with
      | cons _ hes => simp [ih hes]

lemma HasExtents.isPowerOfTwo_of_leaf (h : t.HasExtents fields es)
    (hleaf : ∀ f ∈ fields, f.type.leafExtent?.isSome = true) {e : FieldExtent} (he : e ∈ es) :
    e.align.isPowerOfTwo := by
  obtain ⟨f, -, hextent⟩ := h.exists_leaf hleaf he
  exact isPowerOfTwo_of_leafExtent? hextent

/-- Scalars and pointers are small, so it takes very many of them to leave the range of a word. -/
lemma HasExtents.size_lt (h : t.HasExtents fields es)
    (hleaf : ∀ f ∈ fields, f.type.leafExtent?.isSome = true) (hfew : fields.length < 2 ^ 59) :
    (compute .exact es none).size < wordRange := by
  have hsmall : ∀ e ∈ es, e.size ≤ 16 ∧ effectiveAlign none e.align ≤ 16 := by
    intro e he
    obtain ⟨f, -, hextent⟩ := h.exists_leaf hleaf he
    rw [effectiveAlign_none (h.isPowerOfTwo_of_leaf hleaf he)]
    exact leafExtent?_le hextent
  have hsize := size_compute_le (by decide) (fun e he => (hsmall e he).1)
    fun e he => (hsmall e he).2
  rw [h.length_eq] at hsize
  show _ < 2 ^ 64
  omega

/-- **Limits on alignment that never loosen a class.**  Two classes have the same fields, all of
them scalars and pointers; one has a limit on alignment, and one has none.  The limit is zero or a
power of two, or no field exceeds it.  Then both classes have a layout, and the one with the limit
places no field later, and is neither larger nor aligned to more.

A machine that counts in words has no memory for a list of 2^59 fields. -/
theorem pack_tightens (ht : t.Sane) {name name' module module' : String}
    (hd : t.decl? id = some ⟨name, module, none, some fields⟩)
    (hd' : t.decl? id' = some ⟨name', module', some most, some fields⟩)
    (hleaf : ∀ f ∈ fields, f.type.leafExtent?.isSome = true)
    (hmost : (max most 1).isPowerOfTwo ∨
      ∀ f ∈ fields, ∀ e, f.type.leafExtent? = some e → e.align ≤ most)
    (hroom : t.counting = .words → fields.length < 2 ^ 59) :
    ∃ l l', (t.layout id).2 = some l ∧ (t.layout id').2 = some l' ∧ l'.NoLooser l := by
  obtain ⟨es, hes⟩ := t.exists_hasExtents_of_leaf hleaf
  have hpow : ∀ e ∈ es, e.align.isPowerOfTwo := fun e he => hes.isPowerOfTwo_of_leaf hleaf he
  have hdvd : ∀ e ∈ es, effectiveAlign (some most) e.align ∣ e.align := by
    intro e he
    obtain ⟨f, hf, hextent⟩ := hes.exists_leaf hleaf he
    exact effectiveAlign_dvd (hpow e he) (hmost.imp_right fun h => h f hf _ hextent)
  have htight := noLooser_none hpow hdvd
  have hcount : ∀ limit, (compute .exact es limit).size ≤ (compute .exact es none).size →
      compute t.counting es limit = compute .exact es limit := by
    intro limit hle
    cases hcounting : t.counting with
    | exact => rfl
    | words =>
        have hfits := hes.size_lt hleaf (hroom hcounting)
        exact compute_words_iff.mpr (Nat.lt_of_le_of_lt hle hfits)
  have hl := HasLayout.mk hd rfl hes
  have hl' := HasLayout.mk hd' rfl hes
  rw [hcount none (Nat.le_refl _)] at hl
  rw [hcount (some most) htight.size] at hl'
  exact ⟨_, _, (layout_eq_some_iff ht).mpr hl, (layout_eq_some_iff ht).mpr hl', htight⟩

/-! ## Two classes that differ in the limit -/

/-- A class of these fields without a limit on alignment, and one with it. -/
def withLimit (fields : List FieldDecl) (most : Nat) : StructTable where
  decls := [⟨"Loose", "native.records", none, some fields⟩,
    ⟨"Packed", "native.records", some most, some fields⟩]

lemma sane_withLimit (fields : List FieldDecl) (most : Nat) : (withLimit fields most).Sane :=
  sane_of_unsearched rfl rfl

lemma decl?_loose (fields : List FieldDecl) (most : Nat) :
    (withLimit fields most).decl? ⟨0⟩ = some ⟨"Loose", "native.records", none, some fields⟩ := rfl

lemma decl?_packed (fields : List FieldDecl) (most : Nat) : (withLimit fields most).decl? ⟨1⟩
    = some ⟨"Packed", "native.records", some most, some fields⟩ := rfl

lemma layout_withLimit (h : (withLimit fields most).HasExtents fields es) :
    ((withLimit fields most).layout ⟨0⟩).2 = some (compute .words es none) ∧
      ((withLimit fields most).layout ⟨1⟩).2 = some (compute .words es (some most)) :=
  ⟨(layout_eq_some_iff (sane_withLimit _ _)).mpr (.mk (decl?_loose fields most) rfl h),
    (layout_eq_some_iff (sane_withLimit _ _)).mpr (.mk (decl?_packed fields most) rfl h)⟩

/-- A byte and a word. -/
def byteAndWord : List FieldDecl := [⟨"x", .scalar .int8, none⟩, ⟨"y", .scalar .int64, none⟩]

/-- Under a limit of two the word follows the byte sooner. -/
theorem pack_tightens_byteAndWord : ∃ l l',
    ((withLimit byteAndWord 2).layout ⟨0⟩).2 = some l ∧ l.offsetOf? "y" = some 8 ∧
      ((withLimit byteAndWord 2).layout ⟨1⟩).2 = some l' ∧ l'.offsetOf? "y" = some 2 ∧
      l'.NoLooser l := by
  obtain ⟨l, l', hl, hl', htight⟩ :=
    pack_tightens (sane_withLimit byteAndWord 2) (decl?_loose _ _) (decl?_packed _ _) (by decide)
      (.inl ⟨1, rfl⟩) fun _ => by decide
  have hy : ((withLimit byteAndWord 2).layout ⟨0⟩).2.bind (·.offsetOf? "y") = some 8 := by
    decide +kernel
  have hy' : ((withLimit byteAndWord 2).layout ⟨1⟩).2.bind (·.offsetOf? "y") = some 2 := by
    decide +kernel
  rw [hl] at hy
  rw [hl'] at hy'
  exact ⟨l, l', hl, hy, hl', hy', htight⟩

/-! ## Limits that loosen -/

/-- Two integers. -/
def twoIntegers : List FieldDecl := [⟨"x", .scalar .int32, none⟩, ⟨"y", .scalar .int32, none⟩]

/-- **A limit of three loosens two integers**: the second one starts two bytes later, and the whole
takes four bytes more. -/
theorem not_pack_tightens : ∃ l l',
    ((withLimit twoIntegers 3).layout ⟨0⟩).2 = some l ∧ l = ⟨[⟨"x", 0, 4⟩, ⟨"y", 4, 4⟩], 8, 4⟩ ∧
      ((withLimit twoIntegers 3).layout ⟨1⟩).2 = some l' ∧
      l' = ⟨[⟨"x", 0, 4⟩, ⟨"y", 6, 4⟩], 12, 3⟩ ∧ ¬l'.NoLooser l := by
  refine ⟨_, _, by decide +kernel, rfl, by decide +kernel, rfl, fun htight => ?_⟩
  exact absurd htight.size (by decide)

/-- Two of the largest scalars there are. -/
def twoLarge : List FieldDecl :=
  [⟨"x", .scalar .longDouble, none⟩, ⟨"y", .scalar .longDouble, none⟩]

/-- The room that they take. -/
def roomOfTwoLarge : List FieldExtent := [⟨"x", 16, 16⟩, ⟨"y", 16, 16⟩]

lemma isPowerOfTwo_of_dvd_sixteen {a : Nat} (h : a ∣ 16) (hlt : a < 16) : a.isPowerOfTwo := by
  have hall : ∀ a < 16, a ∣ 16 → a = 2 ^ 0 ∨ a = 2 ^ 1 ∨ a = 2 ^ 2 ∨ a = 2 ^ 3 := by decide
  rcases hall a hlt h with h | h | h | h
  · exact ⟨0, h⟩
  · exact ⟨1, h⟩
  · exact ⟨2, h⟩
  · exact ⟨3, h⟩

/-- A limit that does not divide the size of a field leaves a gap after it. -/
lemma lt_size_twoLarge (hmost : ¬(max most 1).isPowerOfTwo) (hlt : most < 16) :
    32 < (compute .exact roomOfTwoLarge (some most)).size := by
  have hx : roomOfTwoLarge[0]? = some ⟨"x", 16, 16⟩ := rfl
  have hy : roomOfTwoLarge[1]? = some ⟨"y", 16, 16⟩ := rfl
  obtain ⟨p, hp, hsize, -, -⟩ := exists_placed_compute (some most) hx
  obtain ⟨q, hq, hsize', hdvd, hinside⟩ := exists_placed_compute (some most) hy
  have horder := pairwise_compute Nat.zero_lt_one hp hq
  have halign : effectiveAlign (some most) 16 = max most 1 := by
    simp only [effectiveAlign]
    omega
  have hne : q.offset ≠ 16 := by
    intro heq
    rw [heq, halign] at hdvd
    exact hmost (isPowerOfTwo_of_dvd_sixteen hdvd (by omega))
  simp only at hsize hsize'
  omega

/-- **Every other limit loosens some class**: if it is less than the largest alignment there is, and
neither zero nor a power of two, then two of the largest scalars take more room under it. -/
theorem exists_loosened (hmost : ¬(max most 1).isPowerOfTwo) (hlt : most < 16) :
    ∃ l l', ((withLimit twoLarge most).layout ⟨0⟩).2 = some l ∧
      ((withLimit twoLarge most).layout ⟨1⟩).2 = some l' ∧ l.size < l'.size := by
  have hes : (withLimit twoLarge most).HasExtents twoLarge roomOfTwoLarge :=
    HasExtents.cons (f := ⟨"x", .scalar .longDouble, none⟩) (.scalar .longDouble)
      (.cons (f := ⟨"y", .scalar .longDouble, none⟩) (.scalar .longDouble) .nil)
  obtain ⟨hl, hl'⟩ := layout_withLimit hes
  have hloose := lt_size_twoLarge hmost hlt
  have hfits : (compute .exact roomOfTwoLarge (some most)).size < 2 * 16 * 2 + 16 := by
    refine size_compute_le (by decide) (by decide) fun f hf => ?_
    simp only [roomOfTwoLarge, List.mem_cons, List.not_mem_nil, or_false] at hf
    rcases hf with rfl | rfl <;> simp only [effectiveAlign] <;> omega
  rw [compute_words_iff.mpr (Nat.lt_trans hfits (by decide))] at hl'
  exact ⟨_, _, hl, hl', hloose⟩

end StructTable

end ForeignTypes
