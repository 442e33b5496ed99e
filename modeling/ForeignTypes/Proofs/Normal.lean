import ForeignTypes.Proofs.WayBack

/-!
# C types in normal form

To go from a C type to its value type and back is to *normalise* it: of the many C types with one
value type, one is taken.  Under a built-in map this always works for a type that goes across at all,
since the map holds a scalar for what its pointer scalars point to; and no type changes its room,
since every scalar takes the room of its value type.

* `Workspace.normalise` — there and back.
* `ScalarMap.exists_valueTypeOf?_iff` — the C types that go across.
* `ScalarMap.ClosedDown`, `ScalarMap.closedDown_builtin` — what pointer scalars point to is mapped.
* `ScalarMap.KeepsSizesIn.extentOf` — what goes across takes the same room on both sides.
* **`Workspace.normalise_builtin`** — normal forms under a built-in map.
-/

namespace ForeignTypes

/-- Layers around a type leave its innermost pointee. -/
lemma ValueType.peel_pointers (t : ValueType) : ∀ depth, (pointers depth t).peel = t.peel
  | 0 => rfl
  | depth + 1 => peel_pointers t depth

namespace ScalarMap

variable {m : ScalarMap} {n : CType} {t : ValueType}

/-! ## What goes across -/

/-- The value type of a C type is that of its innermost pointee, with as many layers around it. -/
lemma innerValueType?_eq (m : ScalarMap) (n : CType) :
    m.innerValueType? n = (m.innerValueType? n.peel).map (ValueType.pointers n.depth) := by
  rw [← m.innerValueType?_pointers n.peel n.depth, CType.pointers_depth_peel]

lemma innerValueType?_eq_some_iff : m.innerValueType? n = some t ↔
    ∃ s v, n.peel = .scalar s ∧ m.toValueType? s = some v ∧ t = .pointers n.depth v := by
  rw [innerValueType?_eq, Option.map_eq_some_iff]
  cases hpeel : n.peel with
  | void => simp [innerValueType?]
  | scalar s => simp [innerValueType?, eq_comm]
  | pointer n' => exact absurd hpeel (n.peel_ne_pointer n')
  | struct id => simp [innerValueType?]

/-- **The C types that go across**: `void` itself, and layers around a scalar that is mapped. -/
theorem exists_valueTypeOf?_iff : (∃ t, m.valueTypeOf? n = some t) ↔
    n = .void ∨ ∃ s, n.peel = .scalar s ∧ (m.toValueType? s).isSome = true := by
  by_cases hn : n = .void
  · exact iff_of_true ⟨.unit, by rw [hn]; rfl⟩ (.inl hn)
  · rw [valueTypeOf?_of_ne_void hn, or_iff_right hn]
    simp only [innerValueType?_eq_some_iff, Option.isSome_iff_exists]
    constructor
    · rintro ⟨t, s, v, hpeel, hv, -⟩
      exact ⟨s, hpeel, v, hv⟩
    · rintro ⟨s, hpeel, v, hv⟩
      exact ⟨_, s, v, hpeel, hv, rfl⟩

/-! ## The way back from there -/

/-- Where a scalar is mapped to a pointer, some scalar is mapped to what the pointer leads to. -/
def ClosedDown (m : ScalarMap) : Prop :=
  ∀ s v, m.toValueType? s = some v → ∃ s', m.toValueType? s' = some v.peel

lemma closedDown_builtin (policy : ReversePolicy) : (builtin policy).ClosedDown := by
  intro s v hv
  cases v with
  | pointer v =>
      -- the two pointer scalars are the strings, and either kind of character is mapped
      have hstring : s = .charPtr ∧ v = .int true .w8 ∨ s = .wcharPtr ∧ v = .int false .w32 := by
        rw [toValueType?_builtin] at hv
        cases s with
        | charPtr => exact .inl ⟨rfl, (ValueType.pointer.inj (Option.some.inj hv)).symm⟩
        | wcharPtr => exact .inr ⟨rfl, (ValueType.pointer.inj (Option.some.inj hv)).symm⟩
        | _ => exact absurd hv (by simp [builtinType?, ValueType.integer?, CScalar.bytes])
      rcases hstring with ⟨-, rfl⟩ | ⟨-, rfl⟩
      · exact ⟨.char, rfl⟩
      · exact ⟨.wchar, rfl⟩
  | _ => exact ⟨s, hv⟩

/-- What goes across comes back. -/
lemma Grown.exists_cTypeOf? (hm : m.Grown) (hclosed : m.ClosedDown)
    (h : m.valueTypeOf? n = some t) : ∃ n', m.cTypeOf? t = some n' := by
  rw [hm.exists_cTypeOf?_iff]
  by_cases hn : n = .void
  · subst hn
    exact .inl (Option.some.inj h).symm
  · rw [valueTypeOf?_of_ne_void hn] at h
    obtain ⟨s, v, -, hv, rfl⟩ := innerValueType?_eq_some_iff.mp h
    rw [ValueType.peel_pointers]
    exact .inr (hclosed s v hv)

/-! ## Room -/

/-- What goes across takes the same room on both sides, unless it is `void`. -/
lemma KeepsSizesIn.extentOf {p : Process} (hm : m.KeepsSizesIn p.types) (hn : n ≠ .void)
    (h : m.valueTypeOf? n = some t) :
    ∃ e, (p.extentOf n).2 = some e ∧ p.types.extentOf t = some e := by
  rw [valueTypeOf?_of_ne_void hn] at h
  cases n with
  | void => exact absurd rfl hn
  | scalar s => exact ⟨s.extent, rfl, hm s t h⟩
  | pointer n =>
      obtain ⟨t, -, rfl⟩ := Option.map_eq_some_iff.mp h
      exact ⟨.pointer, rfl, rfl⟩
  | struct id => exact absurd h (by simp [innerValueType?])

end ScalarMap

namespace Workspace

variable {w : Workspace} {n n' : CType} {t : ValueType}

/-! ## Normal forms -/

/-- The C type that is taken for the value type of a C type. -/
def normalise (w : Workspace) (n : CType) : Except Error CType := do
  let t ← w.resolveCType n
  w.resolveValueType t

lemma normalise_eq (h : w.resolveCType n = .ok t) : w.normalise n = w.resolveValueType t := by
  rw [normalise, h]
  rfl

/-- A normal form takes the room of the type, where the map of the context keeps sizes. -/
lemma extentOf_normal (hm : w.context.scalars.KeepsSizesIn w.process.types)
    (h : w.resolveCType n = .ok t) (hback : w.resolveValueType t = .ok n')
    (hagain : w.resolveCType n' = .ok t) :
    (w.process.extentOf n').2 = (w.process.extentOf n).2 := by
  by_cases hn : n = .void
  · subst hn
    obtain rfl : .unit = t := Except.ok.inj h
    obtain rfl : .void = n' := Except.ok.inj hback
    rfl
  · obtain ⟨e, he, ht⟩ := hm.extentOf hn (resolveCType_eq_ok_iff.mp h)
    have hunit : t ≠ .unit := by
      rintro rfl
      exact absurd ht (by simp [TypeStore.extentOf, ValueType.extent?])
    have hinner := resolveValueType_eq_ok_iff.mp hback
    rw [ScalarMap.cTypeOf?_of_ne_unit hunit] at hinner
    obtain ⟨e', he', ht'⟩ := hm.extentOf (ScalarMap.ne_void_of_innerCType? hinner)
      (resolveCType_eq_ok_iff.mp hagain)
    rw [he, he', ← ht, ← ht']

/-- **Normal forms under a built-in map**, of either policy.

* A C type goes across exactly if it is `void`, or layers of pointer around a scalar that is mapped;
  otherwise the error names it as a whole.
* A type that goes across has a normal form, with the same value type and of the same room, which is
  the room of the value type as well, unless the type is `void`.
* A normal form is its own normal form. -/
theorem normalise_builtin {policy : ReversePolicy} (hw : w.context.scalars = .builtin policy)
    (n : CType) :
    ((∃ t, w.resolveCType n = .ok t) ↔
      n = .void ∨ ∃ s, n.peel = .scalar s ∧ (w.context.scalars.toValueType? s).isSome = true) ∧
    (∀ e, w.resolveCType n = .error e → e = .unsupportedCType (w.process.structs.textOf n)) ∧
    ∀ t, w.resolveCType n = .ok t → ∃ n', w.resolveValueType t = .ok n' ∧
      w.resolveCType n' = .ok t ∧ (w.process.extentOf n').2 = (w.process.extentOf n).2 ∧
      (n ≠ .void → ∃ e, (w.process.extentOf n).2 = some e ∧ w.process.types.extentOf t = some e) ∧
      w.normalise n = .ok n' ∧ w.normalise n' = .ok n' := by
  have hgrown : w.context.scalars.Grown := hw ▸ .builtin policy
  have hclosed : w.context.scalars.ClosedDown := hw ▸ ScalarMap.closedDown_builtin policy
  have hkeeps : w.context.scalars.KeepsSizesIn w.process.types :=
    hw ▸ (ScalarMap.keepsSizes_builtin policy).keepsSizesIn _
  refine ⟨?_, fun e he => ?_, fun t h => ?_⟩
  · simp only [resolveCType_eq_ok_iff]
    exact ScalarMap.exists_valueTypeOf?_iff
  · rw [resolveCType, FunctionPointer.resolve] at he
    split at he
    · exact absurd he (by simp)
    · exact (Except.error.inj he).symm
  · obtain ⟨n', hn'⟩ := hgrown.exists_cTypeOf? hclosed (resolveCType_eq_ok_iff.mp h)
    have hback : w.resolveValueType t = .ok n' := resolveValueType_eq_ok_iff.mpr hn'
    have hagain := resolveCType_of_resolveValueType hgrown hback
    refine ⟨n', hback, hagain, extentOf_normal hkeeps h hback hagain, fun hn => ?_, ?_, ?_⟩
    · exact hkeeps.extentOf hn (resolveCType_eq_ok_iff.mp h)
    · rw [normalise_eq h, hback]
    · rw [normalise_eq hagain, hback]

/-- A pointer to a string is a pointer to a pointer to a character, and that is its normal form. -/
theorem normalise_builtin_string :
    let w : Workspace := ⟨{}, .new ⟨0⟩ { reversePolicy := .lastInserted }⟩
    w.normalise (.pointer (.scalar .charPtr)) = .ok (.pointer (.pointer (.scalar .char))) ∧
      w.normalise (.pointer (.pointer (.scalar .char)))
        = .ok (.pointer (.pointer (.scalar .char))) := by
  intro w
  have hw : w.context.scalars = .builtin .lastInserted := rfl
  obtain ⟨-, -, hnormal⟩ := normalise_builtin hw (.pointer (.scalar .charPtr))
  obtain ⟨n', hback, -, -, -, hthere, hagain⟩ := hnormal (.pointer (.pointer (.int true .w8))) rfl
  obtain rfl : .pointer (.pointer (.scalar .char)) = n' := Except.ok.inj hback
  exact ⟨hthere, hagain⟩

end Workspace

end ForeignTypes
