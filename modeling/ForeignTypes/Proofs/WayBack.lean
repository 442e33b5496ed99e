import ForeignTypes.Proofs.Agreement

/-!
# The way back

A scalar map keeps its entries and the look-up of scalars apart, and every registration writes to
both; so in whatever order it has grown, the two are in step.  The way back is built in two passes:
the entries are learned in order, and then the canonical scalars take their places, if the look-up
says that they are mapped to their types.  Neither pass ever writes a scalar to a type that it is
not mapped to, and neither takes a type out.  So the way back answers for exactly the types that
some scalar is mapped to, pointers apart, and it answers a scalar that leads there again.  Pointers
go back layer by layer, on top of what they point to.

* `ScalarMap.Grown` — the maps that registrations lead to.
* `ScalarMap.InStep`, **`ScalarMap.Grown.inStep`** — the look-up of scalars says what the entries
  do.
* `ScalarMap.Adds` — one way back says more than another, and nothing that is wrong.
* **`ScalarMap.Grown.exists_toScalar?_iff`** — the types that have a scalar.
* `ScalarMap.innerCType?_eq`, `ScalarMap.innerValueType?_pointers` — both ways through the layers.
* **`Workspace.resolveCType_inverts`** — the value types that have a C type, and the way there again.
* `Session.Runs.grown` — the maps of a session have grown.
-/

namespace ForeignTypes

namespace ScalarMap

/-- The maps that registrations lead to, from a built-in map. -/
inductive Grown : ScalarMap → Prop
  | builtin (policy : ReversePolicy) : Grown (.builtin policy)
  | register {m : ScalarMap} (h : Grown m) (s : CScalar) (t : ValueType) : Grown (m.register s t)

variable {m : ScalarMap} {forward : Table CScalar ValueType} {s : CScalar} {t : ValueType}
  {n : CType}

/-- The way back was built after the last write. -/
lemma Grown.rebuild_eq (hm : m.Grown) : m.rebuild = m := by
  cases hm with
  | builtin policy => rfl
  | register _ s t => rfl

/-! ## Entries and look-ups -/

/-- The look-up of scalars holds what the entries hold. -/
def InStep (m : ScalarMap) : Prop := m.forward = m.entries

/-- A scalar goes in on both sides. -/
lemma InStep.push (hm : m.InStep) (s : CScalar) (t : ValueType) : (m.push s t).InStep :=
  congrArg (fun table : Table CScalar ValueType => table.put s t) hm

/-- **Entries and look-ups stay in step**, whatever is registered. -/
theorem Grown.inStep (hm : m.Grown) : m.InStep := by
  induction hm with
  | builtin policy => rfl
  | register _ s t ih => exact ih.push s t

lemma InStep.toValueType?_eq (hm : m.InStep) (s : CScalar) :
    m.toValueType? s = m.entries.get? s := by
  rw [toValueType?, hm]

/-- From one way back to another: what is new is right by the look-up of scalars, and nothing is
lost. -/
structure Adds (forward : Table CScalar ValueType) (back back' : Table ValueType CScalar) :
    Prop where
  right : ∀ t s, back'.get? t = some s → back.get? t = some s ∨ forward.get? s = some t
  kept : ∀ t, (back.get? t).isSome = true → (back'.get? t).isSome = true

variable {back back' back'' : Table ValueType CScalar}

lemma Adds.refl (back : Table ValueType CScalar) : Adds forward back back :=
  ⟨fun _ _ h => .inl h, fun _ h => h⟩

lemma Adds.trans (h : Adds forward back back') (h' : Adds forward back' back'') :
    Adds forward back back'' where
  right := fun t s hs => (h'.right t s hs).elim (h.right t s) .inr
  kept := fun t ht => h'.kept t (h.kept t ht)

lemma adds_put (h : forward.get? s = some t) : Adds forward back (back.put t s) := by
  refine ⟨fun t' s' hs' => ?_, fun t' ht' => ?_⟩
  · rw [Table.get?_put] at hs'
    split at hs'
    · next ht =>
        obtain rfl := Option.some.inj hs'
        exact .inr (ht ▸ h)
    · exact .inl hs'
  · rw [Table.get?_put]
    split
    · rfl
    · exact ht'

lemma adds_learn (h : forward.get? s = some t) : Adds forward back (learn back (s, t)) := by
  rw [learn]
  split
  · exact .refl back
  · exact adds_put h

lemma adds_prefer (back : Table ValueType CScalar) (choice : ValueType × CScalar) :
    Adds forward back (prefer forward back choice) := by
  rw [prefer]
  split
  · next h => exact adds_put h
  · exact .refl back

/-- A pass over a list adds to the way back if each of its steps does. -/
lemma adds_foldl {α : Type} {step : Table ValueType CScalar → α → Table ValueType CScalar}
    {xs : List α} (h : ∀ x ∈ xs, ∀ back, Adds forward back (step back x)) :
    Adds forward back (xs.foldl step back) := by
  induction xs generalizing back with
  | nil => exact .refl back
  | cons x xs ih =>
      have hrest : Adds forward (step back x) (xs.foldl step (step back x)) :=
        ih fun y hy => h y (List.mem_cons_of_mem x hy)
      exact (h x List.mem_cons_self back).trans hrest

lemma adds_foldl_learn {rows : List (CScalar × ValueType)} (h : ∀ row ∈ rows, row ∈ forward.rows) :
    Adds forward back (rows.foldl learn back) :=
  adds_foldl fun row hrow _ => adds_learn (Table.mem_rows.mp (h row hrow))

/-- The second pass, if there is one, adds to what the first has learned. -/
lemma adds_rebuild (m : ScalarMap) :
    Adds m.forward (m.entries.rows.foldl learn {}) m.rebuild.back := by
  obtain ⟨entries, forward, back, policy⟩ := m
  cases policy with
  | canonical => exact adds_foldl fun choice _ back => adds_prefer back choice
  | lastInserted => exact .refl _

/-- What the way back answers is mapped to the type. -/
lemma InStep.toValueType?_of_rebuild (hm : m.InStep) (h : m.rebuild.toScalar? t = some s) :
    m.toValueType? s = some t := by
  have hlearned : Adds m.forward {} (m.entries.rows.foldl learn {}) :=
    adds_foldl_learn fun row hrow => by rwa [hm]
  exact ((hlearned.trans m.adds_rebuild).right t s h).resolve_left (by simp)

/-- The way back answers for every type that a scalar is mapped to, unless it is a pointer: the
first pass learns it when it comes to that scalar, and nothing that is learned is lost. -/
lemma InStep.exists_toScalar?_of_rebuild (hm : m.InStep) (ht : t.isPointer = false)
    (h : m.toValueType? s = some t) : ∃ s', m.rebuild.toScalar? t = some s' := by
  rw [hm.toValueType?_eq] at h
  obtain ⟨earlier, later, hrows⟩ := List.append_of_mem (Table.mem_rows.mpr h)
  have hlearned : ((learn (earlier.foldl learn {}) (s, t)).get? t).isSome = true := by
    rw [learn, if_neg (by simp [ht]), Table.get?_put, if_pos rfl]
    rfl
  have hlater : Adds m.forward (learn (earlier.foldl learn {}) (s, t))
      (m.entries.rows.foldl learn {}) := by
    rw [hrows, List.foldl_append, List.foldl_cons]
    refine adds_foldl_learn fun row hrow => ?_
    rw [hm, hrows]
    exact List.mem_append_right _ (List.mem_cons_of_mem _ hrow)
  exact Option.isSome_iff_exists.mp ((hlater.trans m.adds_rebuild).kept t hlearned)

/-- **The way back leads to scalars of the type**, however the map has grown. -/
theorem Grown.toValueType?_of_toScalar? (hm : m.Grown) (h : m.toScalar? t = some s) :
    m.toValueType? s = some t := by
  rw [← hm.rebuild_eq] at h
  exact hm.inStep.toValueType?_of_rebuild h

/-- **The types that have a scalar** are those that some scalar is mapped to, pointers apart. -/
theorem Grown.exists_toScalar?_iff (hm : m.Grown) (ht : t.isPointer = false) :
    (∃ s, m.toScalar? t = some s) ↔ ∃ s, m.toValueType? s = some t := by
  constructor
  · rintro ⟨s, hs⟩
    exact ⟨s, hm.toValueType?_of_toScalar? hs⟩
  · rintro ⟨s, hs⟩
    have hback := hm.inStep.exists_toScalar?_of_rebuild ht hs
    rwa [hm.rebuild_eq] at hback

/-! ## Through the layers of pointer -/

lemma isPointer_peel : ∀ t : ValueType, t.peel.isPointer = false
  | .pointer t => isPointer_peel t
  | .unit | .bool | .int _ _ | .float32 | .float64 | .longDouble | .address | .handle | .foreign
  | .record _ | .function _ => rfl

/-- The way back of a type is that of its innermost pointee, with as many layers around it. -/
lemma innerCType?_eq (m : ScalarMap) : ∀ t : ValueType,
    m.innerCType? t = (m.toScalar? t.peel).map fun s => .pointers t.depth (.scalar s)
  | .pointer t => by
      rw [innerCType?, innerCType?_eq m t, Option.map_map]
      rfl
  | .unit | .bool | .int _ _ | .float32 | .float64 | .longDouble | .address | .handle | .foreign
  | .record _ | .function _ => rfl

/-- Layers around a C type go across as layers around its value type. -/
lemma innerValueType?_pointers (m : ScalarMap) (n : CType) : ∀ depth,
    m.innerValueType? (n.pointers depth)
      = (m.innerValueType? n).map (ValueType.pointers depth)
  | 0 => by simp [CType.pointers, ValueType.pointers]
  | depth + 1 => by
      rw [CType.pointers, innerValueType?, innerValueType?_pointers m n depth, Option.map_map]
      rfl

lemma innerCType?_eq_some_iff : m.innerCType? t = some n ↔
    ∃ s, m.toScalar? t.peel = some s ∧ n = .pointers t.depth (.scalar s) := by
  rw [innerCType?_eq, Option.map_eq_some_iff]
  simp only [eq_comm (a := n)]

lemma valueTypeOf?_of_ne_void (hn : n ≠ .void) : m.valueTypeOf? n = m.innerValueType? n := by
  cases n with
  | void => exact absurd rfl hn
  | scalar s | pointer n | struct id => rfl

lemma cTypeOf?_of_ne_unit (ht : t ≠ .unit) : m.cTypeOf? t = m.innerCType? t := by
  cases t with
  | unit => exact absurd rfl ht
  | _ => rfl

/-- No value type but the unit goes back to `void`. -/
lemma ne_void_of_innerCType? (h : m.innerCType? t = some n) : n ≠ .void := by
  obtain ⟨s, -, rfl⟩ := innerCType?_eq_some_iff.mp h
  cases t.depth with
  | zero => simp [CType.pointers]
  | succ depth => simp [CType.pointers]

/-- **The way back is a way there again**, whatever the map holds. -/
theorem Grown.valueTypeOf?_of_cTypeOf? (hm : m.Grown) (h : m.cTypeOf? t = some n) :
    m.valueTypeOf? n = some t := by
  by_cases ht : t = .unit
  · subst ht
    obtain rfl := Option.some.inj h
    rfl
  · rw [cTypeOf?_of_ne_unit ht] at h
    rw [valueTypeOf?_of_ne_void (ne_void_of_innerCType? h)]
    obtain ⟨s, hs, rfl⟩ := innerCType?_eq_some_iff.mp h
    calc m.innerValueType? (.pointers t.depth (.scalar s))
        = (m.toValueType? s).map (ValueType.pointers t.depth) :=
          m.innerValueType?_pointers (.scalar s) t.depth
      _ = some (.pointers t.depth t.peel) := by
          rw [hm.toValueType?_of_toScalar? hs]
          rfl
      _ = some t := by rw [ValueType.pointers_depth_peel]

/-- **The types that have a way back**: no value at all, and layers around a type of some scalar. -/
theorem Grown.exists_cTypeOf?_iff (hm : m.Grown) :
    (∃ n, m.cTypeOf? t = some n) ↔ t = .unit ∨ ∃ s, m.toValueType? s = some t.peel := by
  by_cases ht : t = .unit
  · exact iff_of_true ⟨.void, by rw [ht]; rfl⟩ (.inl ht)
  · rw [cTypeOf?_of_ne_unit ht, or_iff_right ht, ← hm.exists_toScalar?_iff (isPointer_peel t)]
    simp only [innerCType?_eq_some_iff]
    exact ⟨fun ⟨_, s, hs, _⟩ => ⟨s, hs⟩, fun ⟨s, hs⟩ => ⟨_, s, hs, rfl⟩⟩

end ScalarMap

/-! ## In a context -/

namespace Workspace

variable {w : Workspace} {t : ValueType} {n : CType}

lemma resolveValueType_eq_ok_iff :
    w.resolveValueType t = .ok n ↔ w.context.scalars.cTypeOf? t = some n := by
  rw [resolveValueType]
  cases w.context.scalars.cTypeOf? t with
  | none => simp
  | some n' => simp

lemma resolveCType_eq_ok_iff :
    w.resolveCType n = .ok t ↔ w.context.scalars.valueTypeOf? n = some t := by
  rw [resolveCType, FunctionPointer.resolve]
  cases w.context.scalars.valueTypeOf? n with
  | none => simp
  | some t' => simp

/-- The C type of a value type leads back to it. -/
lemma resolveCType_of_resolveValueType (hw : w.context.scalars.Grown)
    (h : w.resolveValueType t = .ok n) : w.resolveCType n = .ok t :=
  resolveCType_eq_ok_iff.mpr (hw.valueTypeOf?_of_cTypeOf? (resolveValueType_eq_ok_iff.mp h))

/-- **There again after the way back.**  Whatever was registered in a context,

* a value type has a C type exactly if it is no value at all, or layers of pointer around a type
  that some scalar is mapped to;
* the C type leads back to the value type, so that no two value types have the same. -/
theorem resolveCType_inverts (hw : w.context.scalars.Grown) (t : ValueType) :
    ((∃ n, w.resolveValueType t = .ok n) ↔
      t = .unit ∨ ∃ s, w.context.scalars.toValueType? s = some t.peel) ∧
    (∀ n, w.resolveValueType t = .ok n → w.resolveCType n = .ok t) ∧
    ∀ n t', w.resolveValueType t = .ok n → w.resolveValueType t' = .ok n → t = t' := by
  refine ⟨?_, fun n h => resolveCType_of_resolveValueType hw h, fun n t' h h' => ?_⟩
  · simp only [resolveValueType_eq_ok_iff]
    exact hw.exists_cTypeOf?_iff
  · have hleft := resolveCType_of_resolveValueType hw h
    have hright := resolveCType_of_resolveValueType hw h'
    exact Except.ok.inj (hleft.symm.trans hright)

/-- A context in which `int32` stands for no value at all. -/
def remapped : Workspace := mapScalar ⟨{}, .new ⟨0⟩ {}⟩ .int32 .unit

/-- A pointer to no value at all has a C type there, which leads back to it. -/
theorem resolveCType_inverts_remapped :
    (∃ n, remapped.resolveValueType (.pointer .unit) = .ok n) ∧
      remapped.resolveCType (.pointer (.scalar .int32)) = .ok (.pointer .unit) := by
  have hgrown : remapped.context.scalars.Grown := (ScalarMap.Grown.builtin _).register _ _
  obtain ⟨hexists, hback, -⟩ := resolveCType_inverts hgrown (.pointer .unit)
  exact ⟨hexists.mpr (.inr ⟨.int32, rfl⟩), hback _ rfl⟩

/-! ### The maps of a session -/

/-- Along every course, a map changes by registrations alone. -/
theorem Course.grown {w w' : Workspace} {account : List Happening} {r : Except Error Unit}
    (h : Course w account w' r) (hw : w.context.scalars.Grown) : w'.context.scalars.Grown := by
  induction h with
  | done w | refused w _ | counted w m run | unsupported _ | ready _ => exact hw
  | andThen _ _ ih ih' => exact ih' (ih hw)
  | forgiven _ ih => exact ih hw
  | noted _ _ _ ih => exact ih hw
  | mapped w s t => exact hw.register s t
  | provided w m =>
      rw [(leavesTyping_provideModule w m).scalars]
      exact hw
  | derived w id =>
      rw [scalars_deriveRecord]
      exact hw
  | @ran w w' path support p account r _ _ ih =>
      rw [(leavesTyping_settle w' (familyOf path) r).scalars]
      exact ih hw

end Workspace

/-- **Every context of a session** has a map that registrations led to. -/
theorem Session.Runs.grown {s : Session} {history : List Performed} (hruns : start.Runs history s)
    {name : String} {c : Context} (hc : s.contexts.get? name = some c) : c.scalars.Grown := by
  refine hruns.context_induction (P := fun _ c _ => c.scalars.Grown) ?_ ?_ ?_ hc
  · exact fun _ _ options => .builtin options.reversePolicy
  · intro process process' c c' hs _ _ _ heq hgrown
    rw [heq]
    exact hgrown
  · intro w w' account hs r _ hcourse hgrown
    exact hcourse.grown hgrown

end ForeignTypes
