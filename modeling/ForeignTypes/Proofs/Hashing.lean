import ForeignTypes.ScalarMap
import Mathlib.Data.List.Induction
import Mathlib.Data.Set.Function

/-!
# Types as keys of hash tables

Two types are compared by their structure, and where a record or callable comes up by where it is
kept.  A hash table is fed the words of a type, which follow the same structure.  Both say the same:
the words of a type can be read in one way only, so that **two types compare equal exactly if their
words are equal**.  Then the comparison is an equivalence, since it compares words, and a hash of
the words respects it; and this is all that a hash table asks for to work as a map.

Where a record or callable is kept tells it from every other that is still there.  So among types
that are still there the comparison is equality, and the way back of a scalar map that is kept in a
hash table is the one that is kept in a table.

* **`ValueType.same_iff_words`** — the comparison and the words.
* `ValueType.id?`, `ValueType.Lives` — the record or callable in a type, and whether it is there.
* `ValueType.same_iff_eq` — the comparison among types that are there.
* `HashKey`, `get?_cacheAfter` — types as keys, and a hash table after some writes.
* `ScalarMap.hashedBack`, `ScalarMap.mirrors_hashedBack` — the way back in a hash table.
* **`ValueType.keys_faithful`** — all of this together.
-/

namespace ForeignTypes

namespace ValueType

variable {addressOf : TypeId → Nat} {a b t : ValueType}

/-! ## Comparison and words -/

/-- **Two types compare equal exactly if they have the same words.** -/
theorem same_iff_words (a b : ValueType) :
    same addressOf a b = true ↔ a.words addressOf = b.words addressOf := by
  induction a generalizing b with
  | pointer a ih =>
      cases b with
      | pointer b => simp [same, words, kind, ih]
      | int signed width => cases signed <;> cases width <;> simp [same, words, kind]
      | _ => simp [same, words, kind]
  | record id | function id =>
      cases b with
      | int signed width => cases signed <;> cases width <;> simp [same, words, kind]
      | _ => simp [same, words, kind]
  | int signed width =>
      cases b with
      | pointer b => cases signed <;> cases width <;> simp [same, words, kind]
      | record id | function id => cases signed <;> cases width <;> simp [same, words, kind]
      | _ => simp [same, words]
  | unit | bool | float32 | float64 | longDouble | address | handle | foreign =>
      cases b with
      | pointer b => simp [same, words, kind]
      | record id | function id => simp [same, words, kind]
      | _ => simp [same, words]

/-- The comparison compares words, so that it is an equivalence. -/
lemma equivalence_same (addressOf : TypeId → Nat) :
    Equivalence fun a b => same addressOf a b = true where
  refl := fun a => (same_iff_words a a).mpr rfl
  symm := fun h => (same_iff_words _ _).mpr ((same_iff_words _ _).mp h).symm
  trans := fun h h' =>
    (same_iff_words _ _).mpr (((same_iff_words _ _).mp h).trans ((same_iff_words _ _).mp h'))

/-! ## Types that are known by their kind -/

/-- The type of a kind, where there is only one. -/
def ofKind? (kind : Nat) : Option ValueType :=
  [some unit, some bool,
    some (int true .w8), some (int true .w16), some (int true .w32), some (int true .w64),
    some (int false .w8), some (int false .w16), some (int false .w32), some (int false .w64),
    some float32, some float64, some longDouble, some address, some handle, none,
    some foreign][kind]?.join

/-- A type is the one of its kind, unless there are more of the kind. -/
lemma ofKind?_kind (t : ValueType) : ofKind? t.kind =
    match t with
    | pointer _ | record _ | function _ => none
    | t => some t := by
  cases t with
  | int signed width => cases signed <;> cases width <;> rfl
  | _ => rfl

lemma eq_of_kind (ha : ofKind? a.kind = some a) (h : a.kind = b.kind) : a = b := by
  have hb := ofKind?_kind b
  rw [← h, ha] at hb
  split at hb
  · exact absurd hb (by simp)
  · exact absurd hb (by simp)
  · exact absurd hb (by simp)
  · exact Option.some.inj hb

/-! ## What is still there -/

/-- The record or callable in a type, under its layers of pointer. -/
def id? : ValueType → Option TypeId
  | pointer t => t.id?
  | record id | function id => some id
  | _ => none

/-- The record or callable in a type, if there is one, is among those that are still there. -/
def Lives (live : Set TypeId) (t : ValueType) : Prop := ∀ id, t.id? = some id → id ∈ live

variable {live : Set TypeId}

/-- **Among types that are still there the comparison is equality**, where no two records or
callables are kept in one place. -/
theorem same_iff_eq (hlive : live.InjOn addressOf) (ha : a.Lives live) (hb : b.Lives live) :
    same addressOf a b = true ↔ a = b := by
  refine ⟨fun h => ?_, fun h => h ▸ (equivalence_same addressOf).refl a⟩
  induction a generalizing b with
  | pointer a ih =>
      cases b with
      | pointer b => exact congrArg pointer (ih ha hb h)
      | _ => exact absurd h (by simp [same])
  | record id =>
      cases b with
      | record id' =>
          exact congrArg record (hlive (ha id rfl) (hb id' rfl) (by simpa [same] using h))
      | _ => exact absurd h (by simp [same])
  | function id =>
      cases b with
      | function id' =>
          exact congrArg function (hlive (ha id rfl) (hb id' rfl) (by simpa [same] using h))
      | _ => exact absurd h (by simp [same])
  | int signed width => exact eq_of_kind (ofKind?_kind _) (beq_iff_eq.mp h)
  | unit | bool | float32 | float64 | longDouble | address | handle | foreign =>
      exact eq_of_kind (ofKind?_kind _) (beq_iff_eq.mp h)

end ValueType

/-! ## Hash tables -/

/-- A value type as the key of a hash table: keys are compared as types are, and the hash of a key
is any function of the words of its type. -/
structure HashKey (addressOf : TypeId → Nat) (mix : List Nat → UInt64) where
  type : ValueType

section Cache

variable {addressOf : TypeId → Nat} {mix : List Nat → UInt64}

instance : BEq (HashKey addressOf mix) := ⟨fun a b => a.type.same addressOf b.type⟩

instance : Hashable (HashKey addressOf mix) := ⟨fun a => mix (a.type.words addressOf)⟩

instance : EquivBEq (HashKey addressOf mix) where
  rfl := (ValueType.equivalence_same addressOf).refl _
  symm := (ValueType.equivalence_same addressOf).symm
  trans := (ValueType.equivalence_same addressOf).trans

/-- The hash looks at words only, and keys that compare equal have the same. -/
instance : LawfulHashable (HashKey addressOf mix) where
  hash_eq a b h := congrArg mix ((ValueType.same_iff_words a.type b.type).mp h)

/-- A hash table after some writes: each puts a value under a type, or takes the type out. -/
def cacheAfter {β : Type} (addressOf : TypeId → Nat) (mix : List Nat → UInt64)
    (writes : List (ValueType × Option β)) : Std.HashMap (HashKey addressOf mix) β :=
  writes.foldl (fun cache write =>
    match write.2 with
    | some b => cache.insert ⟨write.1⟩ b
    | none => cache.erase ⟨write.1⟩) ∅

/-- A write to a hash table: it is answered for every type that compares equal. -/
lemma get?_write {β : Type} (cache : Std.HashMap (HashKey addressOf mix) β) (t' : ValueType)
    (b : Option β) (t : ValueType) :
    (match b with
      | some b => cache.insert ⟨t'⟩ b
      | none => cache.erase ⟨t'⟩).get? ⟨t⟩
      = if t'.same addressOf t then b else cache.get? ⟨t⟩ := by
  cases b with
  | some b => exact Std.HashMap.get?_insert
  | none => exact Std.HashMap.get?_erase

/-- **A hash table answers the last write** for a type that compares equal. -/
theorem get?_cacheAfter {β : Type} (writes : List (ValueType × Option β)) (t : ValueType) :
    (cacheAfter addressOf mix writes).get? ⟨t⟩
      = (writes.reverse.find? (·.1.same addressOf t)).bind (·.2) := by
  induction writes using List.reverseRecOn with
  | nil => exact Std.HashMap.getElem?_empty
  | append_singleton writes write ih =>
      rw [cacheAfter, List.foldl_append, ← cacheAfter, List.foldl_cons, List.foldl_nil,
        get?_write, ih, List.reverse_concat, List.find?_cons]
      cases write.1.same addressOf t with
      | true => rfl
      | false => rfl

end Cache

/-! ## The way back in a hash table -/

namespace ScalarMap

variable {addressOf : TypeId → Nat} {mix : List Nat → UInt64} {live : Set TypeId}

/-- One entry goes into the way back, unless it stands for a pointer. -/
def hashedLearn (back : Std.HashMap (HashKey addressOf mix) CScalar) (entry : CScalar × ValueType) :
    Std.HashMap (HashKey addressOf mix) CScalar :=
  if entry.2.isPointer then back else back.insert ⟨entry.2⟩ entry.1

/-- A canonical scalar takes its place in the way back if its type compares equal to that of the
choice. -/
def hashedPrefer (forward : Table CScalar ValueType)
    (back : Std.HashMap (HashKey addressOf mix) CScalar) (choice : ValueType × CScalar) :
    Std.HashMap (HashKey addressOf mix) CScalar :=
  if (forward.get? choice.2).any (·.same addressOf choice.1) then back.insert ⟨choice.1⟩ choice.2
  else back

/-- The way back of a map, built as `rebuild` does it, but in a hash table. -/
def hashedBack (addressOf : TypeId → Nat) (mix : List Nat → UInt64) (m : ScalarMap) :
    Std.HashMap (HashKey addressOf mix) CScalar :=
  let learned := m.entries.rows.foldl hashedLearn ∅
  match m.policy with
  | .canonical => canonical.foldl (hashedPrefer m.forward) learned
  | .lastInserted => learned

/-- A hash table answers as a table does, for types that are still there. -/
def Mirrors (live : Set TypeId) (hashed : Std.HashMap (HashKey addressOf mix) CScalar)
    (back : Table ValueType CScalar) : Prop :=
  ∀ t : ValueType, t.Lives live → hashed.get? ⟨t⟩ = back.get? t

variable {hashed : Std.HashMap (HashKey addressOf mix) CScalar} {back : Table ValueType CScalar}

/-- A type that is still there is written to both. -/
lemma Mirrors.insert (hlive : live.InjOn addressOf) (h : Mirrors live hashed back) {t : ValueType}
    (ht : t.Lives live) (s : CScalar) : Mirrors live (hashed.insert ⟨t⟩ s) (back.put t s) := by
  intro t' ht'
  rw [Table.get?_put, ← h t' ht']
  refine Std.HashMap.get?_insert.trans ?_
  exact if_congr (ValueType.same_iff_eq hlive ht ht') rfl rfl

/-- Two passes over one list mirror each other if their steps do. -/
lemma Mirrors.foldl {α : Type}
    {step : Std.HashMap (HashKey addressOf mix) CScalar → α →
      Std.HashMap (HashKey addressOf mix) CScalar}
    {step' : Table ValueType CScalar → α → Table ValueType CScalar} {xs : List α}
    (h : Mirrors live hashed back)
    (hstep : ∀ x ∈ xs, ∀ hashed back, Mirrors live hashed back →
      Mirrors live (step hashed x) (step' back x)) :
    Mirrors live (xs.foldl step hashed) (xs.foldl step' back) := by
  induction xs generalizing hashed back with
  | nil => exact h
  | cons x xs ih =>
      exact ih (hstep x List.mem_cons_self _ _ h) fun y hy => hstep y (List.mem_cons_of_mem x hy)

lemma Mirrors.learn (hlive : live.InjOn addressOf) (h : Mirrors live hashed back)
    {entry : CScalar × ValueType} (hentry : entry.2.Lives live) :
    Mirrors live (hashedLearn hashed entry) (learn back entry) := by
  rw [hashedLearn, ScalarMap.learn]
  split
  · exact h
  · exact h.insert hlive hentry entry.1

/-- No canonical choice is for a record or callable. -/
lemma lives_of_mem_canonical {choice : ValueType × CScalar} (h : choice ∈ canonical) :
    choice.1.Lives live := by
  have hnone : ∀ choice ∈ canonical, choice.1.id? = none := by decide
  intro id hid
  rw [hnone choice h] at hid
  exact absurd hid (by simp)

lemma Mirrors.prefer (hlive : live.InjOn addressOf) (h : Mirrors live hashed back)
    {forward : Table CScalar ValueType} (hforward : ∀ row ∈ forward.rows, row.2.Lives live)
    {choice : ValueType × CScalar} (hchoice : choice ∈ canonical) :
    Mirrors live (hashedPrefer forward hashed choice) (prefer forward back choice) := by
  have hthere : choice.1.Lives live := lives_of_mem_canonical hchoice
  have hiff : (forward.get? choice.2).any (·.same addressOf choice.1) = true ↔
      forward.get? choice.2 = some choice.1 := by
    cases hget : forward.get? choice.2 with
    | none => simp
    | some t =>
        have ht : t.Lives live := hforward _ (Table.mem_rows.mpr hget)
        rw [Option.any_some, ValueType.same_iff_eq hlive ht hthere, Option.some.injEq]
  rw [hashedPrefer, ScalarMap.prefer]
  by_cases hget : forward.get? choice.2 = some choice.1
  · rw [if_pos (hiff.mpr hget), if_pos hget]
    exact h.insert hlive hthere choice.2
  · rw [if_neg fun hany => hget (hiff.mp hany), if_neg hget]
    exact h

/-- **The way back in a hash table** is the way back of the map, for types that are still there. -/
theorem mirrors_hashedBack (hlive : live.InjOn addressOf) {m : ScalarMap}
    (hentries : ∀ row ∈ m.entries.rows, row.2.Lives live)
    (hforward : ∀ row ∈ m.forward.rows, row.2.Lives live) :
    Mirrors live (hashedBack addressOf mix m) m.rebuild.back := by
  have hempty : Mirrors live (∅ : Std.HashMap (HashKey addressOf mix) CScalar) {} :=
    fun t _ => Std.HashMap.getElem?_empty
  have hlearned : Mirrors live
      (m.entries.rows.foldl hashedLearn (∅ : Std.HashMap (HashKey addressOf mix) CScalar))
      (m.entries.rows.foldl learn {}) :=
    hempty.foldl fun row hrow _ _ h => h.learn hlive (hentries row hrow)
  obtain ⟨entries, forward, back, policy⟩ := m
  cases policy with
  | lastInserted => exact hlearned
  | canonical => exact hlearned.foldl fun choice hchoice _ _ h => h.prefer hlive hforward hchoice

end ScalarMap

/-! ## Types as keys -/

namespace ValueType

/-- **Types are keys that compare as their words do.**  Wherever records and callables are kept,

* the comparison is an equivalence, and two types compare equal exactly if they have the same words;
* among records and callables no two of which are kept in one place, it is equality;
* for every hash of the words, a hash table keyed by types answers the last write for a type that
  compares equal to the one that is asked for, and the way back of a scalar map that is kept in a
  hash table answers as the map does. -/
theorem keys_faithful (addressOf : TypeId → Nat) :
    (Equivalence fun a b => same addressOf a b = true) ∧
    (∀ a b, same addressOf a b = true ↔ a.words addressOf = b.words addressOf) ∧
    (∀ live : Set TypeId, live.InjOn addressOf → ∀ a b, a.Lives live → b.Lives live →
      (same addressOf a b = true ↔ a = b)) ∧
    ∀ mix : List Nat → UInt64,
      (∀ (β : Type) (writes : List (ValueType × Option β)) (t : ValueType),
        (cacheAfter addressOf mix writes).get? ⟨t⟩
          = (writes.reverse.find? (·.1.same addressOf t)).bind (·.2)) ∧
      ∀ (live : Set TypeId) (m : ScalarMap), live.InjOn addressOf →
        (∀ row ∈ m.entries.rows, row.2.Lives live) → (∀ row ∈ m.forward.rows, row.2.Lives live) →
        ∀ t, t.Lives live →
          (ScalarMap.hashedBack addressOf mix m).get? ⟨t⟩ = m.rebuild.toScalar? t :=
  ⟨equivalence_same addressOf, same_iff_words, fun _ hlive _ _ => same_iff_eq hlive,
    fun _ => ⟨fun _ => get?_cacheAfter, fun _ _ hlive hentries hforward =>
      ScalarMap.mirrors_hashedBack hlive hentries hforward⟩⟩

/-- A map in which two scalars are mapped to two records. -/
def twoRecords : ScalarMap :=
  ((ScalarMap.builtin .canonical).register .hresult (.record ⟨0⟩)).register .object (.record ⟨1⟩)

/-- In a hash table, with the records kept side by side and a hash that is the same for all types,
the way back of either record is its own scalar. -/
theorem keys_faithful_twoRecords :
    (ScalarMap.hashedBack (fun id => 4096 + 64 * id.index) (fun _ => 7) twoRecords).get?
      ⟨.record ⟨0⟩⟩ = some .hresult ∧
    (ScalarMap.hashedBack (fun id => 4096 + 64 * id.index) (fun _ => 7) twoRecords).get?
      ⟨.record ⟨1⟩⟩ = some .object ∧
    same (fun id => 4096 + 64 * id.index) (.record ⟨0⟩) (.record ⟨1⟩) = false := by
  have hinj : (Set.univ : Set TypeId).InjOn fun id => 4096 + 64 * id.index := by
    rintro ⟨i⟩ - ⟨j⟩ - h
    exact congrArg TypeId.mk (by simp only at h; omega)
  have hlives : ∀ t : ValueType, t.Lives Set.univ := fun _ _ _ => Set.mem_univ _
  obtain ⟨-, -, hequal, hkeys⟩ := keys_faithful fun id => 4096 + 64 * id.index
  have hback := (hkeys fun _ => 7).2 Set.univ twoRecords hinj (fun _ _ => hlives _)
    fun _ _ => hlives _
  refine ⟨(hback _ (hlives _)).trans (by decide), (hback _ (hlives _)).trans (by decide), ?_⟩
  rw [Bool.eq_false_iff, ne_eq, hequal Set.univ hinj _ _ (hlives _) (hlives _)]
  simp

end ValueType

end ForeignTypes
