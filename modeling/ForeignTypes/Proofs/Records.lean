import ForeignTypes.Proofs.Nesting
import ForeignTypes.RecordCache
import Mathlib.Data.List.Forall2

/-!
# Records that keep their sizes

A scalar map keeps sizes if it maps every scalar to a value type of the same room, as the built-in
map does.  A record that such a map derives has the layout of its class: the class holds scalars and
pointers only, and each takes the room of its value type.

* `ScalarMap.KeepsSizes`, **`ScalarMap.keepsSizes_builtin`** — maps that keep sizes.
* `FieldDecl.derive_eq_ok_iff` — the fields that go across.
* `RecordType.IsDerivedWith` — a record as a map derives it from a class and a store of types.
* **`RecordCache.derive_cases`** — the record was there, or it is derived and kept.
* **`RecordType.IsDerivedWith.hasLayout`** — the layout of the record is that of its class.
* `RecordType.IsDerived`, **`RecordType.IsDerived.layout_eq`** — the same, now and later.
-/

namespace ForeignTypes

/-! ## Maps that keep sizes -/

/-- Every scalar is mapped to a value type that takes the same room. -/
def ScalarMap.KeepsSizes (m : ScalarMap) : Prop :=
  ∀ s v, m.toValueType? s = some v → ∀ types : TypeStore, types.extentOf v = some s.extent

/-- Every scalar is mapped to a value type that takes the same room, as far as a store knows. -/
def ScalarMap.KeepsSizesIn (m : ScalarMap) (types : TypeStore) : Prop :=
  ∀ s v, m.toValueType? s = some v → types.extentOf v = some s.extent

lemma ScalarMap.KeepsSizes.keepsSizesIn {m : ScalarMap} (hm : m.KeepsSizes) (types : TypeStore) :
    m.KeepsSizesIn types := fun s v hv => hm s v hv types

/-- **The built-in map keeps sizes**, under either policy. -/
theorem ScalarMap.keepsSizes_builtin (policy : ReversePolicy) : (builtin policy).KeepsSizes := by
  intro s v hv types
  rw [toValueType?_builtin] at hv
  cases s with
  | hresult => exact absurd hv (by simp [builtinType?])
  | _ =>
      obtain rfl := Option.some.inj hv
      rfl

/-! ## Computations that may fail -/

lemma toOption_eq_some {ε α : Type} {e : Except ε α} {a : α} :
    e.toOption = some a ↔ e = .ok a := by
  cases e with
  | ok b => simp [Except.toOption]
  | error e => simp [Except.toOption]

/-- A list goes through a computation that may fail if each of its members does. -/
lemma mapM_eq_ok_iff {ε α β : Type} {f : α → Except ε β} {xs : List α} {ys : List β} :
    xs.mapM f = .ok ys ↔ List.Forall₂ (fun x y => f x = .ok y) xs ys := by
  induction xs generalizing ys with
  | nil => simp [pure, Except.pure, eq_comm]
  | cons x xs ih =>
      rw [List.mapM_cons, List.forall₂_cons_left_iff]
      cases hx : f x with
      | error e => simp [bind, Except.bind]
      | ok y =>
          cases hxs : xs.mapM f with
          | error e => simp [bind, Except.bind, ← ih, hxs]
          | ok rest => simp [bind, Except.bind, pure, Except.pure, ← ih, hxs, eq_comm]

/-- A computation over a list fails with the failure of the first member that fails. -/
lemma mapM_eq_error_iff {ε α β : Type} {f : α → Except ε β} {xs : List α} {e : ε} :
    xs.mapM f = .error e ↔ ∃ before x after, xs = before ++ x :: after ∧
      (∀ y ∈ before, ∃ z, f y = .ok z) ∧ f x = .error e := by
  induction xs with
  | nil => simp [pure, Except.pure]
  | cons x xs ih =>
      rw [List.mapM_cons]
      simp only [List.cons_eq_append_iff]
      cases hx : f x with
      | error e' =>
          constructor
          · intro h
            obtain rfl : e' = e := by simpa [bind, Except.bind] using h
            exact ⟨[], x, xs, .inl ⟨rfl, rfl⟩, by simp, hx⟩
          · rintro ⟨before, x', after, ⟨rfl, heq⟩ | ⟨rest, rfl, rfl⟩, hbefore, hx'⟩
            · obtain ⟨rfl, rfl⟩ := List.cons.inj heq
              rw [Except.error.inj (hx.symm.trans hx')]
              rfl
            · obtain ⟨z, hz⟩ := hbefore x List.mem_cons_self
              exact absurd (hx.symm.trans hz) (by simp)
      | ok y =>
          have hrest : (do
              let z ← Except.ok y
              let zs ← xs.mapM f
              pure (z :: zs) : Except ε (List β)) = .error e ↔ xs.mapM f = .error e := by
            cases xs.mapM f with
            | error e' => simp [bind, Except.bind]
            | ok zs => simp [bind, Except.bind, pure, Except.pure]
          rw [hrest, ih]
          constructor
          · rintro ⟨before, x', after, rfl, hbefore, hx'⟩
            refine ⟨x :: before, x', after, .inr ⟨before, rfl, rfl⟩, fun z hz => ?_, hx'⟩
            rcases List.mem_cons.mp hz with rfl | hz
            · exact ⟨y, hx⟩
            · exact hbefore z hz
          · rintro ⟨before, x', after, ⟨rfl, heq⟩ | ⟨rest, rfl, rfl⟩, hbefore, hx'⟩
            · obtain ⟨rfl, rfl⟩ := List.cons.inj heq
              exact absurd (hx.symm.trans hx') (by simp)
            · exact ⟨rest, x', after, rfl,
                fun z hz => hbefore z (List.mem_cons_of_mem x hz), hx'⟩

/-! ## Fields -/

variable {m : ScalarMap} {structs structs' : StructTable} {self : StructId}

/-- **What goes across as a field**: one that has no width in bits, and whose type is not void, does
not lead to a struct, and has a value type.  The class and the table only serve the errors. -/
lemma FieldDecl.derive_eq_ok_iff {f : FieldDecl} {field : RecordField} :
    f.derive structs m self = .ok field ↔
      f.bits = none ∧ (∀ id, f.type.peel ≠ .struct id) ∧ f.type ≠ .void ∧
        ∃ t, m.valueTypeOf? f.type = some t ∧ field = ⟨f.name, t⟩ := by
  rw [derive]
  cases f.bits with
  | some bits => simp
  | none =>
      cases hpeel : f.type.peel with
      | struct inner =>
          simp only [CType.struct.injEq, ne_eq]
          split
          · simp
          · simp
      | void | scalar _ | pointer _ =>
          by_cases hvoid : f.type = .void
          · simp [hvoid]
          · cases ht : m.valueTypeOf? f.type with
            | none => simp [hvoid]
            | some t => simp [hvoid, eq_comm]

/-- **What keeps a field from going across** is its type, or its width. -/
lemma FieldDecl.isTypeError_of_derive {f : FieldDecl} {e : Error}
    (h : f.derive structs m self = .error e) : e.isTypeError = true := by
  rw [derive] at h
  split at h
  · obtain rfl := Except.error.inj h
    rfl
  · split at h
    · split at h
      · obtain rfl := Except.error.inj h
        rfl
      · obtain rfl := Except.error.inj h
        rfl
    · split at h
      · obtain rfl := Except.error.inj h
        rfl
      · split at h
        · exact absurd h (by simp)
        · obtain rfl := Except.error.inj h
          rfl

/-- Whether fields go across does not depend on the other classes. -/
lemma FieldDecl.derive_congr {fields : List FieldDecl} {derived : List RecordField}
    (h : fields.mapM (FieldDecl.derive structs m self) = .ok derived) :
    fields.mapM (FieldDecl.derive structs' m self) = .ok derived := by
  rw [mapM_eq_ok_iff] at h ⊢
  refine h.imp fun f field hf => ?_
  rw [derive_eq_ok_iff] at hf ⊢
  exact hf

lemma FieldDecl.names_of_derive {fields : List FieldDecl} {derived : List RecordField}
    (h : fields.mapM (FieldDecl.derive structs m self) = .ok derived) :
    derived.map (·.name) = fields.map (·.name) := by
  induction mapM_eq_ok_iff.mp h with
  | nil => rfl
  | cons hf hfs ih =>
      obtain ⟨-, -, -, t, -, rfl⟩ := derive_eq_ok_iff.mp hf
      simp only [List.map_cons, ih (mapM_eq_ok_iff.mpr hfs)]

/-- A field that goes across takes the room of its value type. -/
lemma FieldDecl.exists_hasExtent {types : TypeStore} (hm : m.KeepsSizesIn types) {f : FieldDecl}
    {field : RecordField} (h : f.derive structs m self = .ok field) :
    ∃ e, structs.HasExtent f.type e ∧ field.extent types = ⟨f.name, e.size, e.align⟩ := by
  obtain ⟨-, hpeel, hvoid, v, hv, rfl⟩ := derive_eq_ok_iff.mp h
  cases htype : f.type with
  | void => exact absurd htype hvoid
  | struct id => exact absurd (by rw [htype]; rfl) (hpeel id)
  | scalar s =>
      rw [htype] at hv
      refine ⟨s.extent, .scalar s, ?_⟩
      simp only [RecordField.extent, hm s v hv]
  | pointer inner =>
      rw [htype] at hv
      obtain ⟨v', -, rfl⟩ := Option.map_eq_some_iff.mp hv
      exact ⟨.pointer, .pointer inner, rfl⟩

/-- The fields of a record take the room of the fields of its class. -/
lemma FieldDecl.hasExtents_of_derive {types : TypeStore} (hm : m.KeepsSizesIn types)
    {fields : List FieldDecl} {derived : List RecordField}
    (h : fields.mapM (FieldDecl.derive structs m self) = .ok derived) :
    structs.HasExtents fields (derived.map (·.extent types)) := by
  induction mapM_eq_ok_iff.mp h with
  | nil => exact .nil
  | cons hf hfs ih =>
      obtain ⟨e, he, hfield⟩ := exists_hasExtent hm hf
      rw [List.map_cons, hfield]
      exact .cons he (ih (mapM_eq_ok_iff.mpr hfs))

/-! ## Records -/

/-- **What keeps a class from having a record** is a type. -/
theorem RecordCache.isTypeError_of_derive {c : RecordCache} {types : TypeStore} {id : StructId}
    {e : Error} (h : c.derive structs m types id = .error e) : e.isTypeError = true := by
  rw [derive] at h
  split at h
  · exact absurd h (by simp)
  · split at h
    · split at h
      · next hfields =>
          obtain rfl := Except.error.inj h
          obtain ⟨-, f, -, -, -, hf⟩ := mapM_eq_error_iff.mp hfields
          exact FieldDecl.isTypeError_of_derive hf
      · exact absurd h (by simp)
    · obtain rfl := Except.error.inj h
      rfl

namespace RecordType

/-- The record is one that a map that keeps sizes derives from its class. -/
def IsDerived (structs : StructTable) (m : ScalarMap) (r : RecordType) : Prop :=
  ∃ d fields types, structs.decl? r.struct = some d ∧ d.fields = some fields ∧
    fields.mapM (FieldDecl.derive structs m r.struct) = .ok r.fields ∧
    r = .ofFields structs.counting types r.struct d.name r.fields d.pack

/-- The record is what a map derives from its class, with the types of this store. -/
def IsDerivedWith (structs : StructTable) (m : ScalarMap) (types : TypeStore) (r : RecordType) :
    Prop :=
  ∃ d fields, structs.decl? r.struct = some d ∧ d.fields = some fields ∧
    fields.mapM (FieldDecl.derive structs m r.struct) = .ok r.fields ∧
    r = .ofFields structs.counting types r.struct d.name r.fields d.pack

/-- The record is named and packed as its class is, and has the fields of that name. -/
def Describes (structs : StructTable) (r : RecordType) : Prop :=
  ∃ d fields, structs.decl? r.struct = some d ∧ d.fields = some fields ∧ r.name = d.name ∧
    r.pack = d.pack ∧ r.fields.map (·.name) = fields.map (·.name)

variable {r : RecordType} {types : TypeStore}

lemma isDerived_iff : r.IsDerived structs m ↔ ∃ types, r.IsDerivedWith structs m types := by
  constructor
  · rintro ⟨d, fields, types, h⟩
    exact ⟨types, d, fields, h⟩
  · rintro ⟨types, d, fields, h⟩
    exact ⟨d, fields, types, h⟩

/-- A class that is complete stays as it is, and so its record stays derived. -/
lemma IsDerivedWith.mono (h : r.IsDerivedWith structs m types) (hlater : structs.Extends structs') :
    r.IsDerivedWith structs' m types := by
  obtain ⟨d, fields, hd, hfields, hderived, hr⟩ := h
  have hd' := hlater.complete _ d hd (by rw [hfields]; rfl)
  refine ⟨d, fields, hd', hfields, FieldDecl.derive_congr hderived, ?_⟩
  rw [hlater.counting]
  exact hr

theorem IsDerived.mono (h : r.IsDerived structs m) (hlater : structs.Extends structs') :
    r.IsDerived structs' m := by
  obtain ⟨types, h⟩ := isDerived_iff.mp h
  exact isDerived_iff.mpr ⟨types, h.mono hlater⟩

lemma IsDerivedWith.describes (h : r.IsDerivedWith structs m types) : r.Describes structs := by
  obtain ⟨d, fields, hd, hfields, hderived, hr⟩ := h
  exact ⟨d, fields, hd, hfields, congrArg RecordType.name hr, congrArg RecordType.pack hr,
    FieldDecl.names_of_derive hderived⟩

lemma Describes.mono (h : r.Describes structs) (hlater : structs.Extends structs') :
    r.Describes structs' := by
  obtain ⟨d, fields, hd, hfields, hrest⟩ := h
  exact ⟨d, fields, hlater.complete _ d hd (by rw [hfields]; rfl), hfields, hrest⟩

/-- **The record of a map that keeps sizes** has the layout of its class. -/
theorem IsDerivedWith.hasLayout (hm : m.KeepsSizesIn types) (h : r.IsDerivedWith structs m types) :
    structs.HasLayout r.struct r.layout := by
  obtain ⟨d, fields, hd, hfields, hderived, hr⟩ := h
  rw [hr]
  exact .mk hd hfields (FieldDecl.hasExtents_of_derive hm hderived)

/-- **The layout of a record that keeps sizes** is the one that every search for its class finds,
from the moment when the class is complete. -/
theorem IsDerived.layout_eq (hm : m.KeepsSizes) (h : r.IsDerived structs m) {t : StructTable}
    (ht : t.Sane) (hlater : t.Extends structs) (hcomplete : t.isComplete r.struct = true) :
    (t.layout r.struct).2 = some r.layout := by
  obtain ⟨types, d, fields, hd, hfields, hderived, hr⟩ := isDerived_iff.mp h
  -- the class is complete already, and so it was then what it is now
  have hd' : t.decl? r.struct = some d := by
    obtain ⟨fields', hfields'⟩ := StructTable.exists_fields hcomplete
    obtain ⟨d', hd', hdfields⟩ := StructTable.exists_decl hfields'
    have hsame := hlater.complete _ d' hd' (by rw [hdfields]; rfl)
    rwa [← Option.some.inj (hsame.symm.trans hd)]
  have hderived' : r.IsDerivedWith t m types := by
    refine ⟨d, fields, hd', hfields, FieldDecl.derive_congr hderived, ?_⟩
    rw [← hlater.counting]
    exact hr
  exact (StructTable.layout_eq_some_iff ht).mpr (hderived'.hasLayout (hm.keepsSizesIn types))

end RecordType

/-- **What comes of asking for a record**: it was there, or it is derived and kept. -/
theorem RecordCache.derive_cases {c c' : RecordCache} {types types' : TypeStore} {id : StructId}
    {t : ValueType} (h : c.derive structs m types id = .ok (c', types', t)) :
    (c.get? id = some t ∧ c' = c ∧ types' = types) ∨
      ∃ r : RecordType, c.get? id = none ∧ r.struct = id ∧ r.IsDerivedWith structs m types ∧
        c' = ⟨c.entries.put id ⟨id, t⟩⟩ ∧ (types', t) = types.addRecord r := by
  rw [derive] at h
  split at h
  · next hold =>
      obtain ⟨rfl, rfl, rfl⟩ : c = c' ∧ types = types' ∧ _ = t := by simpa using h
      exact .inl ⟨hold, rfl, rfl⟩
  · next hnew =>
      split at h
      · next name module pack fields hd =>
          split at h
          · exact absurd h (by simp)
          · next derived hderived =>
              simp only [Except.ok.injEq, Prod.mk.injEq] at h
              obtain ⟨rfl, rfl, rfl⟩ := h
              refine .inr ⟨.ofFields structs.counting types id name derived pack, hnew, rfl, ?_,
                rfl, rfl⟩
              exact ⟨_, fields, hd, rfl, hderived, rfl⟩
      · exact absurd h (by simp)

end ForeignTypes
