import ForeignTypes.Heap
import Mathlib.Tactic.Common

/-!
# Objects over time

A heap changes in three ways: an object is made, a reference is taken, a reference is given back.
In none of them does an object change its class, its module or its bytes, and in none of them does a
dead object come back to life.

* `Heap.Extends` — a later heap: the objects made before are still there, as they were made.
* `Heap.Fades` — a later heap in which no object of the earlier one came back to life.
* `Heap.Ages` — both, which any number of changes together keep.
* **`Heap.extends_retain`**, **`Heap.fades_retain`**, … — the three changes.
-/

namespace ForeignTypes.Heap

/-! ## Being alive -/

lemma isAlive_iff {h : Heap} {o : ObjectId} : h.isAlive o = true ↔ 0 < h.refs o := by
  simp [isAlive]

/-- Only an object that was made can be alive. -/
lemma index_lt_of_isAlive {h : Heap} {o : ObjectId} (ho : h.isAlive o = true) :
    o.index < h.objects.length := by
  by_contra hlt
  have hnone : h.objects[o.index]? = none := List.getElem?_eq_none (Nat.le_of_not_lt hlt)
  simp [isAlive, refs, object?, hnone] at ho

lemma index_lt_of_object? {h : Heap} {o : ObjectId} {x : ForeignObject}
    (ho : h.object? o = some x) : o.index < h.objects.length :=
  (List.getElem?_eq_some_iff.mp ho).1

@[simp]
lemma length_alloc (h : Heap) (type : CType) (module : String) (bytes : List UInt8) :
    (h.alloc type module bytes).1.objects.length = h.objects.length + 1 := by
  simp [alloc]

@[simp]
lemma length_retain (h : Heap) (o : ObjectId) :
    (h.retain o).objects.length = h.objects.length := by
  simp [retain]

@[simp]
lemma length_release (h : Heap) (o : ObjectId) :
    (h.release o).objects.length = h.objects.length := by
  simp [release]

lemma ne_nextId {h : Heap} {o : ObjectId} (ho : o.index < h.objects.length) : o ≠ h.nextId := by
  rintro rfl
  exact absurd ho (by simp [nextId])

lemma refs_nextId (h : Heap) : h.refs h.nextId = 0 := by
  simp [refs, object?, nextId]

/-- **A new object counts one reference**, and the others keep theirs. -/
lemma refs_alloc_add (h : Heap) (type : CType) (module : String) (bytes : List UInt8)
    (o : ObjectId) :
    (h.alloc type module bytes).1.refs o = h.refs o + if o = h.nextId then 1 else 0 := by
  rw [refs_alloc]
  split
  · next heq => rw [heq, refs_nextId]
  · rfl

/-- **A reference taken** of a living object counts for that object alone. -/
lemma refs_retain_add {h : Heap} {o : ObjectId} (ho : h.isAlive o = true) (o' : ObjectId) :
    (h.retain o).refs o' = h.refs o' + if o' = o then 1 else 0 := by
  rw [refs_retain h o o' (index_lt_of_isAlive ho)]
  simp only [eq_comm (a := o)]
  split <;> rfl

/-- **A reference given back** counts for its object alone. -/
lemma refs_release_sub (h : Heap) (o o' : ObjectId) :
    (h.release o).refs o' = h.refs o' - if o' = o then 1 else 0 := by
  rw [refs_release]
  simp only [eq_comm (a := o)]
  split <;> rfl

/-- An object that is made and given up again counts nothing. -/
lemma refs_alloc_release (h : Heap) (type : CType) (module : String) (bytes : List UInt8)
    (o : ObjectId) : ((h.alloc type module bytes).1.release h.nextId).refs o = h.refs o := by
  rw [refs_release_sub, refs_alloc_add]
  exact Nat.add_sub_cancel _ _

/-! ## What stays of an object -/

/-- A later heap: every object of the earlier one is there, and only its references differ. -/
def Extends (h h' : Heap) : Prop :=
  ∀ o x, h.object? o = some x → ∃ n, h'.object? o = some { x with refs := n }

lemma Extends.refl (h : Heap) : h.Extends h := fun _ x hx => ⟨x.refs, hx⟩

lemma Extends.trans {h₁ h₂ h₃ : Heap} (h₁₂ : h₁.Extends h₂) (h₂₃ : h₂.Extends h₃) :
    h₁.Extends h₃ := by
  intro o x hx
  obtain ⟨n, hn⟩ := h₁₂ o x hx
  obtain ⟨m, hm⟩ := h₂₃ o _ hn
  exact ⟨m, hm⟩

lemma extends_alloc (h : Heap) (type : CType) (module : String) (bytes : List UInt8) :
    h.Extends (h.alloc type module bytes).1 := by
  intro o x hx
  have hlt := index_lt_of_object? hx
  refine ⟨x.refs, ?_⟩
  simpa [alloc, object?, List.getElem?_append_left hlt] using hx

/-- The new object, as it was made. -/
lemma object?_alloc_nextId (h : Heap) (type : CType) (module : String) (bytes : List UInt8) :
    (h.alloc type module bytes).1.object? h.nextId = some ⟨type, module, bytes, 1⟩ := by
  simp [alloc, object?, nextId]

/-- A reference given back changes no other object. -/
lemma object?_release_of_ne (h : Heap) {o o' : ObjectId} (hne : o ≠ o') :
    (h.release o).object? o' = h.object? o' := by
  have hindex : o.index ≠ o'.index := fun heq => hne (congrArg ObjectId.mk heq)
  simp [release, object?, hindex]

/-- What is kept of an object in a heap in which one object was changed. -/
lemma extends_modify (h : Heap) (i : Nat) (f : Nat → Nat) :
    h.Extends ⟨h.objects.modify i fun x => { x with refs := f x.refs }⟩ := by
  intro o x hx
  simp only [object?] at hx
  simp only [object?, List.getElem?_modify, hx]
  by_cases hi : i = o.index
  · exact ⟨f x.refs, by simp [hi]⟩
  · exact ⟨x.refs, by simp [hi]⟩

lemma extends_retain (h : Heap) (o : ObjectId) : h.Extends (h.retain o) :=
  extends_modify h o.index (· + 1)

lemma extends_release (h : Heap) (o : ObjectId) : h.Extends (h.release o) :=
  extends_modify h o.index (· - 1)

/-- Where no count changed, objects are what they were. -/
lemma Extends.object?_eq {h h' : Heap} (hlater : h.Extends h')
    (hrefs : ∀ o, h'.refs o = h.refs o) {o : ObjectId} {x : ForeignObject}
    (hx : h.object? o = some x) : h'.object? o = some x := by
  obtain ⟨n, hn⟩ := hlater o x hx
  have hcount := hrefs o
  simp only [refs, hn, hx] at hcount
  rw [hn, hcount]

/-! ## No object comes back to life -/

/-- A later heap in which only those objects of the earlier one live that lived there. -/
def Fades (h h' : Heap) : Prop :=
  ∀ o, o.index < h.objects.length → h'.isAlive o = true → h.isAlive o = true

lemma Fades.refl (h : Heap) : h.Fades h := fun _ _ ho => ho

lemma fades_alloc (h : Heap) (type : CType) (module : String) (bytes : List UInt8) :
    h.Fades (h.alloc type module bytes).1 := by
  intro o ho halive
  rw [isAlive_iff, refs_alloc_add, if_neg (ne_nextId ho)] at halive
  exact isAlive_iff.mpr halive

/-- A reference is taken of what is alive already. -/
lemma isAlive_retain {h : Heap} {o : ObjectId} (ho : h.isAlive o = true) (o' : ObjectId) :
    (h.retain o).isAlive o' = h.isAlive o' := by
  rw [isAlive, isAlive, refs_retain_add ho, decide_eq_decide]
  split
  · next heq =>
      have hpos := isAlive_iff.mp ho
      rw [heq]
      omega
  · rfl

lemma fades_retain {h : Heap} {o : ObjectId} (ho : h.isAlive o = true) : h.Fades (h.retain o) := by
  intro o' _ halive
  rwa [isAlive_retain ho] at halive

lemma fades_release (h : Heap) (o : ObjectId) : h.Fades (h.release o) := by
  intro o' _ halive
  rw [isAlive_iff, refs_release_sub] at halive
  rw [isAlive_iff]
  omega

/-! ## Later heaps -/

lemma Extends.length_le {h h' : Heap} (hlater : h.Extends h') :
    h.objects.length ≤ h'.objects.length := by
  by_contra hlt
  obtain ⟨x, hx⟩ : ∃ x, h.object? ⟨h'.objects.length⟩ = some x :=
    ⟨_, List.getElem?_eq_getElem (Nat.lt_of_not_le hlt)⟩
  obtain ⟨n, hn⟩ := hlater _ x hx
  exact absurd (index_lt_of_object? hn) (Nat.lt_irrefl _)

/-- A later heap: the objects of the earlier one are there, and no dead one came back to life. -/
structure Ages (h h' : Heap) : Prop where
  objects : h.Extends h'
  fades : h.Fades h'

lemma Ages.refl (h : Heap) : h.Ages h := ⟨.refl h, .refl h⟩

lemma Ages.trans {h₁ h₂ h₃ : Heap} (h₁₂ : h₁.Ages h₂) (h₂₃ : h₂.Ages h₃) : h₁.Ages h₃ where
  objects := h₁₂.objects.trans h₂₃.objects
  fades := fun o ho halive =>
    h₁₂.fades o ho (h₂₃.fades o (Nat.lt_of_lt_of_le ho h₁₂.objects.length_le) halive)

lemma ages_alloc (h : Heap) (type : CType) (module : String) (bytes : List UInt8) :
    h.Ages (h.alloc type module bytes).1 :=
  ⟨extends_alloc h type module bytes, fades_alloc h type module bytes⟩

lemma ages_release (h : Heap) (o : ObjectId) : h.Ages (h.release o) :=
  ⟨extends_release h o, fades_release h o⟩

end ForeignTypes.Heap
