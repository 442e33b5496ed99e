import ForeignTypes.Proofs.Classes
import ForeignTypes.Proofs.Pending
import ForeignTypes.Proofs.Records

/-!
# Regions that cover their records

Some constructors look at the size of the class before they make an object.  The size is known once
the fields of the class are given; so what is made from then on has at least the bytes of any record
that the built-in map derives from the class, and so has every region that is lent of it.  What was
made before the fields were given has the bytes it was given, and its regions may be too short.

* `Performed.constructed?` — the object that such a constructor made.
* `Session.Covers` — the regions of an object cover the records of its class.
* `Session.Runs.isDerived` — the records of a class stay what they are.
* **`Session.Runs.covers`** — so they do if the class was complete when the object was made.
-/

namespace ForeignTypes

/-! ## Constructors that look at the size -/

/-- The object that a command made after a look at the size of its class. -/
def Performed.constructed? : Performed → Option ObjectId
  | ⟨.makeRecord name struct bytes, s⟩ => (s.perform (.makeRecord name struct bytes)).1.toOption
  | ⟨.makeZeroed name struct, s⟩ => (s.perform (.makeZeroed name struct)).1.toOption
  | ⟨.construct name struct bytes, s⟩ => (s.perform (.construct name struct bytes)).1.toOption
  | ⟨.box context name t region, s⟩ =>
    match s.region? region with
    | some ⟨_, .owned _⟩ => (s.perform (.box context name t region)).1.toOption
    | _ => none
  | _ => none

/-- The object `o` is of the class and has as many bytes as the class had in the table before. -/
def Process.Sized (p p' : Process) (o : ObjectId) : Prop :=
  ∃ id x, p'.heap.object? o = some x ∧ x.type = .struct id ∧
    ∀ n, (p.sizeOf id).2 = some n → n ≤ x.bytes.length

lemma Process.Adds.sized {p p' : Process} {id : StructId} {bytes : List UInt8} {o : ObjectId}
    (h : p.Adds p' (.struct id) bytes o)
    (hsize : ∀ n, (p.sizeOf id).2 = some n → n ≤ bytes.length) : p.Sized p' o := by
  obtain ⟨module, hheap⟩ := h.heap
  refine ⟨id, ⟨.struct id, module, bytes, 1⟩, ?_, rfl, hsize⟩
  rw [hheap, h.object]
  simp [Heap.alloc, Heap.object?, Heap.nextId]

lemma Process.Sized.extends {p p' p'' : Process} {o : ObjectId} (h : p.Sized p' o)
    (hlater : p'.heap.Extends p''.heap) : p.Sized p'' o := by
  obtain ⟨id, x, hx, htype, hsize⟩ := h
  obtain ⟨n, hn⟩ := hlater o x hx
  exact ⟨id, _, hn, htype, hsize⟩

namespace Session

variable {s : Session} {earlier later : List Performed} {o : ObjectId}

lemma extends_withObject (s : Session) (name : String) (o : ObjectId) :
    s.process.heap.Extends (s.withObject name o).process.heap := by
  rw [withObject]
  cases s.objects.get? name with
  | some old => exact Heap.extends_release _ old
  | none => exact Heap.Extends.refl _

lemma sized_made {answer : Process × Except Error ObjectId} {name : String}
    (hsized : ∀ p o, answer = (p, .ok o) → s.process.Sized p o)
    (h : (s.made name answer).1 = .ok o) : s.process.Sized (s.made name answer).2.process o := by
  rcases answer with ⟨p, e | o'⟩
  · exact absurd h (by simp [made])
  · obtain rfl := Except.ok.inj h
    exact (hsized p o' rfl).extends (extends_withObject { s with process := p } name o')

lemma sized_makeRecord {name struct : String} {bytes : List UInt8}
    (h : (s.perform (.makeRecord name struct bytes)).1 = .ok o) :
    s.process.Sized (s.perform (.makeRecord name struct bytes)).2.process o := by
  rw [perform_makeRecord] at h ⊢
  cases hid : s.structs.get? struct with
  | none =>
      rw [hid] at h
      exact absurd h (by simp)
  | some id =>
      rw [hid] at h
      refine sized_made (fun p o hmake => ?_) h
      obtain ⟨hadds, hsize, -⟩ := Process.adds_of_makeRecord hmake
      exact hadds.sized hsize

lemma sized_construct {name struct : String} {bytes : List UInt8}
    (h : (s.perform (.construct name struct bytes)).1 = .ok o) :
    s.process.Sized (s.perform (.construct name struct bytes)).2.process o := by
  rw [perform_construct] at h ⊢
  cases hid : s.structs.get? struct with
  | none =>
      rw [hid] at h
      exact absurd h (by simp)
  | some id =>
      rw [hid] at h
      refine sized_made (fun p o hmake => ?_) h
      obtain ⟨hadds, hsize, -⟩ := Process.adds_of_construct hmake
      exact hadds.sized hsize

/-- An object that is all zero has exactly the size of its class. -/
lemma sized_makeZeroed {name struct : String}
    (h : (s.perform (.makeZeroed name struct)).1 = .ok o) :
    s.process.Sized (s.perform (.makeZeroed name struct)).2.process o := by
  rw [perform_makeZeroed] at h ⊢
  cases hid : s.structs.get? struct with
  | none =>
      rw [hid] at h
      exact absurd h (by simp)
  | some id =>
      rw [hid] at h
      refine sized_made (fun p o hmake => ?_) h
      obtain ⟨rfl, ho⟩ := Prod.mk.inj hmake
      obtain rfl := Except.ok.inj ho
      refine (s.process.adds_makeZeroed id).sized fun n hn => ?_
      rw [hn, List.length_replicate]
      exact Nat.le_refl n

/-- No ledger has an entry for a region of native code. -/
lemma Runs.entry_eq_none (hruns : start.Runs earlier s) {context : String} {c : Context}
    (hc : s.contexts.get? context = some c) {region : HeldRegion} {r : Region}
    (hr : s.region? region = some r) (howned : r.isAliased = false) :
    c.ledger.entries.get? r.id = none := by
  rw [Option.eq_none_iff_forall_ne_some]
  intro o ho
  have hsound := hruns.sound
  obtain ⟨l, -, hlent, rfl, -⟩ :=
    hsound.lent_of_entry (mem_ledgers _ hc) (hasRegion_of_region? _ hr) ho
  have haliased := (hsound.chronicled.lent c.id _ hlent).1.aliased
  exact absurd (howned.symm.trans haliased) (by simp)

lemma Runs.peek_eq_none (hruns : start.Runs earlier s) {context : String} {c : Context}
    (hc : s.contexts.get? context = some c) {region : HeldRegion} {r : Region}
    (hr : s.region? region = some r) (howned : r.isAliased = false) :
    c.ledger.peek s.process.heap.isAlive r.id = none := by
  rw [Ledger.peek, hruns.entry_eq_none hc hr howned]
  rfl

lemma Runs.sized_box (hruns : start.Runs earlier s) {context name : String} {t : ValueType}
    {region : HeldRegion} {r : Region} (hr : s.region? region = some r)
    (howned : r.isAliased = false) (h : (s.perform (.box context name t region)).1 = .ok o) :
    s.process.Sized (s.perform (.box context name t region)).2.process o := by
  rcases s.perform_box context name t region with
    ⟨-, f, hp⟩ | ⟨c, r', w, answer, hc, hr', hboxes, hp⟩
  · rw [hp] at h
    exact absurd h (by simp)
  · obtain rfl := Option.some.inj (hr'.symm.trans hr)
    cases answer with
    | error e =>
        rw [hp] at h
        exact absurd h (by simp)
    | ok o' =>
        rw [hp] at h ⊢
        obtain rfl := Except.ok.inj h
        cases hboxes with
        | lent ho _ =>
            have hnone := hruns.peek_eq_none hc hr howned
            exact absurd (hnone.symm.trans ho) (by simp)
        | @made _ _ _ _ _ _ process _ _ _ _ _ hmake =>
            obtain ⟨hadds, hsize, -⟩ := Process.adds_of_construct hmake
            exact (hadds.sized hsize).extends
              (extends_withObject (s.withWork context ⟨process, c⟩) name _)

/-- **What is made after a look at the size** has at least that size. -/
theorem Runs.sized_of_constructed {p : Performed} (hruns : start.Runs earlier p.before)
    (hp : p.constructed? = some o) : p.before.process.Sized p.after.process o := by
  obtain ⟨c, s⟩ := p
  cases c with
  | makeRecord name struct bytes => exact sized_makeRecord (toOption_eq_some.mp hp)
  | makeZeroed name struct => exact sized_makeZeroed (toOption_eq_some.mp hp)
  | construct name struct bytes => exact sized_construct (toOption_eq_some.mp hp)
  | box context name t region =>
      simp only [Performed.constructed?] at hp
      split at hp
      · next id bytes hr => exact hruns.sized_box hr rfl (toOption_eq_some.mp hp)
      · exact absurd hp (by simp)
  | _ => exact absurd hp (by simp [Performed.constructed?])

/-! ## Regions and records -/

/-- Every valid loan of the object at a record that the built-in map derives shows as many bytes as
the record has. -/
def Covers (s : Session) (o : ObjectId) : Prop :=
  ∀ context name id object address loan refs record policy,
    (s.perform (.unbox context name (.record id) object address)).1 = .ok (loan, refs) →
    loan.isValid = true → loan.object = o → s.process.types.record? id = some record →
    record.IsDerived s.process.structs (.builtin policy) →
    record.layout.size ≤ loan.region.length

/-- A record stays derived in the course of a run: it does not matter when it was derived. -/
theorem Runs.isDerived {t : Session} {record : RecordType} {m : ScalarMap}
    (hbefore : start.Runs earlier s) (hafter : s.Runs later t)
    (h : record.IsDerived s.process.structs m) : record.IsDerived t.process.structs m := by
  obtain ⟨hsane, -⟩ := hbefore.growsClasses sane_start
  obtain ⟨-, hlater⟩ := hafter.growsClasses hsane
  exact h.mono hlater

/-- A loan at a record is of an object of the record's class, and shows all its bytes. -/
lemma object_of_unbox {context name object : String} {id : TypeId} {address : Option Nat}
    {loan : Loan} {refs : Nat} {record : RecordType}
    (h : (s.perform (.unbox context name (.record id) object address)).1 = .ok (loan, refs))
    (hrecord : s.process.types.record? id = some record) :
    ∃ x, s.process.heap.object? loan.object = some x ∧ x.type = .struct record.struct ∧
      loan.region.length = x.bytes.length := by
  rcases s.perform_unbox context name (.record id) object address with
    ⟨f, hp⟩ | ⟨c, o, w, loan', -, -, hlends, hp⟩
  · rw [hp] at h
    exact absurd h (by simp)
  · rw [hp] at h
    obtain ⟨rfl, -⟩ := Prod.mk.inj (Except.ok.inj h)
    obtain ⟨x, hx, hcheck, hregion⟩ := hlends.made
    refine ⟨x, ?_, ?_, ?_⟩
    · rw [hlends.object]
      exact hx
    · simp only [Workspace.checkClass, hrecord] at hcheck
      split at hcheck
      · next hmatches => exact of_decide_eq_true hmatches
      · exact absurd hcheck (by simp)
    · rw [hregion]
      rfl

/-- **Regions cover their records**: after every run, if the object was made after a look at the
size of its class, and the fields of the class were given at that time. -/
theorem Runs.covers {p : Performed} {struct : StructId} (hbefore : start.Runs earlier p.before)
    (hp : p.constructed? = some o)
    (hclass : (p.after.process.heap.object? o).map ForeignObject.type = some (.struct struct))
    (hcomplete : p.before.process.structs.isComplete struct = true)
    (hafter : p.after.Runs later s) : s.Covers o := by
  intro context name id object address loan refs record policy hunbox _ hobject hrecord hderived
  obtain ⟨struct', x, hx, htype, hsize⟩ := hbefore.sized_of_constructed hp
  obtain ⟨x', hx', htype', hlength⟩ := object_of_unbox hunbox hrecord
  -- the object is what it was when it was made
  have hmade : start.Runs (p :: earlier) p.after := hbefore.cons p.command
  obtain ⟨n, hn⟩ := (hafter.steps _ hmade.sound).extends o x hx
  rw [hobject] at hx'
  obtain rfl : x' = { x with refs := n } := Option.some.inj (hx'.symm.trans hn)
  obtain rfl : struct' = record.struct := CType.struct.inj (htype.symm.trans htype')
  obtain rfl : struct = record.struct := by
    rw [hx, Option.map_some, htype] at hclass
    exact (CType.struct.inj (Option.some.inj hclass)).symm
  -- and the class has had its layout since then
  obtain ⟨hsane, -⟩ := hbefore.growsClasses sane_start
  have hgrows : GrowsClasses p.before s :=
    IsTrans.trans _ _ _ (growsClasses_perform p.before p.command) hafter.growsClasses
  obtain ⟨-, hlater⟩ := hgrows hsane
  have hlayout := hderived.layout_eq (ScalarMap.keepsSizes_builtin policy) hsane hlater hcomplete
  rw [hlength]
  refine hsize _ ?_
  show ((p.before.process.structs.layout record.struct).2.map Layout.size) = _
  rw [hlayout]
  rfl

/-! ## An object made in time, and one made too early -/

def pairFields : List FieldDecl := [⟨"x", .scalar .int32, none⟩, ⟨"y", .scalar .int32, none⟩]

/-- The session in which the class was declared with its fields, or without. -/
def declaredPair (fields : Option (List FieldDecl)) : Session :=
  (start.perform (.declareStruct "P" ⟨"P", "native.records", none, fields⟩)).2

lemma runs_declaredPair (fields : Option (List FieldDecl)) :
    start.Runs [⟨.declareStruct "P" ⟨"P", "native.records", none, fields⟩, start⟩]
      (declaredPair fields) :=
  Runs.nil.cons (.declareStruct "P" ⟨"P", "native.records", none, fields⟩)

/-- The object that is made once the fields are given. -/
def madeInTime : Performed := ⟨.makeZeroed "v" "P", declaredPair (some pairFields)⟩

/-- A region of the object that was made in time covers the record. -/
theorem covers_madeInTime :
    ∃ loan refs, ((madeInTime.after.perform (.deriveRecord "main" "P" none)).2.perform
        (.unbox "main" "n" (.record ⟨0⟩) "v" none)).1 = .ok (loan, refs) ∧
      8 ≤ loan.region.length := by
  have hafter := (Runs.nil (s := madeInTime.after)).cons (.deriveRecord "main" "P" none)
  have hclass : (madeInTime.after.process.heap.object? ⟨0⟩).map ForeignObject.type
      = some (.struct ⟨0⟩) := rfl
  have hcovers := (runs_declaredPair (some pairFields)).covers rfl hclass rfl hafter
  refine ⟨_, _, rfl, ?_⟩
  exact hcovers "main" "n" ⟨0⟩ "v" none _ _ _ .canonical rfl rfl rfl rfl
    ⟨_, pairFields, madeInTime.after.process.types, rfl, rfl, rfl, rfl⟩

/-- The object that is made, of no bytes, before the fields are given. -/
def madeEarly : Performed := ⟨.makeZeroed "v" "P", declaredPair none⟩

/-- The session in which the fields are given later, and the record is derived. -/
def derivedLate : Session :=
  ((madeEarly.after.perform (.setFields "P" pairFields)).2.perform
    (.deriveRecord "main" "P" none)).2

/-- **An object that was made too early is not covered**: its region shows no byte, and the record
has eight. -/
theorem not_covers_madeEarly :
    ¬ ∀ (earlier later : List Performed) (p : Performed) (o : ObjectId) (s : Session),
      start.Runs earlier p.before → p.constructed? = some o → p.after.Runs later s →
      s.Covers o := by
  intro h
  have hafter := ((Runs.nil (s := madeEarly.after)).cons (.setFields "P" pairFields)).cons
    (.deriveRecord "main" "P" none)
  have hcovers : derivedLate.Covers ⟨0⟩ :=
    h _ _ madeEarly ⟨0⟩ _ (runs_declaredPair none) rfl hafter
  obtain ⟨loan, refs, hunbox, hvalid, hobject, hlength⟩ : ∃ loan refs,
      (derivedLate.perform (.unbox "main" "n" (.record ⟨0⟩) "v" none)).1 = .ok (loan, refs) ∧
        loan.isValid = true ∧ loan.object = ⟨0⟩ ∧ loan.region.length = 0 :=
    ⟨_, _, rfl, rfl, rfl, rfl⟩
  obtain ⟨record, hrecord, hderived, hsize⟩ : ∃ record,
      derivedLate.process.types.record? ⟨0⟩ = some record ∧
        record.IsDerived derivedLate.process.structs (.builtin .canonical) ∧
        record.layout.size = 8 :=
    ⟨_, rfl, ⟨_, pairFields, madeEarly.after.process.types, rfl, rfl, rfl, rfl⟩, rfl⟩
  have hle := hcovers "main" "n" ⟨0⟩ "v" none loan refs record .canonical hunbox hvalid hobject
    hrecord hderived
  rw [hsize, hlength] at hle
  exact absurd hle (by decide)

end Session

end ForeignTypes
