import ForeignTypes.Proofs.Pending

/-!
# There and back

An object that was lent comes back as itself.  A region is *pending* in a context if it is that of
an outstanding loan there and the object of the loan lives: the ledger answers the object for
exactly the pending regions.  So boxing a pending region gives the object that was lent, once, at
any type that the object is of, and boxing any other region that shows an object gives none.

* `Session.Pending` — a region that waits to be brought back.
* `Session.Runs.peek_iff_pending` — what the ledger knows.
* **`Session.Runs.round_trip`** — boxing a region after any run.
-/

namespace ForeignTypes.Session

variable {s : Session} {history : List Performed} {context : String} {c : Context}
  {region : HeldRegion} {r : Region} {o : ObjectId} {t : ValueType}

/-- The region `r` is that of an outstanding loan of the object `o`, which is alive. -/
def Pending (s : Session) (log : List Event) (K : ContextId) (r : Region) (o : ObjectId) : Prop :=
  s.process.heap.isAlive o = true ∧ ∃ name l, s.loans.get? name = some l ∧ l.region = r ∧
    l.object = o ∧ l.IsOutstanding log K

/-- The object can be brought back at the type: the type is that of foreign values, or a record of
the object's class. -/
def FitsAt (s : Session) (o : ObjectId) (t : ValueType) : Prop :=
  t = .foreign ∨ ∃ id record x, t = .record id ∧ s.process.types.record? id = some record ∧
    s.process.heap.object? o = some x ∧ record.matches x.type = true

/-! ## What the ledger knows -/

/-- **The ledger knows the pending regions**, and no other region that somebody holds. -/
theorem Runs.peek_iff_pending (hruns : start.Runs history s)
    (hc : s.contexts.get? context = some c) (hr : s.region? region = some r) :
    c.ledger.peek s.process.heap.isAlive r.id = some o ↔
      s.Pending (logOf history) c.id r o := by
  have hsound := hruns.sound
  have hK := mem_ledgers (logOf history) hc
  rw [Ledger.peek_eq_some]
  constructor
  · rintro ⟨ho, halive⟩
    obtain ⟨l, hl, hid, hout, hobject⟩ := hsound.outstanding_of_entry hK ho
    obtain ⟨name, hname⟩ := Table.mem_values.mp hl
    obtain ⟨e, he, hre⟩ := hsound.recorded.made_of_hasRegion (hasRegion_of_region? _ hr)
    have heq := hsound.chronicled.event_eq he hout.2.1 hre rfl hid.symm
    rw [heq] at hre
    exact ⟨halive, name, l, hname, Option.some.inj hre, hobject, hout⟩
  · rintro ⟨halive, name, l, hname, rfl, rfl, hout⟩
    exact ⟨hsound.entry_of_outstanding hK (Table.mem_values_of_get? hname) hout halive, halive⟩

/-- **A region that shows an object is boxed once**, whatever the context. -/
lemma Runs.notBoxed_of_pending (hruns : start.Runs history s)
    (hpending : s.Pending (logOf history) c.id r o) {K : ContextId} {r' : Region} {o' : ObjectId}
    (hboxed : .boxed K r' o' ∈ logOf history) : r'.id ≠ r.id := by
  intro hid
  obtain ⟨-, name, l, hname, rfl, -, -, hlent, hout⟩ := hpending
  have hchronicled := hruns.sound.chronicled
  have htraced := hchronicled.boxed K r' o' hboxed
  obtain ⟨e, he, hre⟩ := htraced.made
  obtain rfl := hchronicled.event_eq he hlent hre rfl hid
  obtain rfl : l.atStart.region = r' := Option.some.inj hre
  obtain ⟨l', hl', hregion, -⟩ := htraced.lent (hchronicled.lent _ _ hlent).1.aliased
  have heq := hchronicled.event_eq hl' hlent rfl rfl (congrArg Region.id hregion)
  obtain ⟨rfl, -⟩ := Event.lent.inj heq
  exact hout _ _ hboxed hid

/-! ## Boxing a region that is held -/

/-- Boxing with names that stand for something. -/
lemma perform_box_held (hc : s.contexts.get? context = some c) (hr : s.region? region = some r)
    (name : String) (t : ValueType) :
    ∃ w answer, Workspace.Boxes ⟨s.process, c⟩ t r (w, answer) ∧
      s.perform (.box context name t region) = match answer with
        | .ok o => (.ok o, (s.withWork context w).withObject name o)
        | .error e => (.error (.cause e), s.withWork context w) := by
  rcases s.perform_box context name t region with
    ⟨hnone | hnone, -⟩ | ⟨c', r', w, answer, hc', hr', hboxes, hp⟩
  · exact absurd (hnone.symm.trans hc) (by simp)
  · exact absurd (hnone.symm.trans hr) (by simp)
  · obtain rfl := Option.some.inj (hc'.symm.trans hc)
    obtain rfl := Option.some.inj (hr'.symm.trans hr)
    exact ⟨w, answer, hboxes, hp⟩

/-- A pending region gives the object that was lent. -/
lemma Runs.box_of_pending (hruns : start.Runs history s) (hc : s.contexts.get? context = some c)
    (hr : s.region? region = some r) (name : String)
    (hpending : s.Pending (logOf history) c.id r o) (hfits : s.FitsAt o t) :
    (s.perform (.box context name t region)).1 = .ok o := by
  have ho := (hruns.peek_iff_pending hc hr).mpr hpending
  obtain ⟨w, answer, hboxes, hp⟩ := perform_box_held hc hr name t
  cases hboxes with
  | lent ho' _ =>
      obtain rfl := Option.some.inj (ho'.symm.trans ho)
      rw [hp]
  | mismatch ho' hrecord hx hclass =>
      obtain rfl := Option.some.inj (ho'.symm.trans ho)
      rcases hfits with rfl | ⟨id, record, x, rfl, hrecord', hx', hmatches⟩
      · exact absurd hrecord (by simp [TypeStore.recordOf?])
      · obtain rfl := Option.some.inj (hrecord.symm.trans hrecord')
        obtain rfl := Option.some.inj (hx.symm.trans hx')
        exact absurd (hclass.symm.trans hmatches) (by simp)
  | unknown hnone | unsupported hnone | failed hnone | givenUp hnone | made hnone =>
      exact absurd (hnone.symm.trans ho) (by simp)

/-- Only a pending region gives an object, among those that show one. -/
lemma Runs.pending_of_box (hruns : start.Runs history s) (hc : s.contexts.get? context = some c)
    (hr : s.region? region = some r) {name : String} (haliased : r.isAliased = true)
    (hok : (s.perform (.box context name t region)).1 = .ok o) :
    s.Pending (logOf history) c.id r o := by
  obtain ⟨w, answer, hboxes, hp⟩ := perform_box_held hc hr name t
  rw [hp] at hok
  cases hboxes with
  | lent ho _ =>
      obtain rfl := Except.ok.inj hok
      exact (hruns.peek_iff_pending hc hr).mp ho
  | made _ _ hstorage =>
      exact absurd (haliased.symm.trans (Region.isAliased_eq_false hstorage)) (by simp)
  | mismatch | unknown | unsupported | failed | givenUp => exact absurd hok (by simp)

/-- A pending region does not come back as a record of another class. -/
lemma Runs.box_of_mismatch (hruns : start.Runs history s) (hc : s.contexts.get? context = some c)
    (hr : s.region? region = some r) (name : String) {id : TypeId} {record : RecordType}
    {x : ForeignObject} (hpending : s.Pending (logOf history) c.id r o)
    (hrecord : s.process.types.record? id = some record) (hx : s.process.heap.object? o = some x)
    (hclass : record.matches x.type = false) :
    s.perform (.box context name (.record id) region)
      = (.error (.cause (.classMismatch record.name (s.process.structs.textOf x.type))), s) := by
  have ho := (hruns.peek_iff_pending hc hr).mpr hpending
  obtain ⟨w, answer, hboxes, hp⟩ := perform_box_held hc hr name (.record id)
  rw [hp]
  cases hboxes with
  | lent ho' hmatches =>
      obtain rfl := Option.some.inj (ho'.symm.trans ho)
      exact absurd ((hmatches record x hrecord hx).symm.trans hclass) (by simp)
  | mismatch ho' hrecord' hx' _ =>
      obtain rfl := Option.some.inj (ho'.symm.trans ho)
      obtain rfl := Option.some.inj (hrecord'.symm.trans hrecord)
      obtain rfl := Option.some.inj (hx'.symm.trans hx)
      exact Prod.ext rfl (withWork_self hc)
  | unknown hnone | unsupported hnone | failed hnone | givenUp hnone | made hnone =>
      exact absurd (hnone.symm.trans ho) (by simp)

/-- A region that shows an object and is not pending does not come back. -/
lemma Runs.box_of_not_pending (hruns : start.Runs history s)
    (hc : s.contexts.get? context = some c) (hr : s.region? region = some r) (name : String)
    {address : Address} (haddress : r.address? = some address)
    (ht : t = .foreign ∨ ∃ id, t = .record id)
    (hnot : ∀ o, ¬ s.Pending (logOf history) c.id r o) :
    s.perform (.box context name t region)
      = (.error (.cause (.fault
          ("no live foreign object owns the representation at " ++ address.text))), s) := by
  have hpeek : ∀ o, c.ledger.peek s.process.heap.isAlive r.id ≠ some o :=
    fun o ho => hnot o ((hruns.peek_iff_pending hc hr).mp ho)
  obtain ⟨w, answer, hboxes, hp⟩ := perform_box_held hc hr name t
  have haliased : r.isAliased = true := by simp [Region.isAliased, haddress]
  rw [hp]
  cases hboxes with
  | lent ho | mismatch ho => exact absurd ho (hpeek _)
  | unknown _ haddress' _ =>
      obtain rfl := Option.some.inj (haddress'.symm.trans haddress)
      exact Prod.ext rfl (withWork_self hc)
  | unsupported _ hnone _ =>
      obtain ⟨hforeign, hrecord⟩ := hnone haliased
      rcases ht with rfl | ⟨id, rfl⟩
      · exact absurd rfl hforeign
      · exact absurd rfl (hrecord id)
  | failed _ howned _ _ | givenUp _ howned _ _ _ _ _ =>
      exact absurd (howned.symm.trans haliased) (by simp)
  | made _ _ hstorage =>
      exact absurd (haliased.symm.trans (Region.isAliased_eq_false hstorage)) (by simp)

/-- **There and back.**  After every run, let `r` be a region that somebody holds, in a loan or as a
copy, and let it be boxed in a context that is there.

* If the region is pending there, boxing it at a type that fits its object answers that object.
* If the region shows an object and boxing it succeeds, then the region is pending: the answer is
  the object of which it was lent in this context, and no context boxed it before.
* If the region is pending, and the type is a record of another class than its object's, boxing it
  is a class mismatch, and nothing changes.
* If the region shows an object and is not pending, boxing it at a record or as a foreign value is
  a fault that names the address, and nothing changes. -/
theorem Runs.round_trip (hruns : start.Runs history s) (hc : s.contexts.get? context = some c)
    (hr : s.region? region = some r) (name : String) :
    (∀ o t, s.Pending (logOf history) c.id r o → s.FitsAt o t →
      (s.perform (.box context name t region)).1 = .ok o) ∧
    (∀ o t, r.isAliased = true → (s.perform (.box context name t region)).1 = .ok o →
      s.Pending (logOf history) c.id r o ∧
        ∀ K r' o', .boxed K r' o' ∈ logOf history → r'.id ≠ r.id) ∧
    (∀ o id record x, s.Pending (logOf history) c.id r o →
      s.process.types.record? id = some record → s.process.heap.object? o = some x →
      record.matches x.type = false →
      s.perform (.box context name (.record id) region)
        = (.error (.cause (.classMismatch record.name (s.process.structs.textOf x.type))), s)) ∧
    (∀ t address, r.address? = some address → (t = .foreign ∨ ∃ id, t = .record id) →
      (∀ o, ¬ s.Pending (logOf history) c.id r o) →
      s.perform (.box context name t region)
        = (.error (.cause (.fault
            ("no live foreign object owns the representation at " ++ address.text))), s)) := by
  refine ⟨?_, ?_, ?_, ?_⟩
  · intro o t hpending hfits
    exact hruns.box_of_pending hc hr name hpending hfits
  · intro o t haliased hok
    have hpending := hruns.pending_of_box hc hr haliased hok
    exact ⟨hpending, fun K r' o' => hruns.notBoxed_of_pending hpending⟩
  · intro o id record x hpending hrecord hx hclass
    exact hruns.box_of_mismatch hc hr name hpending hrecord hx hclass
  · intro t address haddress ht hnot
    exact hruns.box_of_not_pending hc hr name haddress ht hnot

/-- The one object that was lent comes back. -/
theorem round_trip_lentOne :
    (lentOne.perform (.box "main" "w" .foreign (.lent "x"))).1 = .ok ⟨0⟩ := by
  obtain ⟨c, hc, ho⟩ : ∃ c, lentOne.contexts.get? "main" = some c ∧
      c.ledger.peek lentOne.process.heap.isAlive ⟨0⟩ = some ⟨0⟩ := ⟨_, rfl, rfl⟩
  obtain ⟨r, hr, hid⟩ : ∃ r, lentOne.region? (.lent "x") = some r ∧ r.id = ⟨0⟩ := ⟨_, rfl, rfl⟩
  have hpending := (runs_lentOne.peek_iff_pending hc hr).mp (hid ▸ ho)
  exact (runs_lentOne.round_trip hc hr "w").1 ⟨0⟩ .foreign hpending (.inl rfl)

end ForeignTypes.Session
