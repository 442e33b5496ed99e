import ForeignTypes.Proofs.Simulation

/-!
# Where regions come from

A region is made once, when an object is lent or when native code makes bytes, and from then on it
is only copied.  Its identity is the number of regions that were made before it, so that no two
makings give the same.  Whoever has the identity of a region therefore has all of it: the bytes, or
the address and the length, are those of the one command that made it.

* `Performed.made?` — the region that a command made.
* `Performed.Lends`, `Performed.Brings` — what such a command did, of either kind.
* `Session.EverHeld` — the regions that somebody has, or had at some moment of a run.
* `Region.same` — the comparison of regions, wherever the storage of objects lies.
* `Session.Runs.index_eq` — no two commands of a run make regions of one identity.
* **`Session.Runs.identity_decides`** — regions of one identity are one region.
-/

namespace ForeignTypes

/-! ## Comparing regions -/

/-- The number of an address, where `place` says where the storage of each object lies.  Objects may
lie at the same place, one after the other. -/
def Address.numberAt (place : ObjectId → Nat) : Address → Nat
  | storage o => place o
  | number n => n

/-- Are the bytes in the same place, or, if they are in the regions themselves, the same? -/
def Storage.same (place : ObjectId → Nat) : Storage → Storage → Bool
  | aliased a n, aliased a' n' => a.numberAt place == a'.numberAt place && n == n'
  | owned bytes, owned bytes' => bytes == bytes'
  | aliased _ _, owned _ | owned _, aliased _ _ => false

/-- The comparison of regions: by identity and by storage. -/
def Region.same (place : ObjectId → Nat) (r r' : Region) : Bool :=
  r.id == r'.id && r.storage.same place r'.storage

lemma Region.same_self (place : ObjectId → Nat) (r : Region) : r.same place r = true := by
  rw [same]
  cases r.storage with
  | aliased a n => simp [Storage.same]
  | owned bytes => simp [Storage.same]

lemma Region.id_eq_of_same {place : ObjectId → Nat} {r r' : Region}
    (h : r.same place r' = true) : r.id = r'.id := by
  rw [same, Bool.and_eq_true, beq_iff_eq] at h
  exact h.1

/-! ## The command that made a region -/

namespace Performed

/-- The region that a command made, if it made one. -/
def made? (p : Performed) : Option Region := p.event?.bind Event.region?

/-- The command lent an object, and `r` is the region of the loan: it is at the address that the
foreign runtime reported, and as long as the object. -/
def Lends (p : Performed) (r : Region) : Prop :=
  ∃ context name t object address s loan refs o x,
    p = ⟨.unbox context name t object address, s⟩ ∧
    (s.perform (.unbox context name t object address)).1 = .ok (loan, refs) ∧
    loan.region = r ∧ loan.object = o ∧ s.objects.get? object = some o ∧
    s.process.heap.object? o = some x ∧
    r.storage = .aliased (s.reported address o) x.bytes.length

/-- The command had native code make bytes, and `r` is the region of them. -/
def Brings (p : Performed) (r : Region) : Prop :=
  ∃ name bytes s, p = ⟨.makeOwned name bytes, s⟩ ∧
    (s.perform (.makeOwned name bytes)).1 = .ok r ∧ r.storage = .owned bytes

variable {p : Performed} {r : Region}

/-- **A region is made in one of two ways.** -/
lemma lends_or_brings_of_made? (h : p.made? = some r) : p.Lends r ∨ p.Brings r := by
  obtain ⟨e, he, hr⟩ := Option.bind_eq_some_iff.mp h
  obtain ⟨c, s⟩ := p
  cases c with
  | unbox context name t object address =>
      left
      rcases s.perform_unbox context name t object address with
        ⟨f, hp⟩ | ⟨c, o, w, loan, hc, ho, hlends, hp⟩
      · rw [event?_of_error (congrArg Prod.fst hp)] at he
        exact absurd he (by simp)
      · rw [event?_unbox hc (congrArg Prod.fst hp)] at he
        obtain rfl := Option.some.inj he
        obtain rfl := Option.some.inj hr
        obtain ⟨x, hx, -, hregion⟩ := hlends.made
        refine ⟨context, name, t, object, address, s, loan, _, o, x, rfl, congrArg Prod.fst hp, rfl,
          hlends.object, ho, hx, ?_⟩
        rw [hregion]
  | makeOwned name bytes =>
      right
      obtain rfl := Option.some.inj he
      obtain rfl := Option.some.inj hr
      exact ⟨name, bytes, s, rfl, rfl, rfl⟩
  | box context name t region =>
      -- boxing brings an object back, and makes no region
      rcases s.perform_box context name t region with
        ⟨-, f, hp⟩ | ⟨c, r', w, answer, hc, hr', -, hp⟩
      · rw [event?_of_error (congrArg Prod.fst hp)] at he
        exact absurd he (by simp)
      · cases answer with
        | error e' =>
            rw [event?_of_error (congrArg Prod.fst hp)] at he
            exact absurd he (by simp)
        | ok o =>
            rw [event?_box hc hr' (congrArg Prod.fst hp)] at he
            obtain rfl := Option.some.inj he
            exact absurd hr (by simp [Event.region?])
  | _ => exact absurd he (by simp [event?])

lemma Lends.isAliased (h : p.Lends r) : r.isAliased = true := by
  obtain ⟨_, _, _, _, _, s, _, _, o, x, -, -, -, -, -, -, hstorage⟩ := h
  exact Region.isAliased_iff.mpr ⟨_, _, hstorage⟩

lemma Brings.isAliased (h : p.Brings r) : r.isAliased = false := by
  obtain ⟨_, bytes, _, -, -, hstorage⟩ := h
  exact Region.isAliased_eq_false hstorage

/-- The kind of a region tells in which of the two ways it was made. -/
lemma way_of_made? (h : p.made? = some r) :
    (r.isAliased = true → p.Lends r) ∧ (r.isAliased = false → p.Brings r) := by
  rcases lends_or_brings_of_made? h with hlends | hbrings
  · refine ⟨fun _ => hlends, fun howned => ?_⟩
    exact absurd (howned.symm.trans hlends.isAliased) (by simp)
  · refine ⟨fun haliased => ?_, fun _ => hbrings⟩
    exact absurd (haliased.symm.trans hbrings.isAliased) (by simp)

end Performed

/-! ## Regions that are held in a run -/

namespace Session

variable {s t : Session} {history : List Performed} {r r' : Region} {p q : Performed} {i j : Nat}

/-- Somebody holds the region, in a loan or as a copy: after the run, or when one of its commands
was performed. -/
def EverHeld (history : List Performed) (s : Session) (r : Region) : Prop :=
  (∃ region, s.region? region = some r) ∨
    ∃ p ∈ history, ∃ region, p.before.region? region = some r

/-- A command found a session that the run had led to before. -/
lemma Runs.exists_earlier (hruns : s.Runs history t) (hp : p ∈ history) :
    ∃ earlier, s.Runs earlier p.before ∧ earlier <:+ history := by
  induction hruns with
  | nil => exact absurd hp List.not_mem_nil
  | @cons history t hearlier α c ih =>
      rcases List.mem_cons.mp hp with rfl | hp
      · exact ⟨history, hearlier, List.suffix_cons _ _⟩
      · obtain ⟨earlier, hbefore, hsuffix⟩ := ih hp
        exact ⟨earlier, hbefore, hsuffix.trans (List.suffix_cons _ _)⟩

/-- **What is held was made by a command.** -/
lemma Runs.exists_made (hruns : start.Runs history s) (hr : EverHeld history s r) :
    ∃ p ∈ history, p.made? = some r := by
  obtain ⟨e, he, hre⟩ : ∃ e ∈ logOf history, e.region? = some r := by
    rcases hr with ⟨region, hr⟩ | ⟨p, hp, region, hr⟩
    · exact hruns.sound.recorded.made_of_hasRegion (hasRegion_of_region? _ hr)
    · -- what was held before is in the part of the log that was written by then
      obtain ⟨earlier, hbefore, hsuffix⟩ := hruns.exists_earlier hp
      obtain ⟨e, he, hre⟩ :=
        hbefore.sound.recorded.made_of_hasRegion (hasRegion_of_region? (logOf earlier) hr)
      exact ⟨e, (hsuffix.filterMap Performed.event?).subset he, hre⟩
  obtain ⟨p, hp, hpe⟩ := List.mem_filterMap.mp he
  exact ⟨p, hp, by rw [Performed.made?, hpe, Option.bind_some, hre]⟩

/-- The commands of a run make regions of different identities. -/
lemma Runs.pairwise_made (hruns : start.Runs history s) :
    history.Pairwise fun p q => ∀ r r', p.made? = some r → q.made? = some r' → r.id ≠ r'.id := by
  have hapart : (logOf history).Pairwise Books.Apart := hruns.sound.chronicled.apart
  refine (List.pairwise_filterMap.mp hapart).imp fun {p q} h r r' hr hr' => ?_
  obtain ⟨e, he, hre⟩ := Option.bind_eq_some_iff.mp hr
  obtain ⟨e', he', hre'⟩ := Option.bind_eq_some_iff.mp hr'
  exact h e he e' he' r r' hre hre'

/-- **An identity is given once**: two commands that made regions of one identity are one. -/
theorem Runs.index_eq (hruns : start.Runs history s) (hp : history[i]? = some p)
    (hq : history[j]? = some q) (hr : p.made? = some r) (hr' : q.made? = some r')
    (hid : r.id = r'.id) : i = j := by
  obtain ⟨hi, rfl⟩ := List.getElem?_eq_some_iff.mp hp
  obtain ⟨hj, rfl⟩ := List.getElem?_eq_some_iff.mp hq
  have hapart := List.pairwise_iff_getElem.mp hruns.pairwise_made
  rcases Nat.lt_trichotomy i j with hlt | heq | hgt
  · exact absurd hid (hapart i j hi hj hlt r r' hr hr')
  · exact heq
  · exact absurd hid.symm (hapart j i hj hi hgt r' r hr' hr)

/-- Regions of one identity that are held at any moments of a run are one region. -/
lemma Runs.region_eq (hruns : start.Runs history s) (hr : EverHeld history s r)
    (hr' : EverHeld history s r') (hid : r.id = r'.id) : r = r' := by
  obtain ⟨p, hp, hmade⟩ := hruns.exists_made hr
  obtain ⟨q, hq, hmade'⟩ := hruns.exists_made hr'
  obtain ⟨i, hi⟩ := List.getElem?_of_mem hp
  obtain ⟨j, hj⟩ := List.getElem?_of_mem hq
  obtain rfl := hruns.index_eq hi hj hmade hmade' hid
  obtain rfl := Option.some.inj (hi.symm.trans hj)
  exact Option.some.inj (hmade.symm.trans hmade')

/-- **Identity decides.**  Let `r` and `r'` be regions that somebody holds, after a run or at some
moment of it, in a loan or as a copy.

* They have one identity exactly if they are one region, and exactly if they compare as equal,
  wherever the storage of objects may lie.
* If one of them shows an object and the other is of native code, they have different identities.
* One command of the run made `r`, and no other command made a region of its identity.  If `r` shows
  an object, then the command lent that object, and `r` has the address that was reported then and
  the length of the object; otherwise the command made its bytes. -/
theorem Runs.identity_decides (hruns : start.Runs history s) (hr : EverHeld history s r)
    (hr' : EverHeld history s r') :
    (r.id = r'.id ↔ r = r') ∧
    (∀ place, r.same place r' = true ↔ r.id = r'.id) ∧
    (r.isAliased = true → r'.isAliased = false → r.id ≠ r'.id) ∧
    ∃ (i : Nat) (p : Performed), history[i]? = some p ∧
      (r.isAliased = true → p.Lends r) ∧ (r.isAliased = false → p.Brings r) ∧
      ∀ (j : Nat) (q : Performed) (r₀ : Region), history[j]? = some q → q.made? = some r₀ →
        r₀.id = r.id → j = i := by
  have heq : r.id = r'.id ↔ r = r' := ⟨hruns.region_eq hr hr', congrArg Region.id⟩
  refine ⟨heq, fun place => ⟨Region.id_eq_of_same, fun hid => ?_⟩, fun haliased howned hid => ?_, ?_⟩
  · rw [heq.mp hid]
    exact r'.same_self place
  · rw [heq.mp hid, howned] at haliased
    exact absurd haliased (by simp)
  · obtain ⟨p, hp, hmade⟩ := hruns.exists_made hr
    obtain ⟨i, hi⟩ := List.getElem?_of_mem hp
    obtain ⟨hlends, hbrings⟩ := Performed.way_of_made? hmade
    exact ⟨i, p, hi, hlends, hbrings, fun j q r₀ hj hr₀ hid => hruns.index_eq hj hi hr₀ hmade hid⟩

/-! ## One object, lent twice at one address -/

/-- The session in which an object is lent at a given address. -/
def lentAt : Session := (madeOne.perform (.unbox "main" "x" .foreign "v" (some 4096))).2

/-- The session in which the region was copied and its loan ended, and the object is lent again. -/
def lentAgain : Session :=
  (((lentAt.perform (.copyRegion "k" (.lent "x"))).2.perform (.dropLoan "x")).2.perform
    (.unbox "main" "y" .foreign "v" (some 4096))).2

/-- The first loan was there when its region was copied. -/
lemma runs_lentAgain : ∃ history, start.Runs history lentAgain ∧
    ⟨.copyRegion "k" (.lent "x"), lentAt⟩ ∈ history := by
  have hlent := ((Runs.nil (s := start)).cons (.makeScalar "v" .int32 [1, 0, 0, 0])).cons
    (.unbox "main" "x" .foreign "v" (some 4096))
  exact ⟨_, ((hlent.cons (.copyRegion "k" (.lent "x"))).cons (.dropLoan "x")).cons
    (.unbox "main" "y" .foreign "v" (some 4096)), .tail _ (.tail _ (.head _))⟩

/-- The copy is the region of the first loan, which has ended; the region of the second loan is
another one, though it is at the same address and of the same length. -/
theorem identity_decides_lentAgain : ∃ r₀ r r',
    lentAt.region? (.lent "x") = some r₀ ∧ lentAgain.region? (.kept "k") = some r ∧
      lentAgain.region? (.lent "y") = some r' ∧ r.storage = r'.storage ∧
      ∀ place, r.same place r₀ = true ∧ r.same place r' = false := by
  obtain ⟨history, hruns, hcopied⟩ := runs_lentAgain
  obtain ⟨r₀, hr₀, hid₀⟩ : ∃ r₀, lentAt.region? (.lent "x") = some r₀ ∧ r₀.id = ⟨0⟩ :=
    ⟨_, rfl, rfl⟩
  obtain ⟨r, hr, hid, hstorage⟩ : ∃ r, lentAgain.region? (.kept "k") = some r ∧ r.id = ⟨0⟩ ∧
      r.storage = .aliased (.number 4096) 4 := ⟨_, rfl, rfl, rfl⟩
  obtain ⟨r', hr', hid', hstorage'⟩ : ∃ r', lentAgain.region? (.lent "y") = some r' ∧
      r'.id = ⟨1⟩ ∧ r'.storage = .aliased (.number 4096) 4 := ⟨_, rfl, rfl, rfl⟩
  have hheld : EverHeld history lentAgain r := .inl ⟨_, hr⟩
  obtain ⟨-, hsame, -⟩ := hruns.identity_decides hheld (.inr ⟨_, hcopied, _, hr₀⟩)
  obtain ⟨-, hother, -⟩ := hruns.identity_decides hheld (.inl ⟨_, hr'⟩)
  refine ⟨r₀, r, r', hr₀, hr, hr', hstorage.trans hstorage'.symm, fun place => ⟨?_, ?_⟩⟩
  · exact (hsame place).mpr (hid.trans hid₀.symm)
  · rw [← Bool.not_eq_true, hother place, hid, hid']
    decide

end Session

end ForeignTypes
