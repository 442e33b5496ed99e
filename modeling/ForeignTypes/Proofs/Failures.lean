import ForeignTypes.Proofs.Classes
import ForeignTypes.Proofs.References
import ForeignTypes.Proofs.RoundTrip

/-!
# What failures leave

Lending that fails changes nothing.  Boxing fails in several places, before and after the class of
an object is measured, and even after an object was made.  Still, what it leaves shows no
difference: at most the layout of a class was noted, and an object was made of which no reference is
left.  The foreign runtime tells of it only if it reported an error.

* `Process.Undisturbed` — a process in which nothing that is held or counted is different.
* `Workspace.box_error_cases` — the places in which boxing fails.
* **`Session.Runs.undisturbed`** — what lending and boxing leave if they fail.
-/

namespace ForeignTypes

/-! ## Processes -/

namespace Process

/-- Nothing that is declared, held or counted is different.  Notes of layouts may have been taken,
and objects made that are dead. -/
structure Undisturbed (p p' : Process) : Prop where
  decls : p'.structs.decls = p.structs.decls
  counting : p'.structs.counting = p.structs.counting
  types : p'.types = p.types
  refs : ∀ o, p'.heap.refs o = p.heap.refs o
  objects : ∀ o x, p.heap.object? o = some x → p'.heap.object? o = some x
  modules : p'.modules = p.modules
  regions : p'.regions = p.regions
  contexts : p'.contexts = p.contexts

variable {p : Process}

lemma Undisturbed.refl (p : Process) : p.Undisturbed p :=
  ⟨rfl, rfl, rfl, fun _ => rfl, fun _ _ hx => hx, rfl, rfl, rfl⟩

/-- Objects live on as they were. -/
lemma Undisturbed.decl? {p' : Process} (h : p.Undisturbed p') (id : StructId) :
    p'.structs.decl? id = p.structs.decl? id := by
  rw [StructTable.decl?, h.decls]
  rfl

/-- Classes go by the names they had, -/
lemma Undisturbed.nameOf {p' : Process} (h : p.Undisturbed p') (id : StructId) :
    p'.structs.nameOf id = p.structs.nameOf id := by
  simp only [StructTable.nameOf, h.decl?]

/-- and are of the modules they were of. -/
lemma Undisturbed.moduleOf {p' : Process} (h : p.Undisturbed p') (id : StructId) :
    p'.moduleOf id = p.moduleOf id := by
  simp only [Process.moduleOf, h.decl?]

/-- A search for a layout takes notes, and does nothing else. -/
lemma undisturbed_sizeOf (hsane : p.structs.Sane) (id : StructId) :
    p.Undisturbed (p.sizeOf id).1 where
  decls := StructTable.decls_layout hsane id
  counting := ((StructTable.grows_layout p.structs id) hsane).2.counting
  types := rfl
  refs := fun _ => rfl
  objects := fun _ _ hx => hx
  modules := rfl
  regions := rfl
  contexts := rfl

/-- An object that is made and given up leaves the others as they were. -/
lemma undisturbed_afterGivingUp (hsane : p.structs.Sane) (id : StructId) (bytes : List UInt8) :
    p.Undisturbed (p.afterGivingUp id bytes) := by
  obtain ⟨hdecls, hcounting, -⟩ := undisturbed_sizeOf hsane id
  have hrefs := p.heap.refs_alloc_release (.struct id) ((p.sizeOf id).1.moduleOf id) bytes
  have hlater : p.heap.Extends (p.afterGivingUp id bytes).heap :=
    (Heap.extends_alloc _ _ _ _).trans (Heap.extends_release _ _)
  exact ⟨hdecls, hcounting, rfl, hrefs, fun o x hx => hlater.object?_eq hrefs hx, rfl, rfl, rfl⟩

end Process

/-! ## The places in which boxing fails -/

/-- **Boxing fails** before anything was done, after the class was measured, or after an object was
constructed while an error was outstanding.  A class is blamed only if the ledger knows the
region. -/
theorem Workspace.box_error_cases {w w' : Workspace} {t : ValueType} {r : Region} {e : Error}
    (h : w.box t r = (w', .error e)) :
    (w' = w ∧ ∀ want found, e = .classMismatch want found →
      ∃ o, w.context.ledger.peek w.process.heap.isAlive r.id = some o) ∨
    (∃ id, w' = { w with process := (w.process.sizeOf id).1 } ∧
      ∀ want found, e ≠ .classMismatch want found) ∨
    ∃ id bytes message, w.process.construct id bytes
        = (w.process.afterConstruct id bytes, .ok w.process.heap.nextId) ∧
      w.process.foreign.outstanding = some message ∧ e = .fault message ∧
      w' = { w with process := w.process.afterGivingUp id bytes } := by
  rcases w.box_cases t r with ⟨o, -, -, hbox⟩ | ⟨e', hbox, hclass⟩ |
    ⟨id, record, bytes, -, -, -, -, hbox⟩
  · rw [hbox] at h
    exact absurd h (by simp)
  · obtain ⟨rfl, he⟩ := Prod.mk.inj (hbox.symm.trans h)
    obtain rfl := Except.error.inj he
    refine .inl ⟨rfl, fun want found he => ?_⟩
    obtain ⟨o, ho, -⟩ := hclass want found he
    exact ⟨o, ho⟩
  · have howned := w.boxesOwned record t bytes
    rw [← hbox, h] at howned
    cases howned with
    | unknown | shortOfRecord => exact .inl ⟨rfl, by simp⟩
    | @shortOfClass id => exact .inr (.inl ⟨id, rfl, by simp⟩)
    | @givenUp id message _ _ hn hmessage =>
        exact .inr (.inr ⟨id, bytes, message, Process.construct_of_le hn, hmessage, rfl, rfl⟩)

/-! ## After every run -/

namespace Session

variable {s : Session} {history : List Performed}

/-- What boxing leaves if it fails, whatever it is that fails. -/
lemma undisturbed_box (hsane : s.process.structs.Sane) {context name : String} {t : ValueType}
    {region : HeldRegion} {f : Failure}
    (h : (s.perform (.box context name t region)).1 = .error f) :
    ∃ process, (s.perform (.box context name t region)).2 = { s with process } ∧
      s.process.Undisturbed process ∧
      ((process.heap = s.process.heap ∧ process.foreign = s.process.foreign) ∨
        ∃ struct bytes made o message, s.process.construct struct bytes = (made, .ok o) ∧
          s.process.foreign.outstanding = some message ∧ f = .cause (.fault message) ∧
          process.foreign = ⟨none, s.process.foreign.constructed + 1⟩) := by
  rcases s.perform_box context name t region with ⟨-, f, hp⟩ | ⟨c, r, -, -, hc, hr, -, -⟩
  · rw [hp]
    exact ⟨s.process, rfl, .refl s.process, .inl ⟨rfl, rfl⟩⟩
  · rcases hbox : Workspace.box ⟨s.process, c⟩ t r with ⟨w, e | o⟩
    · rw [perform_box_error hc hr hbox] at h ⊢
      obtain rfl := Except.error.inj h
      rcases Workspace.box_error_cases hbox with ⟨rfl, -⟩ | ⟨id, rfl, -⟩ |
        ⟨id, bytes, message, hmake, hmessage, rfl, rfl⟩
      · exact ⟨s.process, withWork_context hc _, .refl s.process, .inl ⟨rfl, rfl⟩⟩
      · refine ⟨_, withWork_context hc _, Process.undisturbed_sizeOf hsane id, .inl ⟨rfl, rfl⟩⟩
      · refine ⟨_, withWork_context hc _, Process.undisturbed_afterGivingUp hsane id bytes, .inr ?_⟩
        exact ⟨id, bytes, _, _, message, hmake, hmessage, rfl, rfl⟩
    · rw [perform_box_ok hc hr hbox] at h
      exact absurd h (by simp)

/-- A class is blamed for a region that is pending, and nothing is changed. -/
lemma Runs.pending_of_classMismatch (hruns : start.Runs history s) {context name : String}
    {t : ValueType} {region : HeldRegion} {want found : String}
    (h : (s.perform (.box context name t region)).1 = .error (.cause (.classMismatch want found))) :
    (s.perform (.box context name t region)).2 = s ∧
      ∃ c r o, s.contexts.get? context = some c ∧ s.region? region = some r ∧
        s.Pending (logOf history) c.id r o := by
  obtain ⟨c, r, hc, hr⟩ := exists_of_box_cause h
  rcases hbox : Workspace.box ⟨s.process, c⟩ t r with ⟨w, e | o⟩
  · rw [perform_box_error hc hr hbox] at h ⊢
    obtain rfl := Failure.cause.inj (Except.error.inj h)
    rcases Workspace.box_error_cases hbox with ⟨rfl, hclass⟩ | ⟨id, -, hne⟩ |
      ⟨id, bytes, message, -, -, he, -⟩
    · obtain ⟨o, ho⟩ := hclass want found rfl
      exact ⟨withWork_self hc, c, r, o, hc, hr, (hruns.peek_iff_pending hc hr).mp ho⟩
    · exact absurd rfl (hne want found)
    · exact absurd he (by simp)
  · rw [perform_box_ok hc hr hbox] at h
    exact absurd h (by simp)

/-- **Failures leave the state as it is.**  After every run,

* lending that fails changes nothing;
* boxing that fails leaves everything that is held as it was, the contexts with all that they know,
  every count of references and every object; the foreign runtime is different only if an object was
  constructed while an error was outstanding, which is then the failure;
* boxing that fails because of a class changes nothing, and the region still gives the object that
  was lent at every type that fits it. -/
theorem Runs.undisturbed (hruns : start.Runs history s) :
    (∀ context name t object address f,
      (s.perform (.unbox context name t object address)).1 = .error f →
      (s.perform (.unbox context name t object address)).2 = s) ∧
    (∀ context name t region f, (s.perform (.box context name t region)).1 = .error f →
      ∃ process, (s.perform (.box context name t region)).2 = { s with process } ∧
        s.process.Undisturbed process ∧
        ((process.heap = s.process.heap ∧ process.foreign = s.process.foreign) ∨
          ∃ struct bytes made o message, s.process.construct struct bytes = (made, .ok o) ∧
            s.process.foreign.outstanding = some message ∧ f = .cause (.fault message) ∧
            process.foreign = ⟨none, s.process.foreign.constructed + 1⟩)) ∧
    ∀ context name t region want found,
      (s.perform (.box context name t region)).1 = .error (.cause (.classMismatch want found)) →
      (s.perform (.box context name t region)).2 = s ∧
      ∃ c r o, s.contexts.get? context = some c ∧ s.region? region = some r ∧
        s.Pending (logOf history) c.id r o ∧
        ∀ name' t', s.FitsAt o t' →
          ((s.perform (.box context name t region)).2.perform (.box context name' t' region)).1
            = .ok o := by
  obtain ⟨hsane, -⟩ := hruns.growsClasses sane_start
  refine ⟨fun context name t object address f h => unbox_error h, ?_, ?_⟩
  · intro context name t region f h
    exact undisturbed_box hsane h
  · intro context name t region want found h
    obtain ⟨hsame, c, r, o, hc, hr, hpending⟩ := hruns.pending_of_classMismatch h
    refine ⟨hsame, c, r, o, hc, hr, hpending, fun name' t' hfits => ?_⟩
    rw [hsame]
    exact hruns.box_of_pending hc hr name' hpending hfits

/-- The session in which a record was derived, and an object that is none was lent. -/
def lentOther : Session :=
  (((start.perform (.declareStruct "P" ⟨"Point", "native.records", none, some []⟩)).2.perform
    (.deriveRecord "main" "P" none)).2.perform (.makeScalar "v" .int32 [1, 0, 0, 0])).2.perform
    (.unbox "main" "x" .foreign "v" none) |>.2

/-- The object does not come back as a record, and comes back as a foreign value after that. -/
theorem undisturbed_lentOther :
    (lentOther.perform (.box "main" "w" (.record ⟨0⟩) (.lent "x"))).1
        = .error (.cause (.classMismatch "Point" "c_int32")) ∧
      ∃ o, ((lentOther.perform (.box "main" "w" (.record ⟨0⟩) (.lent "x"))).2.perform
        (.box "main" "w" .foreign (.lent "x"))).1 = .ok o := by
  have hruns := ((((Runs.nil (s := start)).cons
    (.declareStruct "P" ⟨"Point", "native.records", none, some []⟩)).cons
    (.deriveRecord "main" "P" none)).cons (.makeScalar "v" .int32 [1, 0, 0, 0])).cons
    (.unbox "main" "x" .foreign "v" none)
  have hclass : (lentOther.perform (.box "main" "w" (.record ⟨0⟩) (.lent "x"))).1
      = .error (.cause (.classMismatch "Point" "c_int32")) := rfl
  obtain ⟨-, c, r, o, -, -, -, hback⟩ := hruns.undisturbed.2.2 "main" "w" _ _ _ _ hclass
  exact ⟨hclass, o, hback "w" .foreign (.inl rfl)⟩

end Session

end ForeignTypes
