import ForeignTypes.Proofs.Readiness
import Mathlib.Data.Finset.Card
import Mathlib.Data.Finset.Dedup

/-!
# How deep modules run inside one another

A module that runs inside others is for a family that none of them is for, since theirs are marked.
Each level leaves one family fewer that is not ready, and no module brings a family that was not
known.  So a call that may go as deep as there are families always comes to an answer.

* `Process.moduleFamilies` — the families of the modules that were made, which no course changes.
* `Workspace.Fits` — as many levels are left as there are families that are not ready.
* **`Workspace.exists_ensureWithin`** — a call comes to an answer if it may go deep enough.
* **`Workspace.course_ensure`**, **`Workspace.course_typeOf`** — so every call from outside takes a
  course.
-/

namespace ForeignTypes

/-- The families that the support modules are for, in the order in which the modules were made. -/
def Process.moduleFamilies (p : Process) : List String := p.modules.map (·.family)

namespace Workspace

variable {w w' : Workspace} {family : String}

/-! ## The families that are known -/

lemma mem_families : family ∈ w.families
    ↔ (∃ s ∈ w.process.modules, s.family = family) ∨ w.IsProvided family := by
  rw [families, List.mem_eraseDups, List.mem_append, List.mem_map]
  refine or_congr Iff.rfl ?_
  rw [SupportRegistry.families, ← not_iff_not, ← Table.get?_eq_none]
  simp [IsProvided, SupportRegistry.contains, Table.contains]

/-- A module that counts its run is in all else what it was. -/
lemma map_modules_count {α : Type} {f : SupportModule → α}
    (hf : ∀ s run, f { s with starts := run } = f s) (w : Workspace) (m : ModuleId) (run : Nat) :
    (w.count m run).process.modules.map f = w.process.modules.map f := by
  refine List.ext_getElem? fun i => ?_
  simp only [count, List.getElem?_map, List.getElem?_modify]
  cases w.process.modules[i]? with
  | none => rfl
  | some s =>
      simp only [Option.map_some]
      split
      · exact congrArg some (hf s run)
      · rfl

lemma families_count (w : Workspace) (m : ModuleId) (run : Nat) :
    (w.count m run).families = w.families := by
  rw [families, map_modules_count (fun _ _ => rfl)]
  rfl

/-- A module that is provided was made before. -/
lemma families_provideModule (w : Workspace) (m : ModuleId) :
    (w.provideModule m).families ⊆ w.families := by
  intro family hfamily
  rw [provideModule] at hfamily
  cases hm : w.process.modules[m.index]? with
  | none => simpa [hm] using hfamily
  | some s =>
      simp only [hm] at hfamily
      rcases mem_families.mp hfamily with hmodule | hprovided
      · exact mem_families.mpr (.inl hmodule)
      · by_cases hs : s.family = family
        · exact mem_families.mpr (.inl ⟨s, List.mem_of_getElem? hm, hs⟩)
        · refine mem_families.mpr (.inr ?_)
          simpa [IsProvided, provide, SupportRegistry.contains, SupportRegistry.register,
            Table.contains, hs] using hprovided

lemma families_deriveRecord (w : Workspace) (id : StructId) :
    (w.deriveRecord id).1.families = w.families := by
  rw [deriveRecord]
  cases w.context.records.derive w.process.structs w.context.scalars w.process.types id with
  | error e => rfl
  | ok answer => rfl

/-- No course brings a family that was not known. -/
theorem Course.families_subset {account : List Happening} {r : Except Error Unit}
    (h : Course w account w' r) : w'.families ⊆ w.families := by
  induction h with
  | done w | refused w _ | unsupported _ | ready _ | mapped w s t => exact List.Subset.refl _
  | andThen _ _ ih ih' => exact List.Subset.trans ih' ih
  | forgiven _ ih => exact ih
  | noted _ _ _ ih => exact ih
  | counted w m run => rw [families_count]; exact List.Subset.refl _
  | provided w m => exact families_provideModule w m
  | derived w id => rw [families_deriveRecord]; exact List.Subset.refl _
  | @ran w w' path support p account r hbegin _ ih =>
      obtain ⟨-, -, rfl⟩ := SupportRegistry.begin_eq_some.mp hbegin
      cases r with
      | ok _ => exact ih
      | error e => exact ih

/-- Along every course, modules change in nothing but the count of their runs. -/
lemma Course.map_modules {α : Type} {f : SupportModule → α}
    (hf : ∀ s run, f { s with starts := run } = f s) {account : List Happening}
    {r : Except Error Unit} (h : Course w account w' r) :
    w'.process.modules.map f = w.process.modules.map f := by
  induction h with
  | done w | refused w _ | unsupported _ | ready _ | mapped w s t => rfl
  | andThen _ _ ih ih' => exact ih'.trans ih
  | forgiven _ ih => exact ih
  | noted _ _ _ ih => exact ih
  | counted w m run => exact map_modules_count hf w m run
  | provided w m => rw [process_provideModule]
  | derived w id => rw [modules_deriveRecord]
  | ran _ _ ih => rwa [process_settle]

/-- Every module is for the family that it was made for. -/
lemma Course.moduleFamilies {account : List Happening} {r : Except Error Unit}
    (h : Course w account w' r) : w'.process.moduleFamilies = w.process.moduleFamilies :=
  h.map_modules fun _ _ => rfl

/-! ## The families that are left -/

/-- The families among these that are not ready. -/
def unready (w : Workspace) (known : Finset String) : Finset String :=
  known.filter fun family => w.context.support.isReady family = false

/-- All families are among the known ones, and of those no more than `depth` are left. -/
structure Fits (known : Finset String) (depth : Nat) (w : Workspace) : Prop where
  families : ∀ family ∈ w.families, family ∈ known
  unready : (w.unready known).card ≤ depth

variable {known : Finset String} {depth : Nat}

lemma mem_unready : family ∈ w.unready known ↔ family ∈ known ∧ ¬w.IsReady family := by
  simp [unready, IsReady]

lemma Course.fits {account : List Happening} {r : Except Error Unit} (h : Course w account w' r)
    (hw : w.Fits known depth) : w'.Fits known depth := by
  refine ⟨fun family hfamily => hw.families family (h.families_subset hfamily), ?_⟩
  refine le_trans (Finset.card_le_card fun family hfamily => ?_) hw.unready
  obtain ⟨hknown, hleft⟩ := mem_unready.mp hfamily
  exact mem_unready.mpr ⟨hknown, fun hready => hleft (h.kept hready).1⟩

/-- A family that is marked is one fewer. -/
lemma Fits.begun {path : String} {support : SupportRegistry} {p : Provider}
    (hw : w.Fits known (depth + 1))
    (h : w.context.support.begin (familyOf path) = .ok (support, some p)) :
    (w.begun support (familyOf path)).Fits known depth := by
  obtain ⟨hready, hprovided⟩ := begin_spec h
  refine ⟨fun family hfamily => hw.families family ?_, Nat.lt_succ_iff.mp ?_⟩
  · obtain ⟨-, -, rfl⟩ := SupportRegistry.begin_eq_some.mp h
    exact hfamily
  · have hknown := hw.families _ (mem_families.mpr (.inr hprovided))
    refine lt_of_lt_of_le (Finset.card_lt_card ?_) hw.unready
    refine Finset.ssubset_iff_subset_ne.mpr ⟨fun family hfamily => ?_, fun heq => ?_⟩
    · obtain ⟨hmem, hleft⟩ := mem_unready.mp hfamily
      exact mem_unready.mpr ⟨hmem, fun hready => hleft ((isReady_begun h).mpr (.inr hready))⟩
    · have hmem := mem_unready.mpr ⟨hknown, hready⟩
      rw [← heq] at hmem
      exact (mem_unready.mp hmem).2 ((isReady_begun h).mpr (.inl rfl))

lemma Fits.exists_left (hw : w.Fits known depth) {path : String} {support : SupportRegistry}
    {p : Provider} (h : w.context.support.begin (familyOf path) = .ok (support, some p)) :
    depth ≠ 0 := by
  rintro rfl
  obtain ⟨hready, hprovided⟩ := begin_spec h
  have hknown := hw.families _ (mem_families.mpr (.inr hprovided))
  have hempty := Finset.card_eq_zero.mp (Nat.le_zero.mp hw.unready)
  exact absurd (mem_unready.mpr ⟨hknown, hready⟩) (by simp [hempty])

/-! ## Modules that come to an end -/

section Modules

variable {ensure : Ensure} {account : Account} (haccount : Accounted ensure account)
  (hensure : ∀ w path, w.Fits known depth → ∃ answer, ensure w path = some answer)

include hensure

lemma exists_typeOfWith (hw : w.Fits known depth) (module : String) (t : CType) :
    ∃ answer, typeOfWith ensure w module t = some answer := by
  obtain ⟨⟨w₁, e | ⟨⟩⟩, hasked⟩ := hensure w module hw
  · exact ⟨_, by rw [typeOfWith, hasked]⟩
  · exact ⟨_, by rw [typeOfWith, hasked]⟩

lemma exists_typeNotedWith (hw : w.Fits known depth) (family : String) (run : Nat)
    (module : String) (t : CType) :
    ∃ answer, typeNotedWith ensure family run w module t = some answer := by
  obtain ⟨answer, htyped⟩ := exists_typeOfWith hensure hw module t
  exact ⟨_, by rw [typeNotedWith, htyped]⟩

lemma exists_performWith (hw : w.Fits known depth) (family : String) (run : Nat) (a : Action) :
    ∃ answer, performWith ensure family run w a = some answer := by
  cases a with
  | mapScalar s t | provide m | fail message | failIn n message => exact ⟨_, rfl⟩
  | require path | invite path =>
      obtain ⟨answer, hasked⟩ := hensure w path hw
      exact ⟨_, by rw [performWith, hasked]⟩
  | typeStruct id => exact exists_typeNotedWith hensure hw family run _ _
  | typeObject module t => exact exists_typeNotedWith hensure hw family run module t

include haccount

lemma exists_runWith (hw : w.Fits known depth) (family : String) (run : Nat)
    (actions : List Action) : ∃ answer, runWith ensure family run w actions = some answer := by
  induction actions generalizing w with
  | nil => exact ⟨_, rfl⟩
  | cons a rest ih =>
      obtain ⟨⟨w₁, e | ⟨⟩⟩, hdone⟩ := exists_performWith hensure hw family run a
      · exact ⟨_, by rw [runWith, hdone]⟩
      · obtain ⟨answer, hrest⟩ := ih ((course_performWith haccount hdone).fits hw)
        exact ⟨answer, by rw [runWith, hdone]; exact hrest⟩

lemma exists_startWith (hw : w.Fits known depth) (p : Provider) :
    ∃ answer, startWith ensure w p = some answer := by
  cases p with
  | builtin => exact ⟨_, rfl⟩
  | scripted m =>
      cases hm : w.process.modules[m.index]? with
      | none => exact ⟨(w, .ok ()), by simp only [startWith, hm]⟩
      | some s =>
          rw [startWith_scripted hm]
          have hcounted := (Course.counted w m (s.starts + 1)).noted
            (.started s.family (s.starts + 1)) rfl
          exact exists_runWith haccount hensure (hcounted.fits hw) _ _ _

end Modules

/-- **A call comes to an answer** if as many levels are left as there are families that are not
ready: by induction on the levels, each of which is for a family that is marked there. -/
theorem exists_ensureWithin (hw : w.Fits known depth) (path : String) :
    ∃ answer, ensureWithin depth w path = some answer := by
  induction depth generalizing w path with
  | zero =>
      rcases hbegin : w.context.support.begin (familyOf path) with e | ⟨support, _ | p⟩
      · exact ⟨_, ensureWithin_error hbegin 0⟩
      · exact ⟨_, ensureWithin_ready hbegin 0⟩
      · exact absurd rfl (hw.exists_left hbegin)
  | succ depth ih =>
      rcases hbegin : w.context.support.begin (familyOf path) with e | ⟨support, _ | p⟩
      · exact ⟨_, ensureWithin_error hbegin _⟩
      · exact ⟨_, ensureWithin_ready hbegin _⟩
      · obtain ⟨answer, hstart⟩ := exists_startWith (course_ensureWithin depth)
          (fun w path hw => ih hw path) (hw.begun hbegin) p
        exact ⟨_, by rw [ensureWithin_succ hbegin, hstart]; rfl⟩

/-! ## Calls from outside -/

/-- What happens when a family is asked for from outside. -/
def account (w : Workspace) (path : String) : List Happening :=
  accountWithin w.families.length w path

lemma fits_families (w : Workspace) : w.Fits w.families.toFinset w.families.length := by
  refine ⟨fun family hfamily => List.mem_toFinset.mpr hfamily, ?_⟩
  exact (Finset.card_filter_le _ _).trans (List.toFinset_card_le _)

/-- **Asking for a family takes a course**; the call never comes to nothing. -/
theorem course_ensure (w : Workspace) (path : String) :
    Course w (w.account path) (w.ensure path).1 (w.ensure path).2 := by
  obtain ⟨answer, hasked⟩ := exists_ensureWithin w.fits_families path
  rw [ensure, hasked]
  exact course_ensureWithin _ w path _ _ hasked

/-- A family that is ready is ready at once. -/
lemma ensure_of_isReady {w : Workspace} {path : String}
    (h : w.context.support.isReady (familyOf path) = true) : w.ensure path = (w, .ok ()) := by
  rw [ensure, ensureWithin_ready (SupportRegistry.begin_eq_none.mpr ⟨h, rfl⟩)]

/-- What happens when the type of an object is asked for. -/
def accountOfObject (w : Workspace) (o : ObjectId) : List Happening :=
  match w.process.heap.object? o with
  | none => []
  | some x =>
    w.account x.module ++
      match w.ensure x.module with
      | (w', .ok ()) => w'.accountOfReady x.type
      | _ => []

/-- **Asking for the type of an object takes a course.** -/
theorem course_typeOf (w : Workspace) (o : ObjectId) :
    Course w (w.accountOfObject o) (w.typeOf o).1 ((w.typeOf o).2.map fun _ => ()) := by
  rw [typeOf, accountOfObject]
  cases w.process.heap.object? o with
  | none => exact .refused w (by simp)
  | some x =>
      have hcourse := course_ensure w x.module
      rcases hasked : w.ensure x.module with ⟨w', e | ⟨⟩⟩
      · rw [hasked] at hcourse
        simpa [hasked, Except.map] using hcourse
      · rw [hasked] at hcourse
        simpa only [hasked] using hcourse.andThen (course_typeOfReady w' x.type)

end Workspace

end ForeignTypes
