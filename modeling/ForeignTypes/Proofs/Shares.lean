import ForeignTypes.Proofs.Registrations

/-!
# Registrations put down to families

Support modules register scalars while they run, and a module may ask for other families meanwhile.
The registrations of a call can still be put down to the families whose modules made them, whatever
the modules do and however deep they run inside one another.  A family that is made ready has, as the
last of its registrations, all those of its script: its runs come one after the other, one that fails
registers a first part of the script, and there is none after the one that succeeds.

* `mappings`, **`Workspace.Course.scalars`** — what is registered along a course.
* `Process.scripts`, `Workspace.Planned` — what the modules of a family do, whichever runs.
* `Workspace.Serves`, `Workspace.Shares` — what a family registered between two workspaces.
* **`Workspace.sharesOut_ensureWithin`** — the registrations of every call, put down to families.
-/

namespace ForeignTypes

/-! ## Registrations -/

/-- The registration that happened, if it was one. -/
def Happening.mapping? : Happening → Option (CScalar × ValueType)
  | mapped _ s t => some (s, t)
  | derived _ _ | asked _ _ _ _ => none

/-- The registrations of an account, in order. -/
def mappings (account : List Happening) : List (CScalar × ValueType) :=
  account.filterMap Happening.mapping?

/-- The registration that an action makes itself, if it makes one. -/
def Action.mapping? : Action → Option (CScalar × ValueType)
  | mapScalar s t => some (s, t)
  | provide _ | require _ | invite _ | typeStruct _ | typeObject _ _ | fail _ | failIn _ _ => none

/-- The registrations that the actions of a module make themselves, in order. -/
def registrations (actions : List Action) : List (CScalar × ValueType) :=
  actions.filterMap Action.mapping?

@[simp]
lemma mappings_append (account account' : List Happening) :
    mappings (account ++ account') = mappings account ++ mappings account' :=
  List.filterMap_append

/-! ## Scripts -/

/-- The modules that were made: the family that each is for, and what it does. -/
def Process.scripts (p : Process) : List (String × List Action) :=
  p.modules.map fun s => (s.family, s.actions)

/-- What a provider does when it runs. -/
def Process.scriptOf (p : Process) : Provider → List Action
  | .builtin => []
  | .scripted m => (p.scripts[m.index]?).elim [] Prod.snd

namespace Workspace

variable {w w' w₁ w₂ : Workspace} {account account' : List Happening} {r r' : Except Error Unit}
  {family own : String}

/-- **Along every course a map grows by the registrations of the account.** -/
theorem Course.scalars (h : Course w account w' r) :
    w'.context.scalars = w.context.scalars.registerAll (mappings account) := by
  induction h with
  | done w | refused w _ | counted w m run | unsupported _ | ready _ | mapped w s t => rfl
  | andThen _ _ ih ih' =>
      rw [ih', ih, mappings_append, ScalarMap.registerAll_append]
  | forgiven _ ih => exact ih
  | noted _ _ _ ih => exact ih
  | provided w m => exact (leavesTyping_provideModule w m).scalars
  | derived w id => exact scalars_deriveRecord w id
  | @ran w w' path support p account r _ _ ih =>
      rw [(leavesTyping_settle w' (familyOf path) r).scalars, ih, mappings_append]
      exact congrArg _ (List.append_nil _).symm

/-- No module ever does anything else than what it was made for. -/
lemma Course.scripts (h : Course w account w' r) :
    w'.process.scripts = w.process.scripts :=
  h.map_modules fun _ _ => rfl

/-- The turns of a family are only added to. -/
lemma Course.turns_prefix (h : Course w account w' r) (family : String) :
    w.turns family <+: w'.turns family := by
  let R (w w' : Workspace) : Prop := w.turns family <+: w'.turns family
  have : IsTrans Workspace R := ⟨fun _ _ _ => List.IsPrefix.trans⟩
  refine rel (R := R) ?_ ?_ h
  · intro w w' hleft
    show w.turns family <+: w'.turns family
    rw [hleft.turns]
  · intro w w' path support p account r _ _ ih
    refine List.IsPrefix.trans ?_ (List.IsPrefix.trans ih ?_)
    · rw [turns_begun]
      exact List.prefix_append _ _
    · rw [turns_settle]
      exact List.prefix_append _ _

/-! ## Families that keep to a plan -/

/-- For these families there is a plan: it is what their providers do, and what the modules do that
some module may make their providers. -/
structure Planned (families : List String) (plan : String → List Action) (w : Workspace) :
    Prop where
  provided : ∀ family ∈ families, ∀ p, w.context.support.get? family = some p →
    w.process.scriptOf p = plan family
  promised : ∀ script ∈ w.process.scripts, ∀ m, .provide m ∈ script.2 →
    ∀ other, w.process.scripts[m.index]? = some other →
      other.1 ∈ families → other.2 = plan other.1

variable {families : List String} {plan : String → List Action}

/-- A plan for some families is one for fewer of them. -/
lemma Planned.of_subset {families' : List String} (h : w.Planned families plan)
    (hsubset : families' ⊆ families) : w.Planned families' plan where
  provided family hfamily := h.provided family (hsubset hfamily)
  promised script hscript m hm other hother hfamily :=
    h.promised script hscript m hm other hother (hsubset hfamily)

lemma Planned.of_eq (h : w.Planned families plan)
    (hscripts : w'.process.scripts = w.process.scripts)
    (hproviders : w'.context.support.providers = w.context.support.providers) :
    w'.Planned families plan where
  provided := by
    intro family hfamily p hp
    have hscript : w'.process.scriptOf p = w.process.scriptOf p := by
      cases p with
      | builtin => rfl
      | scripted m => simp only [Process.scriptOf, hscripts]
    rw [SupportRegistry.get?, hproviders] at hp
    rw [hscript]
    exact h.provided family hfamily p hp
  promised := hscripts ▸ h.promised

lemma Planned.record (h : w.Planned families plan) (event : SupportEvent) :
    (w.record event).Planned families plan :=
  h.of_eq rfl rfl

lemma Planned.deriveRecord (h : w.Planned families plan) (id : StructId) :
    (w.deriveRecord id).1.Planned families plan := by
  refine h.of_eq (Course.derived w id).scripts ?_
  rw [Workspace.deriveRecord]
  cases w.context.records.derive w.process.structs w.context.scalars w.process.types id with
  | error e => rfl
  | ok answer => rfl

lemma Planned.typeOfReady (h : w.Planned families plan) (t : CType) :
    (w.typeOfReady t).1.Planned families plan := by
  cases t with
  | struct id => exact h.deriveRecord id
  | void | scalar s | pointer t => exact h

/-- A module that is made a provider by another keeps to the plan. -/
lemma Planned.provideModule (h : w.Planned families plan) {script : String × List Action}
    (hscript : script ∈ w.process.scripts) {m : ModuleId} (hm : .provide m ∈ script.2) :
    (w.provideModule m).Planned families plan := by
  rw [Workspace.provideModule]
  cases hs : w.process.modules[m.index]? with
  | none => exact h
  | some s =>
      have hother : w.process.scripts[m.index]? = some (s.family, s.actions) := by
        rw [Process.scripts, List.getElem?_map, hs]
        rfl
      show (w.provide s.family (.scripted m)).Planned families plan
      refine ⟨fun family hfamily p hp => ?_, h.promised⟩
      have hprovider := (Table.get?_put w.context.support.providers s.family family _).symm.trans hp
      split at hprovider
      · next heq =>
          subst heq
          obtain rfl := Option.some.inj hprovider
          show (w.process.scripts[m.index]?).elim [] Prod.snd = _
          rw [hother]
          exact h.promised script hscript m hm _ hother hfamily
      · exact h.provided family hfamily p hprovider

lemma Planned.begun {path : String} {support : SupportRegistry} {p : Provider}
    (h : w.Planned families plan)
    (hbegin : w.context.support.begin (familyOf path) = .ok (support, some p)) :
    (w.begun support (familyOf path)).Planned families plan := by
  obtain ⟨-, -, rfl⟩ := SupportRegistry.begin_eq_some.mp hbegin
  exact h.of_eq rfl rfl

lemma Planned.settle (h : w.Planned families plan) (family : String) (r : Except Error Unit) :
    (w.settle family r).Planned families plan := by
  cases r with
  | ok _ => exact h.of_eq rfl rfl
  | error e => exact h.of_eq rfl rfl

/-! ## Registrations put down to families -/

/-- The registrations that are put down to a family. -/
def ofFamily (family : String) (shares : List (String × CScalar × ValueType)) :
    List (CScalar × ValueType) :=
  (shares.filter (·.1 = family)).map Prod.snd

@[simp]
lemma ofFamily_append (family : String) (shares shares' : List (String × CScalar × ValueType)) :
    ofFamily family (shares ++ shares') = ofFamily family shares ++ ofFamily family shares' := by
  simp [ofFamily]

/-- What a family registered between two workspaces: nothing without a turn, nothing that is not in
its script, and as the last of it all that is in the script if the family was made ready. -/
structure Serves (families : List String) (plan : String → List Action) (family : String)
    (w w' : Workspace) (calls : List (CScalar × ValueType)) : Prop where
  idle : w'.turns family = w.turns family → calls = []
  within : family ∈ families → calls ⊆ registrations (plan family)
  served : family ∈ families → ¬w.IsReady family → w'.IsReady family →
    registrations (plan family) <:+ calls

/-- The registrations of an account, each put down to one family. -/
def Shares (families : List String) (plan : String → List Action) (w w' : Workspace)
    (account : List Happening) : Prop :=
  ∃ shares, shares.map Prod.snd = mappings account ∧
    ∀ family, Serves families plan family w w' (ofFamily family shares)

/-- The same inside the run of one family, with what that family registered itself. -/
def SharesIn (families : List String) (plan : String → List Action) (own : String)
    (calls : List (CScalar × ValueType)) (w w' : Workspace) (account : List Happening) : Prop :=
  ∃ shares, shares.map Prod.snd = mappings account ∧ ofFamily own shares = calls ∧
    ∀ family, family ≠ own → Serves families plan family w w' (ofFamily family shares)

variable {calls calls' : List (CScalar × ValueType)}

/-- Nothing is registered where no family has a turn. -/
lemma Serves.of_unturned (h : w.Unturned w') : Serves families plan family w w' [] where
  idle := fun _ => rfl
  within := fun _ => List.nil_subset _
  served := fun _ hwaiting hready => absurd ((h.isReady_iff family).mp hready) hwaiting

lemma Serves.of_eq (h : Serves families plan family w w' calls)
    (hturns : w₁.turns family = w.turns family) (hready : w₁.IsReady family ↔ w.IsReady family)
    (hturns' : w₂.turns family = w'.turns family)
    (hready' : w₂.IsReady family ↔ w'.IsReady family) :
    Serves families plan family w₁ w₂ calls where
  idle := by
    rw [hturns, hturns']
    exact h.idle
  within := h.within
  served := by
    rw [hready, hready']
    exact h.served

/-- One thing after the other.  Once a family is ready it has no more turns, so that nothing comes
after its script. -/
lemma Serves.trans (hs : Serves families plan family w w₁ calls)
    (hs' : Serves families plan family w₁ w₂ calls') (h : Course w account w₁ r)
    (h' : Course w₁ account' w₂ r') : Serves families plan family w w₂ (calls ++ calls') where
  idle := by
    intro hturns
    have hfirst : w₁.turns family = w.turns family :=
      (hturns ▸ h'.turns_prefix family).eq_of_length_le (h.turns_prefix family).length_le
    rw [hs.idle hfirst, hs'.idle (hturns.trans hfirst.symm)]
    rfl
  within := fun hfamily => List.append_subset.mpr ⟨hs.within hfamily, hs'.within hfamily⟩
  served := by
    intro hfamily hwaiting hready
    by_cases hbetween : w₁.IsReady family
    · rw [hs'.idle (h'.kept hbetween).2, List.append_nil]
      exact hs.served hfamily hwaiting hbetween
    · exact (hs'.served hfamily hbetween hready).trans (List.suffix_append _ _)

lemma Shares.of_unturned (h : w.Unturned w') (hnone : mappings account = []) :
    Shares families plan w w' account :=
  ⟨[], hnone.symm, fun _ => .of_unturned h⟩

lemma Shares.noted (hs : Shares families plan w w' account) {event : SupportEvent}
    (hevent : event.turn? = none) : Shares families plan w (w'.record event) account := by
  obtain ⟨shares, hmap, hserves⟩ := hs
  have hunturned := unturned_record w' hevent
  exact ⟨shares, hmap, fun family => (hserves family).of_eq rfl Iff.rfl (hunturned.turns family)
    (hunturned.isReady_iff family)⟩

lemma Shares.trans (hs : Shares families plan w w₁ account)
    (hs' : Shares families plan w₁ w₂ account') (h : Course w account w₁ r)
    (h' : Course w₁ account' w₂ r') : Shares families plan w w₂ (account ++ account') := by
  obtain ⟨shares, hmap, hserves⟩ := hs
  obtain ⟨shares', hmap', hserves'⟩ := hs'
  refine ⟨shares ++ shares', ?_, fun family => ?_⟩
  · rw [List.map_append, hmap, hmap', mappings_append]
  · rw [ofFamily_append]
    exact (hserves family).trans (hserves' family) h h'

lemma SharesIn.trans (hs : SharesIn families plan own calls w w₁ account)
    (hs' : SharesIn families plan own calls' w₁ w₂ account') (h : Course w account w₁ r)
    (h' : Course w₁ account' w₂ r') :
    SharesIn families plan own (calls ++ calls') w w₂ (account ++ account') := by
  obtain ⟨shares, hmap, hown, hserves⟩ := hs
  obtain ⟨shares', hmap', hown', hserves'⟩ := hs'
  refine ⟨shares ++ shares', ?_, ?_, fun family hother => ?_⟩
  · rw [List.map_append, hmap, hmap', mappings_append]
  · rw [ofFamily_append, hown, hown']
  · rw [ofFamily_append]
    exact (hserves family hother).trans (hserves' family hother) h h'

/-- Nothing that is asked for inside the run of a family is put down to it. -/
lemma Shares.sharesIn (hs : Shares families plan w w' account) (h : Course w account w' r)
    (hown : w.IsReady own) : SharesIn families plan own [] w w' account := by
  obtain ⟨shares, hmap, hserves⟩ := hs
  exact ⟨shares, hmap, (hserves own).idle (h.kept hown).2, fun family _ => hserves family⟩

lemma sharesIn_nil (hown : w.IsReady own) : SharesIn families plan own [] w w [] :=
  (Shares.of_unturned (.of_eq rfl rfl) rfl).sharesIn (.done w) hown

/-! ## While modules run -/

/-- Whatever a call does, its registrations can be put down to families, and the plan stands. -/
def SharesOut (families : List String) (plan : String → List Action) (ensure : Ensure)
    (account : Account) : Prop :=
  ∀ w path w' r, ensure w path = some (w', r) → w.Planned families plan →
    w'.Planned families plan ∧ Shares families plan w w' (account w path)

section Modules

variable {ensure : Ensure} {account : Account} (haccount : Accounted ensure account)
  (hensure : SharesOut families plan ensure account)

include haccount hensure

lemma shares_typeOfWith (hw : w.Planned families plan) {module : String} {t : CType}
    {r : Except Error ValueType} (h : typeOfWith ensure w module t = some (w', r)) :
    w'.Planned families plan ∧
      Shares families plan w w' (accountOfTyping ensure account w module t) := by
  rw [typeOfWith] at h
  rw [accountOfTyping]
  rcases hasked : ensure w module with _ | ⟨w₁, e | ⟨⟩⟩
  · simp [hasked] at h
  · obtain ⟨hw₁, hshares⟩ := hensure _ _ _ _ hasked hw
    simp only [hasked, Option.some.injEq, Prod.mk.injEq] at h
    obtain ⟨rfl, -⟩ := h
    exact ⟨hw₁, by simpa using hshares⟩
  · obtain ⟨hw₁, hshares⟩ := hensure _ _ _ _ hasked hw
    simp only [hasked, Option.some.injEq] at h
    obtain rfl : (w₁.typeOfReady t).1 = w' := congrArg Prod.fst h
    refine ⟨hw₁.typeOfReady t, hshares.trans ?_ (haccount _ _ _ _ hasked) (course_typeOfReady w₁ t)⟩
    cases t with
    | struct id => exact .of_unturned (unturned_deriveRecord w₁ id) rfl
    | void | scalar s | pointer t => exact .of_unturned (.of_eq rfl rfl) rfl

lemma shares_typeNotedWith (hw : w.Planned families plan) {family module : String} {run : Nat}
    {t : CType} {r : Except Error Unit}
    (h : typeNotedWith ensure family run w module t = some (w', r)) :
    w'.Planned families plan ∧
      Shares families plan w w' (accountOfTyping ensure account w module t) := by
  rw [typeNotedWith] at h
  rcases htyped : typeOfWith ensure w module t with _ | ⟨w₁, r₁⟩
  · simp [htyped] at h
  · obtain ⟨hw₁, hshares⟩ := shares_typeOfWith haccount hensure hw htyped
    simp only [htyped, Option.some.injEq, Prod.mk.injEq] at h
    obtain ⟨rfl, -⟩ := h
    exact ⟨hw₁.record _, hshares.noted rfl⟩

/-- One thing that a module does in the run of a family: if it registers a scalar itself, that is
put down to the family. -/
lemma sharesIn_performWith (hw : w.Planned families plan) {script : String × List Action}
    (hscript : script ∈ w.process.scripts) {family : String} {run : Nat} {a : Action}
    (ha : a ∈ script.2) {r : Except Error Unit} (hown : w.IsReady own)
    (h : performWith ensure family run w a = some (w', r)) :
    w'.Planned families plan ∧ SharesIn families plan own (registrations [a]) w w'
      (accountOfAction ensure account w a) := by
  have hcourse := course_performWith haccount h
  cases a with
  | mapScalar s t =>
      obtain ⟨rfl, -⟩ := Prod.mk.inj (Option.some.inj h)
      refine ⟨hw.of_eq rfl rfl, [(own, s, t)], rfl, by simp [ofFamily, registrations,
        Action.mapping?], fun family hother => ?_⟩
      have hnone : ofFamily family [(own, s, t)] = [] := by simp [ofFamily, Ne.symm hother]
      rw [hnone]
      exact .of_unturned (.of_eq rfl rfl)
  | provide m =>
      obtain ⟨rfl, -⟩ := Prod.mk.inj (Option.some.inj h)
      refine ⟨hw.provideModule hscript ha, ?_⟩
      exact (Shares.of_unturned (unturned_provideModule w m) rfl).sharesIn hcourse hown
  | require path | invite path =>
      rw [performWith] at h
      rcases hasked : ensure w path with _ | ⟨w₁, r₁⟩
      · simp [hasked] at h
      · obtain ⟨hw₁, hshares⟩ := hensure _ _ _ _ hasked hw
        simp only [hasked, Option.some.injEq, Prod.mk.injEq] at h
        obtain ⟨rfl, -⟩ := h
        exact ⟨hw₁.record _, (hshares.noted rfl).sharesIn hcourse hown⟩
  | typeStruct id =>
      obtain ⟨hw', hshares⟩ := shares_typeNotedWith haccount hensure hw h
      exact ⟨hw', hshares.sharesIn hcourse hown⟩
  | typeObject module t =>
      obtain ⟨hw', hshares⟩ := shares_typeNotedWith haccount hensure hw h
      exact ⟨hw', hshares.sharesIn hcourse hown⟩
  | fail message | failIn n message =>
      obtain ⟨rfl, -⟩ := Prod.mk.inj (Option.some.inj h)
      exact ⟨hw, (Shares.of_unturned (.of_eq rfl rfl) rfl).sharesIn hcourse hown⟩

/-- The actions of a module: what is put down to the family is the first part of what they register,
and all of it if none fails. -/
lemma sharesIn_runWith (hw : w.Planned families plan) {script : String × List Action}
    (hscript : script ∈ w.process.scripts) {family : String} {run : Nat} {actions : List Action}
    (hactions : actions ⊆ script.2) {r : Except Error Unit} (hown : w.IsReady own)
    (h : runWith ensure family run w actions = some (w', r)) :
    w'.Planned families plan ∧ ∃ calls, calls <+: registrations actions ∧
      (r = .ok () → calls = registrations actions) ∧
      SharesIn families plan own calls w w'
        (accountOfActions ensure account family run w actions) := by
  induction actions generalizing w with
  | nil =>
      obtain ⟨rfl, -⟩ := Prod.mk.inj (Option.some.inj h)
      exact ⟨hw, [], List.nil_prefix, fun _ => rfl, sharesIn_nil hown⟩
  | cons a rest ih =>
      obtain ⟨ha, hrest⟩ := List.cons_subset.mp hactions
      have hsplit : registrations (a :: rest) = registrations [a] ++ registrations rest :=
        List.filterMap_append (l := [a])
      rw [runWith] at h
      rw [accountOfActions, hsplit]
      rcases hdone : performWith ensure family run w a with _ | ⟨w₁, e | ⟨⟩⟩
      · simp [hdone] at h
      · obtain ⟨hw₁, hfirst⟩ := sharesIn_performWith haccount hensure hw hscript ha hown hdone
        simp only [hdone, Option.some.injEq, Prod.mk.injEq] at h
        obtain ⟨rfl, rfl⟩ := h
        exact ⟨hw₁, _, List.prefix_append _ _, by simp, by simpa using hfirst⟩
      · obtain ⟨hw₁, hfirst⟩ := sharesIn_performWith haccount hensure hw hscript ha hown hdone
        have hcourse := course_performWith haccount hdone
        simp only [hdone] at h ⊢
        obtain ⟨hw', calls, hprefix, hall, hlater⟩ := ih hw₁ (hcourse.scripts ▸ hscript) hrest
          (hcourse.kept hown).1 h
        refine ⟨hw', _, (List.prefix_append_right_inj _).mpr hprefix, fun hr => by rw [hall hr],
          hfirst.trans hlater hcourse (course_runWith haccount h)⟩

/-- The run of a provider for a family that is marked. -/
lemma sharesIn_startWith (hw : w.Planned families plan) {p : Provider} {r : Except Error Unit}
    (hown : w.IsReady own) (h : startWith ensure w p = some (w', r)) :
    w'.Planned families plan ∧ ∃ calls, calls <+: registrations (w.process.scriptOf p) ∧
      (r = .ok () → calls = registrations (w.process.scriptOf p)) ∧
      SharesIn families plan own calls w w' (accountOfStart ensure account w p) := by
  cases p with
  | builtin =>
      obtain ⟨rfl, -⟩ := Prod.mk.inj (Option.some.inj h)
      exact ⟨hw, [], List.nil_prefix, fun _ => rfl, sharesIn_nil hown⟩
  | scripted m =>
      simp only [accountOfStart, Process.scriptOf, Process.scripts, List.getElem?_map]
      cases hm : w.process.modules[m.index]? with
      | none =>
          simp only [startWith, hm, Option.some.injEq, Prod.mk.injEq] at h
          obtain ⟨rfl, -⟩ := h
          exact ⟨hw, [], List.nil_prefix, fun _ => rfl, sharesIn_nil hown⟩
      | some s =>
          rw [startWith_scripted hm] at h
          have hcounted := (Course.counted w m (s.starts + 1)).noted
            (.started s.family (s.starts + 1)) rfl
          have hscript : (s.family, s.actions) ∈ w.process.scripts :=
            List.mem_map.mpr ⟨s, List.mem_of_getElem? hm, rfl⟩
          have hcountedw : ((w.count m (s.starts + 1)).record
              (.started s.family (s.starts + 1))).Planned families plan :=
            hw.of_eq hcounted.scripts rfl
          obtain ⟨hw', calls, hprefix, hall, hshares⟩ := sharesIn_runWith haccount hensure
            hcountedw (hcounted.scripts.symm ▸ hscript) (List.Subset.refl _)
            (hcounted.kept hown).1 h
          have hstart : SharesIn families plan own [] w ((w.count m (s.starts + 1)).record
              (.started s.family (s.starts + 1))) [] := by
            have hcount : Shares families plan w (w.count m (s.starts + 1)) [] :=
              .of_unturned (.of_eq rfl rfl) rfl
            exact (hcount.noted rfl).sharesIn hcounted hown
          refine ⟨hw', calls, hprefix, hall, ?_⟩
          exact hstart.trans hshares hcounted (course_runWith haccount h)

end Modules

/-- **The registrations of every call**, put down to families: by induction on the depth to which
modules run inside one another. -/
theorem sharesOut_ensureWithin (depth : Nat) :
    SharesOut families plan (ensureWithin depth) (accountWithin depth) := by
  induction depth using Nat.strongRecOn with
  | ind depth ih =>
      intro w path w' r h hw
      rcases ensureWithin_cases h with ⟨e, hbegin, rfl, rfl⟩ | ⟨support, hbegin, rfl, rfl⟩
        | ⟨support, p, lower, w₁, rfl, hbegin, hstart, rfl⟩
      · unfold accountWithin
        exact ⟨hw, .of_unturned (.of_eq rfl rfl) (by simp [hbegin, mappings, Happening.mapping?])⟩
      · unfold accountWithin
        exact ⟨hw, .of_unturned (.of_eq rfl rfl) (by simp [hbegin, mappings, Happening.mapping?])⟩
      · have hcourse := course_startWith (course_ensureWithin lower) hstart
        have hmarked : (w.begun support (familyOf path)).IsReady (familyOf path) :=
          (isReady_begun hbegin).mpr (.inl rfl)
        obtain ⟨hw₁, calls, hprefix, hall, shares, hmap, hown, hserves⟩ := sharesIn_startWith
          (course_ensureWithin lower) (ih lower (Nat.lt_succ_self lower)) (hw.begun hbegin) hmarked
          hstart
        have hscript : familyOf path ∈ families →
            (w.begun support (familyOf path)).process.scriptOf p = plan (familyOf path) :=
          fun hfamily => hw.provided _ hfamily p (SupportRegistry.begin_eq_some.mp hbegin).2.1
        refine ⟨hw₁.settle _ _, shares, ?_, fun family => ?_⟩
        · rw [hmap]
          simp [accountWithin, hbegin, h, mappings, Happening.mapping?]
        · by_cases hfamily : family = familyOf path
          · subst hfamily
            rw [hown]
            refine ⟨fun hturns => ?_, fun hfamily => ?_, fun hfamily _ hready => ?_⟩
            · -- the run had its turns
              rw [turns_settle, (hcourse.kept hmarked).2, turns_begun] at hturns
              exact absurd (congrArg List.length hturns) (by simp)
            · exact hscript hfamily ▸ hprefix.subset
            · rw [hall ((isReady_settle.mp hready).1 rfl), hscript hfamily]
          · refine (hserves family hfamily).of_eq ?_ ?_ ?_ ?_
            · simp [turns_begun, Ne.symm hfamily]
            · simp [isReady_begun hbegin, hfamily]
            · simp [turns_settle, Ne.symm hfamily]
            · simp [isReady_settle, hfamily]

end Workspace

end ForeignTypes
