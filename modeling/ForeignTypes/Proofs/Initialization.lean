import ForeignTypes.Proofs.Shares
import ForeignTypes.Proofs.Typing

/-!
# Modules that register scalars

Support modules run in the order in which families are asked for; a module may ask for others, and
one that failed may run again.  Still the order leaves no trace where each scalar is left to the
module of one family: what counts of a scalar is then what one script says, and maps that map alike
are one.

* `Workspace.ensureAll`, `Workspace.Initializes` — families that are asked for one by one.
* `Workspace.Apart` — each scalar is left to one family.
* **`Workspace.Initializes.last?`** — what counts of each scalar.
* **`Workspace.initializes_of_plain`** — modules that register scalars and do nothing else.
* **`Workspace.registrations_in_any_order`** — the order of registrations leaves no trace.
-/

namespace ForeignTypes

namespace Workspace

variable {w w' : Workspace} {r : Except Error Unit} {family : String} {account : List Happening}
  {families : List String} {plan : String → List Action}

/-! ## Families that are asked for one by one -/

/-- Ask for the families of these modules one by one, whatever the answers are. -/
def ensureAll (w : Workspace) (paths : List String) : Workspace :=
  paths.foldl (fun w path => (w.ensure path).1) w

/-- What happens then. -/
def accountOfAll : Workspace → List String → List Happening
  | _, [] => []
  | w, path :: paths => w.account path ++ accountOfAll (w.ensure path).1 paths

lemma course_passed (h : Course w account w' r) : Course w account w' (.ok ()) := by
  cases r with
  | ok _ => exact h
  | error e => exact h.forgiven

theorem course_ensureAll (w : Workspace) (paths : List String) :
    Course w (accountOfAll w paths) (w.ensureAll paths) (.ok ()) := by
  induction paths generalizing w with
  | nil => exact .done w
  | cons path paths ih => exact (course_passed (course_ensure w path)).andThen (ih _)

lemma shares_ensure (hw : w.Planned families plan) (path : String) :
    (w.ensure path).1.Planned families plan ∧
      Shares families plan w (w.ensure path).1 (w.account path) := by
  obtain ⟨⟨w', r⟩, hasked⟩ := exists_ensureWithin w.fits_families path
  rw [ensure, hasked]
  exact sharesOut_ensureWithin _ w path w' r hasked hw

/-- **The registrations of many calls**, put down to families. -/
theorem shares_ensureAll (hw : w.Planned families plan) (paths : List String) :
    (w.ensureAll paths).Planned families plan ∧
      Shares families plan w (w.ensureAll paths) (accountOfAll w paths) := by
  induction paths generalizing w with
  | nil => exact ⟨hw, .of_unturned (.of_eq rfl rfl) rfl⟩
  | cons path paths ih =>
      obtain ⟨hw₁, hfirst⟩ := shares_ensure hw path
      obtain ⟨hw', hrest⟩ := ih hw₁
      exact ⟨hw', hfirst.trans hrest (course_ensure w path) (course_ensureAll _ paths)⟩

/-- Asking for the families of these modules makes these families ready, and starts no others. -/
structure Initializes (w : Workspace) (paths : List String) (families : List String) : Prop where
  ready : ∀ family ∈ families, (w.ensureAll paths).IsReady family
  others : ∀ family, family ∉ families → (w.ensureAll paths).turns family = w.turns family

/-- Each scalar is left to one of these families. -/
def Apart (families : List String) (plan : String → List Action) : Prop :=
  ∀ family ∈ families, ∀ other ∈ families, family ≠ other →
    ((registrations (plan family)).map Prod.fst).Disjoint
      ((registrations (plan other)).map Prod.fst)

lemma Apart.of_subset {families' : List String} (h : Apart families plan)
    (hsubset : families' ⊆ families) : Apart families' plan :=
  fun family hfamily other hother => h family (hsubset hfamily) other (hsubset hother)

/-! ### What counts of each scalar -/

/-- Where one family alone registers a scalar, what is registered last for it is what that family
registers last. -/
lemma last?_ofFamily {shares : List (String × CScalar × ValueType)} {s : CScalar}
    (h : ∀ share ∈ shares, share.2.1 = s → share.1 = family) :
    Table.last? s (shares.map Prod.snd) = Table.last? s (ofFamily family shares) := by
  induction shares using List.reverseRecOn with
  | nil => rfl
  | append_singleton shares share ih =>
      have ih := ih fun share' hshare' => h share' (List.mem_append_left _ hshare')
      have hlast := h share (List.mem_append_right _ List.mem_cons_self)
      rw [List.map_append, List.map_singleton, Table.last?_concat, ih, ofFamily_append]
      by_cases hfamily : share.1 = family
      · have hone : ofFamily family [share] = [share.2] := by simp [ofFamily, hfamily]
        rw [hone, Table.last?_concat]
      · have hnone : ofFamily family [share] = [] := by simp [ofFamily, hfamily]
        rw [hnone, List.append_nil, if_neg fun heq => hfamily (hlast heq)]

lemma last?_of_suffix {rows rows' : List (CScalar × ValueType)} {s : CScalar}
    (h : rows <:+ rows') (hs : s ∈ rows.map Prod.fst) :
    Table.last? s rows' = Table.last? s rows := by
  obtain ⟨earlier, rfl⟩ := h
  rw [Table.last?_append]
  cases hlast : Table.last? s rows with
  | none => exact absurd hs (Table.last?_eq_none.mp hlast)
  | some t => rfl

variable {paths paths' : List String}

/-- Everything that is registered stands in the script of a family that was made ready. -/
lemma Initializes.share (h : w.Initializes paths families)
    {shares : List (String × CScalar × ValueType)} (hserves : ∀ family,
      Serves families plan family w (w.ensureAll paths) (ofFamily family shares))
    {share : String × CScalar × ValueType} (hshare : share ∈ shares) :
    share.1 ∈ families ∧ ¬w.IsReady share.1 ∧ share.2 ∈ registrations (plan share.1) := by
  have hmem : share.2 ∈ ofFamily share.1 shares :=
    List.mem_map.mpr ⟨share, List.mem_filter.mpr ⟨hshare, by simp⟩, rfl⟩
  have hturned : (w.ensureAll paths).turns share.1 ≠ w.turns share.1 := by
    intro hturns
    rw [(hserves share.1).idle hturns] at hmem
    exact absurd hmem List.not_mem_nil
  have hfamily : share.1 ∈ families := by_contra fun hnot => hturned (h.others _ hnot)
  refine ⟨hfamily, fun hready => ?_, (hserves share.1).within hfamily hmem⟩
  exact hturned ((course_ensureAll w paths).kept hready).2

/-- **What counts of each scalar** is what the one script says of which it is part, if that is the
script of a family that was made ready. -/
theorem Initializes.last? (h : w.Initializes paths families) (hw : w.Planned families plan)
    (hapart : Apart families plan) (s : CScalar) :
    (∀ family ∈ families, ¬w.IsReady family → s ∈ (registrations (plan family)).map Prod.fst →
      Table.last? s (mappings (accountOfAll w paths))
        = Table.last? s (registrations (plan family))) ∧
    ((∀ family ∈ families, ¬w.IsReady family →
        s ∉ (registrations (plan family)).map Prod.fst) →
      Table.last? s (mappings (accountOfAll w paths)) = none) := by
  obtain ⟨-, shares, hmap, hserves⟩ := shares_ensureAll hw paths
  rw [← hmap]
  refine ⟨fun family hfamily hwaiting hs => ?_, fun hnone => Table.last?_eq_none.mpr fun hs => ?_⟩
  · have hsole : ∀ share ∈ shares, share.2.1 = s → share.1 = family := by
      intro share hshare heq
      obtain ⟨hother, -, hmem⟩ := h.share hserves hshare
      by_contra hne
      exact hapart _ hother _ hfamily hne (heq ▸ List.mem_map_of_mem hmem) hs
    rw [last?_ofFamily hsole]
    exact last?_of_suffix ((hserves family).served hfamily hwaiting (h.ready family hfamily)) hs
  · rw [List.map_map] at hs
    obtain ⟨share, hshare, rfl⟩ := List.mem_map.mp hs
    obtain ⟨hfamily, hwaiting, hmem⟩ := h.share hserves hshare
    exact hnone _ hfamily hwaiting (List.mem_map_of_mem hmem)

/-- **In whatever order families are made ready**, the maps are the same. -/
theorem Initializes.scalars_eq (h : w.Initializes paths families)
    (h' : w.Initializes paths' families) (hw : w.Planned families plan)
    (hapart : Apart families plan) (hgrown : w.context.scalars.Grown) :
    (w.ensureAll paths).context.scalars = (w.ensureAll paths').context.scalars := by
  rw [(course_ensureAll w paths).scalars, (course_ensureAll w paths').scalars]
  refine (hgrown.registerAll _).ext (hgrown.registerAll _) ?_ fun s => ?_
  · rw [ScalarMap.policy_registerAll, ScalarMap.policy_registerAll]
  · obtain ⟨hsome, hnone⟩ := h.last? hw hapart s
    obtain ⟨hsome', hnone'⟩ := h'.last? hw hapart s
    rw [ScalarMap.toValueType?_registerAll, ScalarMap.toValueType?_registerAll]
    by_cases hs : ∃ family ∈ families, ¬w.IsReady family ∧
        s ∈ (registrations (plan family)).map Prod.fst
    · obtain ⟨family, hfamily, hwaiting, hs⟩ := hs
      rw [hsome family hfamily hwaiting hs, hsome' family hfamily hwaiting hs]
    · have hnot : ∀ family ∈ families, ¬w.IsReady family →
          s ∉ (registrations (plan family)).map Prod.fst :=
        fun family hfamily hwaiting hmem => hs ⟨family, hfamily, hwaiting, hmem⟩
      rw [hnone hnot, hnone' hnot]

/-! ### Modules that do nothing else -/

/-- These actions register scalars and do nothing else. -/
def Plain (actions : List Action) : Prop := ∀ a ∈ actions, ∃ s t, a = .mapScalar s t

lemma runWith_plain {ensure : Ensure} {run : Nat} {actions : List Action}
    (hplain : Plain actions) (h : runWith ensure family run w actions = some (w', r)) :
    r = .ok () ∧ w.Unturned w' := by
  induction actions generalizing w with
  | nil =>
      obtain ⟨rfl, rfl⟩ := Prod.mk.inj (Option.some.inj h)
      exact ⟨rfl, .of_eq rfl rfl⟩
  | cons a rest ih =>
      obtain ⟨s, t, rfl⟩ := hplain a List.mem_cons_self
      obtain ⟨hr, hrest⟩ := ih (fun a ha => hplain a (List.mem_cons_of_mem _ ha)) h
      have hmapped : w.Unturned (w.mapScalar s t) := .of_eq rfl rfl
      exact ⟨hr, hmapped.trans hrest⟩

lemma startWith_plain {ensure : Ensure} {p : Provider} (hplain : Plain (w.process.scriptOf p))
    (h : startWith ensure w p = some (w', r)) : r = .ok () ∧ w.Unturned w' := by
  cases p with
  | builtin =>
      obtain ⟨rfl, rfl⟩ := Prod.mk.inj (Option.some.inj h)
      exact ⟨rfl, .of_eq rfl rfl⟩
  | scripted m =>
      cases hm : w.process.modules[m.index]? with
      | none =>
          simp only [startWith, hm, Option.some.injEq, Prod.mk.injEq] at h
          obtain ⟨rfl, rfl⟩ := h
          exact ⟨rfl, .of_eq rfl rfl⟩
      | some s =>
          have hactions : w.process.scriptOf (.scripted m) = s.actions := by
            rw [Process.scriptOf, Process.scripts, List.getElem?_map, hm]
            rfl
          rw [startWith_scripted hm] at h
          obtain ⟨hr, hrun⟩ := runWith_plain (hactions ▸ hplain) h
          have hcount : w.Unturned (w.count m (s.starts + 1)) := .of_eq rfl rfl
          exact ⟨hr, (hcount.trans (unturned_record _ rfl)).trans hrun⟩

/-- A family whose module does nothing else is ready when it was asked for, and no other has a
turn. -/
lemma ensure_plain {path : String} {p : Provider}
    (hp : w.context.support.get? (familyOf path) = some p)
    (hplain : Plain (w.process.scriptOf p)) :
    (w.ensure path).1.IsReady (familyOf path) ∧
      ∀ family, family ≠ familyOf path → (w.ensure path).1.turns family = w.turns family := by
  obtain ⟨⟨w', r⟩, hasked⟩ := exists_ensureWithin w.fits_families path
  rw [ensure, hasked]
  rcases ensureWithin_cases hasked with ⟨e, hbegin, -, -⟩ | ⟨support, hbegin, rfl, rfl⟩
    | ⟨support, p', lower, w₁, -, hbegin, hstart, rfl⟩
  · obtain ⟨-, hnone, -⟩ := SupportRegistry.begin_eq_error.mp hbegin
    exact absurd (hnone.symm.trans hp) (by simp)
  · exact ⟨(SupportRegistry.begin_eq_none.mp hbegin).1, fun family _ => rfl⟩
  · obtain ⟨-, hp', rfl⟩ := SupportRegistry.begin_eq_some.mp hbegin
    obtain rfl := Option.some.inj (hp'.symm.trans hp)
    have hbegun : Plain ((w.begun (w.context.support.mark (familyOf path))
        (familyOf path)).process.scriptOf p') := hplain
    obtain ⟨rfl, hunturned⟩ := startWith_plain hbegun hstart
    refine ⟨isReady_settle.mpr ⟨fun _ => rfl, ?_⟩, fun family hother => ?_⟩
    · exact (hunturned.isReady_iff _).mpr ((isReady_begun hbegin).mpr (.inl rfl))
    · rw [turns_settle, if_neg (Ne.symm hother), List.append_nil, hunturned.turns, turns_begun,
        if_neg (Ne.symm hother), List.append_nil]

/-- **Families whose modules do nothing else can be asked for in any order.** -/
theorem initializes_of_plain (hw : w.Planned families plan)
    (hfamilies : ∀ family ∈ families, w.IsProvided family ∧ Plain (plan family))
    (hpaths : ∀ path ∈ paths, familyOf path ∈ families) :
    w.Initializes paths (paths.map familyOf) := by
  induction paths generalizing w with
  | nil => exact ⟨fun family hfamily => absurd hfamily List.not_mem_nil, fun family _ => rfl⟩
  | cons path paths ih =>
      have hpath := hpaths path List.mem_cons_self
      obtain ⟨hprovided, hplain⟩ := hfamilies _ hpath
      obtain ⟨p, hp⟩ := Option.isSome_iff_exists.mp hprovided
      obtain ⟨hready, hothers⟩ := ensure_plain hp (hw.provided _ hpath p hp ▸ hplain)
      have hrest := ih (shares_ensure hw path).1
        (fun family hfamily => ⟨(course_ensure w path).provided_of (hfamilies family hfamily).1,
          (hfamilies family hfamily).2⟩)
        (fun path hmem => hpaths path (List.mem_cons_of_mem _ hmem))
      refine ⟨fun family hfamily => ?_, fun family hfamily => ?_⟩
      · rcases List.mem_cons.mp hfamily with rfl | hfamily
        · exact ((course_ensureAll _ paths).kept hready).1
        · exact hrest.ready family hfamily
      · obtain ⟨hother, hlater⟩ := not_or.mp (fun h => hfamily (List.mem_cons.mpr h))
        exact (hrest.others family hlater).trans (hothers family hother)

/-! ## In any order -/

/-- **The order of registrations leaves no trace** but in what comes last for each scalar.

* Take any registrations on top of a built-in map, and others of the same scalars with the same type
  last for each.  The entries of the two maps are equal, and so are both ways across.
* Take a context and families with a plan that leaves each scalar to one of them.  Ask for families
  in two orders, each of which makes these families ready and starts no others, whatever else their
  modules do: every type is carried across alike.
* If their modules register scalars and do nothing else, every order does so. -/
theorem registrations_in_any_order :
    (∀ (policy : ReversePolicy) (calls calls' : List (CScalar × ValueType)),
      (∀ s, s ∈ calls.map Prod.fst ↔ s ∈ calls'.map Prod.fst) →
      (∀ s ∈ calls.map Prod.fst, Table.last? s calls = Table.last? s calls') →
      let m := (ScalarMap.builtin policy).registerAll calls
      let m' := (ScalarMap.builtin policy).registerAll calls'
      m.entries.rows = m'.entries.rows ∧ (∀ s, m.toValueType? s = m'.toValueType? s) ∧
        ∀ t, m.toScalar? t = m'.toScalar? t) ∧
    (∀ (w : Workspace) (families : List String) (plan : String → List Action),
      w.context.scalars.Grown → w.Planned families plan → Apart families plan →
      (∀ paths paths', w.Initializes paths families → w.Initializes paths' families →
        let w₁ := w.ensureAll paths
        let w₂ := w.ensureAll paths'
        w₁.context.scalars = w₂.context.scalars ∧
          (∀ n, w₁.resolveCType n = w₂.resolveCType n) ∧
          ∀ t n, w₁.resolveValueType t = .ok n ↔ w₂.resolveValueType t = .ok n) ∧
      ((∀ family ∈ families, w.IsProvided family ∧ Plain (plan family)) →
        ∀ paths, (∀ family, family ∈ families ↔ family ∈ paths.map familyOf) →
          w.Initializes paths families)) := by
  refine ⟨fun policy calls calls' hsame hlast => ?_, fun w families plan hgrown hw hapart =>
    ⟨fun paths paths' h h' => ?_, fun hfamilies paths hpaths => ?_⟩⟩
  · have hboth : (ScalarMap.builtin policy).registerAll calls
        = (ScalarMap.builtin policy).registerAll calls' := by
      have hbuiltin := ScalarMap.Grown.builtin policy
      refine (hbuiltin.registerAll calls).ext (hbuiltin.registerAll calls') ?_ fun s => ?_
      · rw [ScalarMap.policy_registerAll, ScalarMap.policy_registerAll]
      · rw [ScalarMap.toValueType?_registerAll, ScalarMap.toValueType?_registerAll]
        by_cases hs : s ∈ calls.map Prod.fst
        · rw [hlast s hs]
        · rw [Table.last?_eq_none.mpr hs, Table.last?_eq_none.mpr (mt (hsame s).mpr hs)]
    intro m m'
    have heq : m = m' := hboth
    rw [heq]
    exact ⟨rfl, fun _ => rfl, fun _ => rfl⟩
  · have hscalars := h.scalars_eq h' hw hapart hgrown
    have hstructs := ((course_ensureAll w paths).spares).structs.trans
      ((course_ensureAll w paths').spares).structs.symm
    refine ⟨hscalars, fun n => ?_, fun t n => ?_⟩
    · rw [resolveCType, resolveCType, hscalars, hstructs]
    · rw [resolveValueType_eq_ok_iff, resolveValueType_eq_ok_iff, hscalars]
  · have hplain := initializes_of_plain hw hfamilies fun path hpath =>
      (hpaths _).mpr (List.mem_map_of_mem hpath)
    exact ⟨fun family hfamily => hplain.ready family ((hpaths family).mp hfamily),
      fun family hnot => hplain.others family (mt (hpaths family).mpr hnot)⟩

/-! ### Two orders -/

/-- Two modules that register a scalar each, and the first of which asks for the other. -/
def leaningPair : Workspace :=
  let modules := [⟨"a", [.mapScalar .int32 .bool, .require "b"], 0⟩,
    ⟨"b", [.mapScalar .int64 .float64], 0⟩]
  (provideModule ⟨{ modules }, .new ⟨0⟩ {}⟩ ⟨0⟩).provideModule ⟨1⟩

def leaningPlan (family : String) : List Action :=
  if family = "a" then [.mapScalar .int32 .bool, .require "b"] else [.mapScalar .int64 .float64]

lemma planned_leaningPair : leaningPair.Planned ["a", "b"] leaningPlan where
  provided := by
    intro family hfamily p hp
    rcases List.mem_pair.mp hfamily with rfl | rfl
    · obtain rfl : .scripted ⟨0⟩ = p := Option.some.inj hp
      rfl
    · obtain rfl : .scripted ⟨1⟩ = p := Option.some.inj hp
      rfl
  promised := by
    intro script hscript m hm
    rcases List.mem_pair.mp hscript with rfl | rfl
    · simp at hm
    · simp at hm

lemma apart_leaningPlan : Apart ["a", "b"] leaningPlan := by
  intro family hfamily other hother hne
  rcases List.mem_pair.mp hfamily with rfl | rfl
  · rcases List.mem_pair.mp hother with rfl | rfl
    · exact absurd rfl hne
    · simp [registrations, leaningPlan, Action.mapping?]
  · rcases List.mem_pair.mp hother with rfl | rfl
    · simp [registrations, leaningPlan, Action.mapping?]
    · exact absurd rfl hne

/-- Whether the first is asked for alone or after the other, there are four turns. -/
lemma initializes_leaningPair {paths : List String} (hpaths : paths = ["a"] ∨ paths = ["b", "a"]) :
    leaningPair.Initializes paths ["a", "b"] := by
  have hall : (leaningPair.ensureAll paths).context.support.ready.Perm ["a", "b"] ∧
      ((leaningPair.ensureAll paths).context.log.filterMap SupportEvent.turn?).Perm
        ["a", "a", "b", "b"] := by
    rcases hpaths with rfl | rfl
    · decide +kernel
    · decide +kernel
  obtain ⟨hready, hturns⟩ := hall
  refine ⟨fun family hfamily => ?_, fun family hnot => ?_⟩
  · exact List.contains_iff_mem.mpr (hready.mem_iff.mpr hfamily)
  · show _ = []
    refine List.filter_eq_nil_iff.mpr fun event hevent hturn => hnot ?_
    have hmem := hturns.mem_iff.mp
      (List.mem_filterMap.mpr ⟨event, hevent, by simpa using hturn⟩)
    simpa using hmem

/-- The two scalars, registered in either order, one of them with another type at first, lead to one
map.  Both orders of the families lead to one map, too, and the family that asks for no other is
made ready by asking for it twice. -/
theorem registrations_in_any_order_leaningPair :
    (let calls := [(CScalar.int32, ValueType.bool), (.int64, .float64)]
      let calls' := [(CScalar.int64, ValueType.bool), (.int64, .float64), (.int32, .bool)]
      let m := (ScalarMap.builtin .lastInserted).registerAll calls
      let m' := (ScalarMap.builtin .lastInserted).registerAll calls'
      m.entries.rows = m'.entries.rows ∧ m.toScalar? .bool = m'.toScalar? .bool) ∧
    (leaningPair.ensureAll ["a"]).context.scalars
        = (leaningPair.ensureAll ["b", "a"]).context.scalars ∧
      (leaningPair.ensureAll ["a"]).context.scalars.toValueType? .int32 = some .bool ∧
      (leaningPair.ensureAll ["a"]).context.scalars.toValueType? .int64 = some .float64 ∧
    leaningPair.Initializes ["b", "b"] ["b"] := by
  obtain ⟨hcalls, hcontexts⟩ := registrations_in_any_order
  have hsame : ∀ s, s ∈ [CScalar.int32, .int64] ↔ s ∈ [CScalar.int64, .int64, .int32] := by
    simp only [List.mem_cons, List.not_mem_nil, or_false]
    tauto
  obtain ⟨hrows, -, hback⟩ := hcalls .lastInserted [(.int32, .bool), (.int64, .float64)]
    [(.int64, .bool), (.int64, .float64), (.int32, .bool)] hsame (by decide)
  have hgrown : leaningPair.context.scalars.Grown :=
    ScalarMap.Grown.builtin ({} : Options).reversePolicy
  obtain ⟨horders, -⟩ := hcontexts leaningPair ["a", "b"] leaningPlan hgrown planned_leaningPair
    apart_leaningPlan
  obtain ⟨hscalars, -⟩ := horders ["a"] ["b", "a"] (initializes_leaningPair (.inl rfl))
    (initializes_leaningPair (.inr rfl))
  -- the second family alone
  have hlower : ["b"] ⊆ ["a", "b"] := List.subset_cons_self _ _
  obtain ⟨-, hplain⟩ := hcontexts leaningPair ["b"] leaningPlan hgrown
    (planned_leaningPair.of_subset hlower) (apart_leaningPlan.of_subset hlower)
  have hprovided : ∀ family ∈ ["b"],
      leaningPair.IsProvided family ∧ Plain (leaningPlan family) := by
    intro family hfamily
    obtain rfl := List.mem_singleton.mp hfamily
    exact ⟨rfl, fun a ha => ⟨.int64, .float64, by simpa [leaningPlan] using ha⟩⟩
  have hb : familyOf "b" = "b" := by decide +kernel
  exact ⟨⟨hrows, hback .bool⟩, hscalars, by decide +kernel, by decide +kernel,
    hplain hprovided ["b", "b"] fun family => by simp [hb]⟩

end Workspace

end ForeignTypes
