import ForeignTypes.Proofs.Stability

/-!
# What scalars are mapped to

A context starts with the built-in map, and after that its scalars are mapped one by one, by
commands and by support modules.  So a rule for what a scalar may be mapped to that the built-in map
obeys, and each mapping after it, is obeyed by the map of the context at any time.  A rule may look
at the store of types, if more types in the store do not break it.

* `ScalarRule`, `ScalarRule.Stays` — rules, and those that more types do not break.
* `ScalarMap.Obeys`, `Mapped` — a map that obeys a rule, and happenings that do.
* **`Workspace.Course.obeys`** — the map of a context along a course, and whenever a record was
  asked for.
* **`Session.Runs.obeys`** — the same along a run.
-/

namespace ForeignTypes

/-- What a scalar may be mapped to, as far as a store of types knows. -/
abbrev ScalarRule := TypeStore → CScalar → ValueType → Prop

def ScalarRule.Stays (rule : ScalarRule) : Prop :=
  ∀ ⦃types types' : TypeStore⦄ ⦃s : CScalar⦄ ⦃v : ValueType⦄, types.Extends types' →
    rule types s v → rule types' s v

/-- Each scalar that was mapped among these happenings was mapped as the rule says. -/
def Mapped (rule : ScalarRule) (hs : List Happening) : Prop :=
  ∀ w s v, .mapped w s v ∈ hs → rule w.process.types s v

lemma mapped_append {rule : ScalarRule} {hs hs' : List Happening} :
    Mapped rule (hs ++ hs') ↔ Mapped rule hs ∧ Mapped rule hs' := by
  simp only [Mapped, List.mem_append, or_imp, forall_and]

namespace ScalarMap

variable {m : ScalarMap} {rule : ScalarRule} {types types' : TypeStore}

/-- Every scalar is mapped as the rule says, or not at all. -/
def Obeys (m : ScalarMap) (rule : ScalarRule) (types : TypeStore) : Prop :=
  ∀ s v, m.toValueType? s = some v → rule types s v

lemma Obeys.mono (hrule : rule.Stays) (hm : m.Obeys rule types) (h : types.Extends types') :
    m.Obeys rule types' := fun s v hv => hrule h (hm s v hv)

/-- One more scalar, mapped as the rule says. -/
lemma Obeys.register (hm : m.Obeys rule types) {s : CScalar} {v : ValueType} (hv : rule types s v) :
    (m.register s v).Obeys rule types := by
  intro s' v' hv'
  rw [toValueType?_register] at hv'
  split at hv'
  · next hs =>
      obtain rfl := Option.some.inj hv'
      rw [← hs]
      exact hv
  · exact hm s' v' hv'

end ScalarMap

/-- Whenever the record of a class was asked for, the map of the context obeyed the rule. -/
def AskedUnder (rule : ScalarRule) (hs : List Happening) : Prop :=
  ∀ w id, .derived w id ∈ hs → w.context.scalars.Obeys rule w.process.types

lemma askedUnder_append {rule : ScalarRule} {hs hs' : List Happening} :
    AskedUnder rule (hs ++ hs') ↔ AskedUnder rule hs ∧ AskedUnder rule hs' := by
  simp only [AskedUnder, List.mem_append, or_imp, forall_and]

namespace Workspace

variable {w w' : Workspace} {account : List Happening} {r : Except Error Unit}
  {rule : ScalarRule}

lemma scalars_deriveRecord (w : Workspace) (id : StructId) :
    (w.deriveRecord id).1.context.scalars = w.context.scalars := by
  rcases w.deriveRecord_cases id with ⟨e, -, h⟩ | ⟨t, -, h⟩ | ⟨r, -, -, -, h⟩
  · rw [h]
  · rw [h]
  · rw [h]
    rfl

/-- The map of the context obeys the rule. -/
def Obeys (w : Workspace) (rule : ScalarRule) : Prop :=
  w.context.scalars.Obeys rule w.process.types

lemma Obeys.of_leavesTyping (h : w.Obeys rule) (hleaves : w.LeavesTyping w') : w'.Obeys rule := by
  rw [Obeys, hleaves.scalars, hleaves.types]
  exact h

/-- **A map obeys a rule along a course** in which each scalar is mapped as the rule says, and it
does so whenever a record is asked for on the way. -/
theorem Course.obeys (hrule : rule.Stays) (h : Course w account w' r)
    (hnumbered : w.process.types.Numbered) (hmapped : Mapped rule account) (hw : w.Obeys rule) :
    w'.Obeys rule ∧ AskedUnder rule account := by
  induction h with
  | done w | refused w _ | counted w m run =>
      exact ⟨hw, fun w id hmem => absurd hmem (by simp)⟩
  | unsupported _ | ready _ => exact ⟨hw, fun w id hmem => absurd hmem (by simp)⟩
  | mapped w s v =>
      refine ⟨?_, fun w id hmem => absurd hmem (by simp)⟩
      exact ScalarMap.Obeys.register hw (hmapped w s v (List.mem_singleton_self _))
  | provided w m =>
      exact ⟨hw.of_leavesTyping (leavesTyping_provideModule w m),
        fun w id hmem => absurd hmem (by simp)⟩
  | derived w id =>
      refine ⟨?_, ?_⟩
      · rw [Obeys, scalars_deriveRecord]
        exact hw.mono hrule (w.growsTypes_deriveRecord id hnumbered).2
      · intro w' id' hmem
        obtain ⟨⟩ := List.mem_singleton.mp hmem
        exact hw
  | andThen h _ ih ih' =>
      obtain ⟨hbefore, hafter⟩ := mapped_append.mp hmapped
      obtain ⟨hw₁, hasked⟩ := ih hnumbered hbefore hw
      obtain ⟨hw₂, hasked'⟩ := ih' (h.growsTypes hnumbered).1 hafter hw₁
      exact ⟨hw₂, askedUnder_append.mpr ⟨hasked, hasked'⟩⟩
  | forgiven _ ih => exact ih hnumbered hmapped hw
  | noted _ _ _ ih => exact ih hnumbered hmapped hw
  | @ran w w' path support p account r _ _ ih =>
      obtain ⟨hbefore, -⟩ := mapped_append.mp hmapped
      obtain ⟨hw₁, hasked⟩ := ih hnumbered hbefore hw
      refine ⟨hw₁.of_leavesTyping (leavesTyping_settle w' (familyOf path) r), ?_⟩
      exact askedUnder_append.mpr ⟨hasked, fun w id hmem => absurd hmem (by simp)⟩

end Workspace

/-- **A map obeys a rule after every run** in which each scalar of the context was mapped as the
rule says, if the built-in map obeys it. -/
theorem Session.Runs.obeys {rule : ScalarRule} (hrule : rule.Stays)
    (hbuiltin : ∀ policy types, (ScalarMap.builtin policy).Obeys rule types) {s : Session}
    {history : List Performed} (hruns : start.Runs history s) {name : String} {c : Context}
    (hc : s.contexts.get? name = some c) (hmapped : Mapped rule (happeningsIn history c.id)) :
    c.scalars.Obeys rule s.process.types ∧ AskedUnder rule (happeningsIn history c.id) := by
  revert hmapped
  refine hruns.context_induction (P := fun process c hs => Mapped rule hs →
    c.scalars.Obeys rule process.types ∧ AskedUnder rule hs) ?_ ?_ ?_ hc
  · intro process K options _
    exact ⟨hbuiltin options.reversePolicy process.types, fun w id hmem => absurd hmem (by simp)⟩
  · intro process process' c c' hs _ htypes _ heq ih hmapped
    obtain ⟨hobeys, hasked⟩ := ih hmapped
    refine ⟨?_, hasked⟩
    rw [heq]
    exact hobeys.mono hrule htypes
  · intro w w' account hs r hnumbered hcourse ih hmapped
    obtain ⟨hnew, hold⟩ := mapped_append.mp hmapped
    obtain ⟨hobeys, hasked⟩ := ih hold
    obtain ⟨hobeys', hasked'⟩ := hcourse.obeys hrule hnumbered hnew hobeys
    exact ⟨hobeys', askedUnder_append.mpr ⟨hasked', hasked⟩⟩

end ForeignTypes
