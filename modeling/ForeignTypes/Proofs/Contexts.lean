import ForeignTypes.Proofs.Classes
import ForeignTypes.Proofs.Simulation

/-!
# Contexts along a run

Each context of a session goes its own way: it is made, some commands take a course of things in it,
and other commands leave it alone but for its ledger.  So what holds of a new context, along every
course, and under growth of what contexts share holds of every context at any time, together with
all that happened in it.

* `Performed.happeningsIn`, `Session.happeningsIn` — what happened in a context, read off the
  commands that were performed.
* `Performed.Passes`, **`Session.passes_perform`** — what a command is to the contexts.
* **`Session.Runs.context_induction`** — a property of contexts and of what happened in them.
-/

namespace ForeignTypes

/-! ## What happens in a context -/

/-- The context in which a command works with scalars, records or modules. -/
def Command.context? : {α : Type} → Command α → Option String
  | _, mapScalar context _ _ => some context
  | _, deriveRecord context _ _ => some context
  | _, typeOf context _ _ => some context
  | _, provide context _ => some context
  | _, ensure context _ => some context
  | _, _ => none

/-- What happens when a command is performed in a session, if it works in this context. -/
def Command.account (s : Session) (w : Workspace) : {α : Type} → Command α → List Happening
  | _, mapScalar _ scalar t => [.mapped w scalar t]
  | _, deriveRecord _ struct _ =>
    match s.structs.get? struct with
    | some id => [.derived w id]
    | none => []
  | _, typeOf _ object _ =>
    match s.objects.get? object with
    | some o => w.accountOfObject o
    | none => []
  | _, ensure _ path => w.account path
  | _, _ => []

/-- What happened in the context of an identity when a command was performed. -/
def Performed.happeningsIn (p : Performed) (K : ContextId) : List Happening :=
  match p.command.context?.bind p.before.contexts.get? with
  | some c => if c.id = K then p.command.account p.before ⟨p.before.process, c⟩ else []
  | none => []

/-- All that happened in a context, what came of the latest command first. -/
def Session.happeningsIn (history : List Performed) (K : ContextId) : List Happening :=
  history.flatMap (·.happeningsIn K)

/-! ## What a command is to the contexts -/

/-- The ways in which a command passes: it leaves contexts alone but for ledgers, it makes one, or
it takes a course in one. -/
inductive Performed.Passes (p : Performed) : Prop
  | kept (hnothing : ∀ K, p.happeningsIn K = []) (h : p.before.Keeps p.after)
  | opened (name : String) (options : Options) (hnothing : ∀ K, p.happeningsIn K = [])
      (hprocess : p.after.process = (p.before.process.newContext options).1)
      (hcontexts : p.after.contexts
        = p.before.contexts.put name (p.before.process.newContext options).2)
  | worked {name : String} {c : Context} {w : Workspace} {account : List Happening}
      {r : Except Error Unit} (hc : p.before.contexts.get? name = some c)
      (haccount : ∀ K, p.happeningsIn K = if c.id = K then account else [])
      (hcourse : Workspace.Course ⟨p.before.process, c⟩ account w r)
      (hprocess : p.after.process = w.process)
      (hcontexts : p.after.contexts = p.before.contexts.put name w.context)

namespace Session

open SessionM

variable {s : Session} {context : String} {c : Context}

lemma process_typed (s : Session) (context : String) (name : Option String)
    (answer : Workspace × Except Error ValueType) :
    (s.typed context name answer).2.process = answer.1.process := by
  rcases answer with ⟨w, e | t⟩
  · rfl
  · cases name with
    | none => rfl
    | some name => rfl

lemma contexts_typed (s : Session) (context : String) (name : Option String)
    (answer : Workspace × Except Error ValueType) :
    (s.typed context name answer).2.contexts = s.contexts.put context answer.1.context := by
  rcases answer with ⟨w, e | t⟩
  · rfl
  · cases name with
    | none => rfl
    | some name => rfl

lemma happeningsIn_of_none {α : Type} {command : Command α}
    (h : command.context?.bind s.contexts.get? = none) (K : ContextId) :
    (⟨command, s⟩ : Performed).happeningsIn K = [] := by
  simp only [Performed.happeningsIn, h]

lemma happeningsIn_of_some {α : Type} {command : Command α}
    (h : command.context?.bind s.contexts.get? = some c) (K : ContextId) :
    (⟨command, s⟩ : Performed).happeningsIn K
      = if c.id = K then command.account s ⟨s.process, c⟩ else [] := by
  simp only [Performed.happeningsIn, h]

lemma happeningsIn_of_account {α : Type} {command : Command α}
    (h : ∀ w, command.account s w = []) (K : ContextId) :
    (⟨command, s⟩ : Performed).happeningsIn K = [] := by
  cases hc : command.context?.bind s.contexts.get? with
  | none => exact happeningsIn_of_none hc K
  | some c =>
      rw [happeningsIn_of_some hc, h]
      split
      · rfl
      · rfl

section

variable {α : Type} {command : Command α}

/-- A command that found nothing to work with. -/
lemma passes_of_error (hnothing : ∀ K, (⟨command, s⟩ : Performed).happeningsIn K = [])
    (h : ∃ f, s.perform command = (.error f, s)) : (⟨command, s⟩ : Performed).Passes := by
  obtain ⟨f, h⟩ := h
  refine .kept hnothing ?_
  show Keeps s (s.perform command).2
  rw [h]
  exact Std.Refl.refl s

lemma passes_of_no_context (hcontext : command.context? = some context)
    (hc : s.contexts.get? context = none) (h : ∃ f, s.perform command = (.error f, s)) :
    (⟨command, s⟩ : Performed).Passes := by
  refine passes_of_error (happeningsIn_of_none ?_) h
  rw [hcontext]
  exact hc

/-- A command that works in a context, of which a course is known. -/
lemma passes_of_course {w : Workspace} {r : Except Error Unit}
    (hcontext : command.context? = some context) (hc : s.contexts.get? context = some c)
    (hcourse : Workspace.Course ⟨s.process, c⟩ (command.account s ⟨s.process, c⟩) w r)
    (hprocess : (s.perform command).2.process = w.process)
    (hcontexts : (s.perform command).2.contexts = s.contexts.put context w.context) :
    (⟨command, s⟩ : Performed).Passes := by
  refine .worked hc (happeningsIn_of_some ?_) hcourse hprocess hcontexts
  rw [hcontext]
  exact hc

end

lemma passes_mapScalar (s : Session) (context : String) (scalar : CScalar) (t : ValueType) :
    (⟨.mapScalar context scalar t, s⟩ : Performed).Passes := by
  cases hc : s.contexts.get? context with
  | none =>
      have hrun := run_inContext_none hc (f := fun w => (w.mapScalar scalar t, .ok ()))
      exact passes_of_no_context rfl hc ⟨_, hrun⟩
  | some c =>
      refine passes_of_course rfl hc (.mapped _ scalar t) ?_ ?_
      · rw [perform_mapScalar hc]
        rfl
      · rw [perform_mapScalar hc]
        rfl

lemma passes_ensure (s : Session) (context path : String) :
    (⟨.ensure context path, s⟩ : Performed).Passes := by
  cases hc : s.contexts.get? context with
  | none =>
      have hrun := run_inContext_none hc (f := fun w => w.ensure path)
      exact passes_of_no_context rfl hc ⟨_, hrun⟩
  | some c =>
      refine passes_of_course rfl hc (Workspace.course_ensure _ path) ?_ ?_
      · rw [perform_ensure hc]
        rfl
      · rw [perform_ensure hc]
        rfl

lemma passes_provide (s : Session) (context module : String) :
    (⟨.provide context module, s⟩ : Performed).Passes := by
  have hnone (h : s.modules.get? module = none ∨ s.contexts.get? context = none) :
      ∃ f, s.perform (.provide context module) = (.error f, s) :=
    exists_error_of_lookup (fun m hc => ⟨_, run_inContext_none hc⟩) h
  cases hm : s.modules.get? module with
  | none => exact passes_of_error (happeningsIn_of_account fun _ => rfl) (hnone (.inl hm))
  | some m =>
      cases hc : s.contexts.get? context with
      | none => exact passes_of_no_context rfl hc (hnone (.inr hc))
      | some c =>
          refine passes_of_course rfl hc (.provided _ m) ?_ ?_
          · rw [perform_provide hm hc]
            rfl
          · rw [perform_provide hm hc]
            rfl

lemma passes_deriveRecord (s : Session) (context struct : String) (name : Option String) :
    (⟨.deriveRecord context struct name, s⟩ : Performed).Passes := by
  have hnone (h : s.structs.get? struct = none ∨ s.contexts.get? context = none) :
      ∃ f, s.perform (.deriveRecord context struct name) = (.error f, s) :=
    exists_error_of_lookup (fun id hc => ⟨_, run_bind_error (run_inContext_none hc)⟩) h
  cases hid : s.structs.get? struct with
  | none =>
      refine passes_of_error (happeningsIn_of_account fun w => ?_) (hnone (.inl hid))
      simp only [Command.account, hid]
  | some id =>
      cases hc : s.contexts.get? context with
      | none => exact passes_of_no_context rfl hc (hnone (.inr hc))
      | some c =>
          have hcourse := Workspace.Course.derived ⟨s.process, c⟩ id
          refine passes_of_course rfl hc (by simpa only [Command.account, hid] using hcourse) ?_ ?_
          · rw [perform_deriveRecord hid hc, process_typed]
          · rw [perform_deriveRecord hid hc, contexts_typed]

lemma passes_typeOf (s : Session) (context object : String) (name : Option String) :
    (⟨.typeOf context object name, s⟩ : Performed).Passes := by
  have hnone (h : s.objects.get? object = none ∨ s.contexts.get? context = none) :
      ∃ f, s.perform (.typeOf context object name) = (.error f, s) :=
    exists_error_of_lookup (fun o hc => ⟨_, run_bind_error (run_inContext_none hc)⟩) h
  cases ho : s.objects.get? object with
  | none =>
      refine passes_of_error (happeningsIn_of_account fun w => ?_) (hnone (.inl ho))
      simp only [Command.account, ho]
  | some o =>
      cases hc : s.contexts.get? context with
      | none => exact passes_of_no_context rfl hc (hnone (.inr hc))
      | some c =>
          have hcourse := Workspace.course_typeOf ⟨s.process, c⟩ o
          refine passes_of_course rfl hc (by simpa only [Command.account, ho] using hcourse) ?_ ?_
          · rw [perform_typeOf ho hc, process_typed]
          · rw [perform_typeOf ho hc, contexts_typed]

lemma passes_makeContext (s : Session) (name : String) (options : Options) (checked : Bool) :
    (⟨.makeContext name options checked, s⟩ : Performed).Passes := by
  have hnothing : ∀ K, Performed.happeningsIn ⟨.makeContext name options checked, s⟩ K = [] :=
    happeningsIn_of_account fun _ => rfl
  rcases s.perform_makeContext name options checked with herror | hmade
  · exact passes_of_error hnothing herror
  · refine .opened name options hnothing ?_ ?_
    · exact congrArg (fun answer => answer.2.process) hmade
    · exact congrArg (fun answer => answer.2.contexts) hmade

/-- **Every command passes in one of these ways.** -/
theorem passes_perform (p : Performed) : p.Passes := by
  obtain ⟨command, s⟩ := p
  cases command with
  | makeContext name options checked => exact passes_makeContext s name options checked
  | mapScalar context scalar t => exact passes_mapScalar s context scalar t
  | deriveRecord context struct name => exact passes_deriveRecord s context struct name
  | typeOf context object name => exact passes_typeOf s context object name
  | provide context module => exact passes_provide s context module
  | ensure context path => exact passes_ensure s context path
  | _ => exact .kept (happeningsIn_of_account fun _ => rfl) (keeps_perform rfl s)

end Session

namespace Performed.Passes

variable {p : Performed} (h : p.Passes)

include h

lemma growsTypes : p.before.process.types.Grows p.after.process.types := by
  cases h with
  | kept _ h => exact h.process.types
  | opened _ _ _ hprocess _ =>
      rw [hprocess]
      exact TypeStore.Grows.refl _
  | worked _ _ hcourse hprocess _ =>
      rw [hprocess]
      exact hcourse.growsTypes

/-- No identity of a context is taken back. -/
lemma contexts_le : p.before.process.contexts ≤ p.after.process.contexts := by
  cases h with
  | kept _ h => exact h.process.contexts.ge
  | opened _ _ _ hprocess _ =>
      rw [hprocess]
      exact Nat.le_succ _
  | worked _ _ hcourse hprocess _ =>
      rw [hprocess]
      exact hcourse.spares.contexts.ge

end Performed.Passes

/-! ## Along a run -/

namespace Session

variable {s t : Session} {history : List Performed}

theorem Runs.growsTypes (hruns : s.Runs history t) : s.process.types.Grows t.process.types := by
  induction hruns with
  | nil => exact TypeStore.Grows.refl _
  | @cons history t earlier α command ih =>
      exact ih.trans (passes_perform ⟨command, t⟩).growsTypes

lemma Runs.numbered (hruns : start.Runs history s) : s.process.types.Numbered :=
  (hruns.growsTypes fun _ _ h => absurd h (by simp [start, Process.newContext,
    TypeStore.composite?, Table.find?])).1

/-- A session starts with one context, which is new. -/
lemma eq_new_of_start {name : String} {c : Context} (hc : start.contexts.get? name = some c) :
    c = .new ⟨0⟩ {} := by
  rw [start, Table.get?_put] at hc
  split at hc
  · exact (Option.some.inj hc).symm
  · exact absurd hc (by simp)

/-- Each context has an identity of its own, which was given out. -/
lemma Runs.index_lt (hruns : start.Runs history s) {name : String} {c : Context}
    (hc : s.contexts.get? name = some c) : c.id.index < s.process.contexts := by
  refine hruns.sound.recorded.ledgers_made c.id ?_
  have hmem := Multiset.mem_map_of_mem (fun c : Context => (c.id, c.ledger))
    (Table.mem_values_of_get? hc)
  exact Multiset.mem_map_of_mem Prod.fst hmem

lemma Runs.name_eq (hruns : start.Runs history s) {name name' : String} {c c' : Context}
    (hc : s.contexts.get? name = some c) (hc' : s.contexts.get? name' = some c')
    (hid : c.id = c'.id) : name = name' := by
  have hnodup := hruns.sound.recorded.ledgers_nodup
  rw [books, Multiset.map_map] at hnodup
  exact Table.key_eq_of_nodup hnodup hc hc' hid

lemma happeningsIn_cons (p : Performed) (history : List Performed) (K : ContextId) :
    happeningsIn (p :: history) K = p.happeningsIn K ++ happeningsIn history K := rfl

/-- Nothing happened in a context that is not made yet. -/
lemma Runs.happeningsIn_eq_nil (hruns : start.Runs history s) {K : ContextId}
    (hK : s.process.contexts ≤ K.index) : happeningsIn history K = [] := by
  induction hruns with
  | nil => rfl
  | @cons history t earlier α command ih =>
      have hpasses := passes_perform ⟨command, t⟩
      have hold : t.process.contexts ≤ K.index := hpasses.contexts_le.trans hK
      rw [happeningsIn_cons, ih hold, List.append_nil]
      cases hpasses with
      | kept hnothing _ => exact hnothing K
      | opened _ _ hnothing _ _ => exact hnothing K
      | @worked name c w account r hc haccount _ _ _ =>
          have hne : c.id ≠ K := by
            rintro rfl
            exact absurd (earlier.index_lt hc) (Nat.not_lt.mpr hold)
          rw [haccount, if_neg hne]

/-- **Every context goes its own way.**  What holds of a new context, stays when what contexts share
grows and the ledger changes, and holds along every course, holds of all contexts and of what
happened in them: by induction on the run, where a command concerns one context at most. -/
theorem Runs.context_induction {P : Process → Context → List Happening → Prop}
    (hnew : ∀ process K options, P process (.new K options) [])
    (hlater : ∀ {process process' : Process} {c c' : Context} {hs : List Happening},
      process.structs.Extends process'.structs → process.types.Extends process'.types →
      process.moduleFamilies <+: process'.moduleFamilies →
      c' = { c with ledger := c'.ledger } → P process c hs → P process' c' hs)
    (hcourse : ∀ {w w' : Workspace} {account hs : List Happening} {r : Except Error Unit},
      w.process.types.Numbered → Workspace.Course w account w' r → P w.process w.context hs →
      P w'.process w'.context (account ++ hs))
    (hruns : start.Runs history s) {name : String} {c : Context}
    (hc : s.contexts.get? name = some c) : P s.process c (happeningsIn history c.id) := by
  induction hruns generalizing name c with
  | nil =>
      rw [eq_new_of_start hc]
      exact hnew _ _ _
  | @cons history t earlier α command ih =>
      obtain ⟨hsane, -⟩ := earlier.growsClasses sane_start
      rw [happeningsIn_cons]
      cases passes_perform ⟨command, t⟩ with
      | kept hnothing h =>
          obtain ⟨c₀, hc₀, heq⟩ := h.contexts name c hc
          obtain ⟨-, hstructs⟩ := h.process.structs hsane
          obtain ⟨-, htypes⟩ := h.process.types earlier.numbered
          have hid : c.id = c₀.id := by rw [heq]
          rw [hnothing, List.nil_append, hid]
          exact hlater hstructs htypes h.process.families heq (ih hc₀)
      | opened name' options hnothing hprocess hcontexts =>
          simp only [Performed.after] at hprocess hcontexts
          rw [hnothing, List.nil_append, hprocess]
          rw [hcontexts, Table.get?_put] at hc
          split at hc
          · obtain rfl := Option.some.inj hc
            rw [earlier.happeningsIn_eq_nil (Nat.le_refl _)]
            exact hnew _ _ _
          · refine hlater ?_ ?_ ?_ rfl (ih hc)
            · exact StructTable.Extends.refl t.process.structs
            · exact TypeStore.Extends.refl t.process.types
            · exact List.prefix_rfl
      | @worked name' c₀ w account r hc₀ haccount h hprocess hcontexts =>
          simp only [Performed.after] at hprocess hcontexts
          rw [haccount, hprocess]
          rw [hcontexts, Table.get?_put] at hc
          split at hc
          · obtain rfl := Option.some.inj hc
            rw [h.spares.id, if_pos rfl]
            exact hcourse earlier.numbered h (ih hc₀)
          · next hname =>
              have hne : c₀.id ≠ c.id := fun hid => hname (earlier.name_eq hc₀ hc hid)
              obtain ⟨-, htypes⟩ := h.growsTypes earlier.numbered
              rw [if_neg hne, List.nil_append]
              refine hlater ?_ htypes ?_ rfl (ih hc)
              · rw [h.spares.structs]
                exact .refl _
              · rw [h.moduleFamilies]

end Session

end ForeignTypes
