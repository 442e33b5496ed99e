import ForeignTypes.Proofs.Upkeep

/-!
# The error that is outstanding

The foreign runtime has room for one error.  An error that is raised takes the place of one that was
there; it goes when it is taken, or when lending or boxing reports it, and nothing else touches it.
So the errors of a history can be told from its events alone, and each of them has one fate: it is
outstanding to this day, or the next event was its end.

* `ErrorEvent`, `Performed.errorEvent?`, `errorsOf` — the events of a history that concern errors.
* `ErrorEvent.Turns`, `Outstanding` — what an event makes of the error that is outstanding, and what
  a list of events leaves.
* **`Session.turns_perform`** — every command is such an event, or leaves the error as it was.
* **`Session.Runs.errors_conserved`** — the errors of a session.
-/

namespace ForeignTypes

/-! ## Events -/

/-- What happens to the errors of the foreign runtime. -/
inductive ErrorEvent
  | raised (message : String)
  | taken (message : String)
  /-- Lending or boxing reported the error. -/
  | reported (message : String)
  deriving DecidableEq

/-- What an event makes of the error that is outstanding. -/
inductive ErrorEvent.Turns : ErrorEvent → Option String → Option String → Prop
  | raised (message : String) (old : Option String) :
    Turns (.raised message) old (some message)
  | taken (message : String) : Turns (.taken message) (some message) none
  | reported (message : String) : Turns (.reported message) (some message) none

/-- The event of a command that was performed, read off its answer.  Lending reports an error in the
loan.  Boxing fails with it after an object was constructed. -/
def Performed.errorEvent? : Performed → Option ErrorEvent
  | ⟨.raise message, _⟩ => some (.raised message)
  | ⟨.takeError, s⟩ =>
    match (s.perform .takeError).1 with
    | .ok message => message.map .taken
    | .error _ => none
  | ⟨.unbox context name t object address, s⟩ =>
    match (s.perform (.unbox context name t object address)).1 with
    | .ok (⟨_, _, some (.fault message), _, _⟩, _) => some (.reported message)
    | _ => none
  | ⟨.box context name t region, s⟩ =>
    match (s.perform (.box context name t region)).1 with
    | .error (.cause (.fault message)) =>
      if s.process.foreign.constructed
          < (s.perform (.box context name t region)).2.process.foreign.constructed then
        some (.reported message)
      else none
    | _ => none
  | _ => none

/-- The events of a history that concern errors, the latest first. -/
def errorsOf (history : List Performed) : List ErrorEvent :=
  history.filterMap Performed.errorEvent?

lemma errorsOf_append (later earlier : List Performed) :
    errorsOf (later ++ earlier) = errorsOf later ++ errorsOf earlier :=
  List.filterMap_append

lemma errorsOf_cons (p : Performed) (history : List Performed) :
    errorsOf (p :: history) = p.errorEvent?.toList ++ errorsOf history := by
  rw [errorsOf, List.filterMap_cons]
  cases p.errorEvent? with
  | none => rfl
  | some e => rfl

/-! ## What a list of events leaves -/

/-- The error that is outstanding after these events, the latest first. -/
inductive Outstanding : List ErrorEvent → Option String → Prop
  | nil : Outstanding [] none
  | cons {events : List ErrorEvent} {old new : Option String} {e : ErrorEvent}
      (earlier : Outstanding events old) (hturns : e.Turns old new) : Outstanding (e :: events) new

namespace Outstanding

variable {events later earlier : List ErrorEvent} {old : Option String} {message : String}
  {e : ErrorEvent}

/-- An error that is outstanding was raised last. -/
lemma head?_of_some (h : Outstanding events (some message)) :
    events.head? = some (.raised message) := by
  cases h with
  | cons _ hturns =>
      cases hturns with
      | raised => rfl

lemma of_append (h : Outstanding (later ++ earlier) old) :
    ∃ before, Outstanding earlier before := by
  induction later generalizing old with
  | nil => exact ⟨old, h⟩
  | cons e later ih =>
      cases h with
      | cons h _ => exact ih h

/-- **The fate of an error**: it is outstanding still, or the next event was its end. -/
lemma fate (h : Outstanding (later ++ .raised message :: earlier) old) :
    (later = [] ∧ old = some message) ∨
      (∃ newer, later.getLast? = some (.raised newer)) ∨
      later.getLast? = some (.taken message) ∨ later.getLast? = some (.reported message) := by
  induction later generalizing old with
  | nil =>
      cases h with
      | cons _ hturns =>
          cases hturns with
          | raised => exact .inl ⟨rfl, rfl⟩
  | cons e later ih =>
      right
      cases h with
      | cons h hturns =>
          rcases ih h with ⟨rfl, rfl⟩ | hend
          · cases hturns with
            | raised newer => exact .inl ⟨newer, rfl⟩
            | taken => exact .inr (.inl rfl)
            | reported => exact .inr (.inr rfl)
          · -- an end that came before is still the first thing that happened to it
            have hne : later ≠ [] := by
              rintro rfl
              simp at hend
            rwa [List.getLast?_cons_of_ne_nil hne]

/-- **The origin of an end**: what was taken or reported was raised just before. -/
lemma origin (h : Outstanding (later ++ e :: earlier) old)
    (he : e = .taken message ∨ e = .reported message) :
    earlier.head? = some (.raised message) := by
  obtain ⟨_, h⟩ := h.of_append
  cases h with
  | cons h hturns =>
      rcases he with rfl | rfl
      · cases hturns with
        | taken => exact h.head?_of_some
      · cases hturns with
        | reported => exact h.head?_of_some

end Outstanding

/-! ## Commands that touch no error -/

/-- The commands that raise, take or report errors. -/
def Command.touchesErrors : {α : Type} → Command α → Bool
  | _, raise _ => true
  | _, takeError => true
  | _, unbox _ _ _ _ _ => true
  | _, box _ _ _ _ => true
  | _, _ => false

namespace Session

open SessionM

variable {s : Session}

/-- The same error is outstanding, or none. -/
def SameError (s s' : Session) : Prop :=
  s'.process.foreign.outstanding = s.process.foreign.outstanding

instance : Std.Refl SameError where
  refl := fun _ => rfl

instance : IsTrans Session SameError where
  trans := fun _ _ _ h h' => Eq.trans h' h

lemma overlooks_sameError : Overlooks SameError where
  types := fun _ _ => rfl
  work := fun _ _ hw => congrArg ForeignSide.outstanding hw.foreign

lemma tolerates_sameError : Tolerates SameError where
  names := fun hprocess _ => congrArg (fun p : Process => p.foreign.outstanding) hprocess
  heap := fun _ _ => rfl
  structs := fun _ _ _ => rfl
  constructed := fun _ _ => rfl
  regions := fun _ _ => rfl
  modules := fun _ _ => rfl
  redeem := fun _ _ => rfl
  dropContext := fun _ _ => rfl

/-- **The other commands leave the error alone.** -/
theorem sameError_perform {α : Type} {c : Command α} (hc : c.touchesErrors = false) :
    Within SameError c.perform := by
  cases hupkeep : c.isUpkeep with
  | true => exact tolerates_sameError.within hupkeep
  | false =>
      cases c with
      | raise | takeError | unbox | box => exact absurd hc (by simp [Command.touchesErrors])
      | resolveCType | mapScalar | deriveRecord | functionType | typeOf | provide | ensure =>
          exact overlooks_sameError.within rfl
      | makeContext name options checked =>
          intro s
          rcases s.perform_makeContext name options checked with ⟨f, hp⟩ | hp
          · exact congrArg (fun answer => answer.2.process.foreign.outstanding) hp
          · exact congrArg (fun answer => answer.2.process.foreign.outstanding) hp
      | _ => exact absurd hupkeep (by simp [Command.isUpkeep, Command.isTyping])

/-! ## Lending and boxing -/

/-- **Lending** reports the error that is outstanding in the loan, or leaves all as it was. -/
theorem reports_unbox (s : Session) (context name : String) (t : ValueType) (object : String)
    (address : Option Nat) :
    ((⟨.unbox context name t object address, s⟩ : Performed).errorEvent? = none ∧
      SameError s (s.perform (.unbox context name t object address)).2) ∨
    ∃ message loan refs,
      (⟨.unbox context name t object address, s⟩ : Performed).errorEvent?
        = some (.reported message) ∧
      s.process.foreign.outstanding = some message ∧
      (s.perform (.unbox context name t object address)).1 = .ok (loan, refs) ∧
      loan.fault = some (.fault message) ∧
      (s.perform (.unbox context name t object address)).2.process.foreign.outstanding = none := by
  rcases s.perform_unbox context name t object address with
    ⟨f, hp⟩ | ⟨c, o, w, loan, hc, ho, hlends, hp⟩
  · left
    rw [hp]
    exact ⟨by simp only [Performed.errorEvent?, hp], rfl⟩
  · have hafter : (s.perform (.unbox context name t object address)).2.process.foreign.outstanding
        = none := by
      rw [hp]
      refine (tolerates_sameError.withLoan (s.withWork context w) name loan).trans ?_
      show w.process.foreign.outstanding = none
      rw [hlends.foreign]
      rfl
    have hfault : loan.fault = s.process.foreign.outstanding.map .fault := hlends.fault
    cases hmessage : s.process.foreign.outstanding with
    | some message =>
        rw [hmessage] at hfault
        refine .inr ⟨message, loan, _, ?_, rfl, congrArg Prod.fst hp, hfault, hafter⟩
        obtain ⟨region, o', fault, holding, ticket⟩ := loan
        obtain rfl : fault = some (.fault message) := hfault
        simp only [Performed.errorEvent?, hp]
    | none =>
        left
        rw [hmessage] at hfault
        refine ⟨?_, hafter.trans hmessage.symm⟩
        obtain ⟨region, o', fault, holding, ticket⟩ := loan
        obtain rfl : fault = none := hfault
        simp only [Performed.errorEvent?, hp]

section Boxing

variable {context name : String} {t : ValueType} {region : HeldRegion}

/-- Boxing reports nothing if it succeeds, -/
lemma spares_box_of_ok {o : ObjectId} {s' : Session}
    (h : s.perform (.box context name t region) = (.ok o, s')) (hsame : SameError s s') :
    (⟨.box context name t region, s⟩ : Performed).errorEvent? = none ∧
      SameError s (s.perform (.box context name t region)).2 := by
  rw [h]
  exact ⟨by simp only [Performed.errorEvent?, h], hsame⟩

/-- and nothing if it constructs nothing. -/
lemma spares_box_of_foreign {answer : Except Failure ObjectId} {s' : Session}
    (h : s.perform (.box context name t region) = (answer, s'))
    (hforeign : s'.process.foreign = s.process.foreign) :
    (⟨.box context name t region, s⟩ : Performed).errorEvent? = none ∧
      SameError s (s.perform (.box context name t region)).2 := by
  rw [h]
  refine ⟨?_, congrArg ForeignSide.outstanding hforeign⟩
  simp only [Performed.errorEvent?, h, hforeign, Nat.lt_irrefl, if_false]
  split
  · rfl
  · rfl

end Boxing

/-- **Boxing** fails with the error that is outstanding once it has constructed an object, or leaves
the error as it was. -/
theorem reports_box (s : Session) (context name : String) (t : ValueType) (region : HeldRegion) :
    ((⟨.box context name t region, s⟩ : Performed).errorEvent? = none ∧
      SameError s (s.perform (.box context name t region)).2) ∨
    ∃ message,
      (⟨.box context name t region, s⟩ : Performed).errorEvent? = some (.reported message) ∧
      s.process.foreign.outstanding = some message ∧
      (s.perform (.box context name t region)).1 = .error (.cause (.fault message)) ∧
      (s.perform (.box context name t region)).2.process.foreign
        = ⟨none, s.process.foreign.constructed + 1⟩ := by
  rcases s.perform_box context name t region with ⟨-, f, hp⟩ | ⟨c, r, -, -, hc, hr, -⟩
  · exact .inl (spares_box_of_foreign hp rfl)
  · rcases Workspace.box_cases ⟨s.process, c⟩ t r with
      ⟨o, -, -, hbox⟩ | ⟨e, hbox, -⟩ | ⟨id, record, bytes, -, -, -, -, hbox⟩
    · have hp : s.perform (.box context name t region) = _ := perform_box_ok hc hr hbox
      exact .inl (spares_box_of_ok hp (tolerates_sameError.withObject _ name o))
    · exact .inl (spares_box_of_foreign (perform_box_error hc hr hbox) rfl)
    · have howned := Workspace.boxesOwned ⟨s.process, c⟩ record t bytes
      generalize hanswer : Workspace.boxOwned ⟨s.process, c⟩ record t bytes = answer at howned hbox
      cases howned with
      | unknown | shortOfRecord | shortOfClass =>
          exact .inl (spares_box_of_foreign (perform_box_error hc hr hbox) rfl)
      | @givenUp id' message _ _ _ hmessage =>
          have hp : s.perform (.box context name t region) = _ := perform_box_error hc hr hbox
          have hforeign : (s.perform (.box context name t region)).2.process.foreign
              = ⟨none, s.process.foreign.constructed + 1⟩ := by rw [hp]; rfl
          have hanswer := congrArg Prod.fst hp
          refine .inr ⟨message, ?_, hmessage, hanswer, hforeign⟩
          simp only [Performed.errorEvent?, hanswer, hforeign, Nat.lt_succ_self, if_true]
      | made _ _ _ hnone =>
          have hp : s.perform (.box context name t region) = _ := perform_box_ok hc hr hbox
          exact .inl (spares_box_of_ok hp (tolerates_sameError.withObject _ name _))

/-! ## Runs -/

/-- **Every command** is an event that turns the error, or leaves it as it was. -/
theorem turns_perform (p : Performed) :
    (p.errorEvent? = none ∧ SameError p.before p.after) ∨
      ∃ e, p.errorEvent? = some e ∧
        e.Turns p.before.process.foreign.outstanding p.after.process.foreign.outstanding := by
  obtain ⟨c, s⟩ := p
  cases c with
  | raise message => exact .inr ⟨_, rfl, .raised message _⟩
  | takeError =>
      have hevent : (⟨.takeError, s⟩ : Performed).errorEvent?
          = s.process.foreign.outstanding.map .taken := rfl
      rw [hevent]
      cases hmessage : s.process.foreign.outstanding with
      | some message => exact .inr ⟨_, rfl, hmessage ▸ .taken message⟩
      | none => exact .inl ⟨rfl, hmessage.symm⟩
  | unbox context name t object address =>
      rcases reports_unbox s context name t object address with
        hspares | ⟨message, loan, refs, hevent, hmessage, -, -, hafter⟩
      · exact .inl hspares
      · refine .inr ⟨_, hevent, ?_⟩
        simp only [Performed.after, hmessage, hafter]
        exact .reported message
  | box context name t region =>
      rcases reports_box s context name t region with
        hspares | ⟨message, hevent, hmessage, -, hafter⟩
      · exact .inl hspares
      · refine .inr ⟨_, hevent, ?_⟩
        simp only [Performed.after, hmessage, hafter]
        exact .reported message
  | _ => exact .inl ⟨rfl, sameError_perform rfl s⟩

/-- **The error that is outstanding** after a run is what the events leave. -/
theorem Runs.outstanding {history : List Performed} (hruns : start.Runs history s) :
    Outstanding (errorsOf history) s.process.foreign.outstanding := by
  induction hruns with
  | nil => exact .nil
  | @cons history t earlier α c ih =>
      rw [errorsOf_cons]
      rcases turns_perform ⟨c, t⟩ with ⟨hevent, hsame⟩ | ⟨e, hevent, hturns⟩
      · rw [hevent, show (t.perform c).2.process.foreign.outstanding = _ from hsame]
        exact ih
      · rw [hevent]
        exact ih.cons hturns

/-- With an error outstanding, an object that passes the check of its class is lent with the error
as the fault of its loan.  The contexts stay as they were until the loan goes under its name. -/
lemma perform_unbox_of_outstanding {context object : String} {c : Context} {o : ObjectId}
    {t : ValueType} {x : ForeignObject} {message : String}
    (hc : s.contexts.get? context = some c) (ho : s.objects.get? object = some o)
    (hx : s.process.heap.object? o = some x)
    (hcheck : Workspace.checkClass ⟨s.process, c⟩ t x = .ok ())
    (hmessage : s.process.foreign.outstanding = some message) (name : String)
    (address : Option Nat) :
    ∃ process loan, s.perform (.unbox context name t object address)
        = (.ok (loan, process.heap.refs o), { s with process }.withLoan name loan) ∧
      loan.fault = some (.fault message) ∧ loan.ticket = none ∧
      process.foreign.outstanding = none := by
  have hunbox : Workspace.unbox ⟨s.process, c⟩ t o (s.reported address o) = _ :=
    Workspace.unbox_of_outstanding hx hcheck hmessage
  have hp : s.perform (.unbox context name t object address) = _ := perform_unbox_ok hc ho hunbox
  rw [withWork_context hc] at hp
  refine ⟨_, _, hp, ?_, ?_, ?_⟩
  · rfl
  · rfl
  · rfl

/-- **Errors are neither lost nor reported twice.**  After every run,

* lending and boxing leave the error that is outstanding, or report it, and none is left;
* with an error outstanding, an object that passes the check of its class is lent with it as the
  fault of the loan, of which no ledger hears;
* an error that was raised is outstanding still, or the next event is its end: another one is
  raised, it is taken, or it is reported;
* what is taken or reported was raised in the event before. -/
theorem Runs.errors_conserved {history : List Performed} (hruns : start.Runs history s) :
    (∀ context name t object address,
      ((⟨.unbox context name t object address, s⟩ : Performed).errorEvent? = none ∧
        SameError s (s.perform (.unbox context name t object address)).2) ∨
      ∃ message loan refs,
        (⟨.unbox context name t object address, s⟩ : Performed).errorEvent?
          = some (.reported message) ∧
        s.process.foreign.outstanding = some message ∧
        (s.perform (.unbox context name t object address)).1 = .ok (loan, refs) ∧
        loan.fault = some (.fault message) ∧
        (s.perform (.unbox context name t object address)).2.process.foreign.outstanding = none) ∧
    (∀ context name t region,
      ((⟨.box context name t region, s⟩ : Performed).errorEvent? = none ∧
        SameError s (s.perform (.box context name t region)).2) ∨
      ∃ message,
        (⟨.box context name t region, s⟩ : Performed).errorEvent? = some (.reported message) ∧
        s.process.foreign.outstanding = some message ∧
        (s.perform (.box context name t region)).1 = .error (.cause (.fault message)) ∧
        (s.perform (.box context name t region)).2.process.foreign
          = ⟨none, s.process.foreign.constructed + 1⟩) ∧
    (∀ context name t object address c o x message, s.contexts.get? context = some c →
      s.objects.get? object = some o → s.process.heap.object? o = some x →
      Workspace.checkClass ⟨s.process, c⟩ t x = .ok () →
      s.process.foreign.outstanding = some message →
      ∃ process loan, s.perform (.unbox context name t object address)
          = (.ok (loan, process.heap.refs o), { s with process }.withLoan name loan) ∧
        loan.fault = some (.fault message) ∧ loan.ticket = none ∧
        process.foreign.outstanding = none) ∧
    (∀ later earlier before message, history = later ++ ⟨.raise message, before⟩ :: earlier →
      (errorsOf later = [] ∧ s.process.foreign.outstanding = some message) ∨
      (∃ newer, (errorsOf later).getLast? = some (.raised newer)) ∨
      (errorsOf later).getLast? = some (.taken message) ∨
      (errorsOf later).getLast? = some (.reported message)) ∧
    ∀ later earlier p message, history = later ++ p :: earlier →
      p.errorEvent? = some (.taken message) ∨ p.errorEvent? = some (.reported message) →
      (errorsOf earlier).head? = some (.raised message) := by
  have houtstanding := hruns.outstanding
  refine ⟨fun context name t object address => reports_unbox s context name t object address,
    fun context name t region => reports_box s context name t region, ?_, ?_, ?_⟩
  · intro context name t object address c o x message hc ho hx hcheck hmessage
    exact perform_unbox_of_outstanding hc ho hx hcheck hmessage name address
  · rintro later earlier before message rfl
    rw [errorsOf_append, errorsOf_cons] at houtstanding
    exact houtstanding.fate
  · rintro later earlier p message rfl hevent
    rw [errorsOf_append, errorsOf_cons] at houtstanding
    rcases hevent with hevent | hevent
    · rw [hevent] at houtstanding
      exact houtstanding.origin (.inl rfl)
    · rw [hevent] at houtstanding
      exact houtstanding.origin (.inr rfl)

/-- The session in which an error was raised after an object was made. -/
def raisedOne : Session :=
  ((start.perform (.makeScalar "v" .int32 [1, 0, 0, 0])).2.perform (.raise "out of memory")).2

/-- The loan of the object has the error as its fault. -/
theorem errors_conserved_raisedOne : ∃ loan refs,
    (raisedOne.perform (.unbox "main" "x" .foreign "v" none)).1 = .ok (loan, refs) ∧
      loan.fault = some (.fault "out of memory") ∧ loan.ticket = none := by
  have hruns := ((Runs.nil (s := start)).cons (.makeScalar "v" .int32 [1, 0, 0, 0])).cons
    (.raise "out of memory")
  obtain ⟨-, -, hlent, -⟩ := hruns.errors_conserved
  obtain ⟨process, loan, hp, hfault, hticket, -⟩ :=
    hlent "main" "x" .foreign "v" none _ ⟨0⟩ _ "out of memory" rfl rfl rfl rfl rfl
  exact ⟨loan, _, congrArg Prod.fst hp, hfault, hticket⟩

end Session

end ForeignTypes
