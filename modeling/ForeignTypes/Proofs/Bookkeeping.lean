import ForeignTypes.Proofs.Posting
import ForeignTypes.Proofs.Running
import ForeignTypes.Proofs.Typing

/-!
# The books of a session

A session has books: its tables without the names.  Putting something under a name is a step or two
of the books, since what stood there before is let go; and most operations do not touch the books at
all.

* `Session.books` — the books of a session, beside the events that happened.
* `Session.steps_withObject`, `Session.steps_withLoan`, … — something is put under a name.
* `Session.SameBooks` — two sessions that have the same books.
-/

namespace ForeignTypes.Session

open Books

/-- The books of a session, when these events happened so far. -/
def books (s : Session) (log : List Event) : Books where
  heap := s.process.heap
  regions := s.process.regions
  contexts := s.process.contexts
  ledgers := s.contexts.values.map fun c => (c.id, c.ledger)
  handles := s.objects.values
  loans := s.loans.values
  kept := s.regions.values
  log

variable {s s' : Session} {log : List Event}

/-! ## Putting things under names -/

/-- A handle that nobody holds yet goes under a name. -/
lemma steps_withObject (s : Session) (log : List Event) (name : String) (o : ObjectId) :
    Steps { s.books log with handles := o ::ₘ s.objects.values }
      ((s.withObject name o).books log) := by
  rw [withObject]
  cases hname : s.objects.get? name with
  | none =>
      rw [← Table.values_put_of_none hname o]
      exact Relation.ReflTransGen.refl
  | some old =>
      rw [Table.values_put_of_some hname o]
      exact Relation.ReflTransGen.single (Step.drop rfl)

/-- What letting a loan go does to the books, once nobody names it any more. -/
lemma books_endLoan (s : Session) (l : Loan) (log : List Event) :
    (s.endLoan l).books log = { s.books log with
      heap := heapAfter s.process.heap l
      ledgers := ledgersAfter (s.books log).ledgers l } := by
  have hheap : (if l.isHolding then s.dropObject l.object else s)
      = { s with process := { s.process with heap := heapAfter s.process.heap l } } := by
    rw [heapAfter]
    split
    · rfl
    · rfl
  rw [endLoan, ledgersAfter]
  simp only [hheap]
  cases l.ticket with
  | none => rfl
  | some t =>
      simp only [redeem, updateContext, books, Table.values_update, Multiset.map_map]
      congr 1
      refine Multiset.map_congr rfl fun c _ => ?_
      simp only [Function.comp_apply, redeemFor]
      split
      · rfl
      · rfl

/-- A loan that nobody holds yet goes under a name. -/
lemma steps_withLoan (s : Session) (log : List Event) (name : String) (l : Loan) :
    Steps { s.books log with loans := l ::ₘ s.loans.values } ((s.withLoan name l).books log) := by
  rw [withLoan]
  cases hname : s.loans.get? name with
  | none =>
      rw [← Table.values_put_of_none hname l]
      exact Relation.ReflTransGen.refl
  | some old =>
      rw [Table.values_put_of_some hname l]
      rw [books_endLoan]
      exact Relation.ReflTransGen.single
        (Step.endLoan (show _ = old ::ₘ (s.loans.put name l).values from rfl))

/-- A region that somebody holds already is kept under a name too. -/
lemma steps_withRegion (s : Session) (log : List Event) (name : String) {r : Region} :
    Steps { s.books log with kept := r ::ₘ s.regions.values }
      ({ s with regions := s.regions.put name r }.books log) := by
  cases hname : s.regions.get? name with
  | none =>
      rw [← Table.values_put_of_none hname r]
      exact Relation.ReflTransGen.refl
  | some old =>
      rw [Table.values_put_of_some hname r]
      exact Relation.ReflTransGen.single (Step.forget rfl)

lemma steps_withContext (s : Session) (log : List Event) (name : String) (c : Context) :
    Steps { s.books log with ledgers := (c.id, c.ledger) ::ₘ (s.books log).ledgers }
      ({ s with contexts := s.contexts.put name c }.books log) := by
  have hmap : (c.id, c.ledger) ::ₘ (s.books log).ledgers
      = (c ::ₘ s.contexts.values).map fun c => (c.id, c.ledger) := by
    rw [Multiset.map_cons]
    rfl
  rw [hmap]
  cases hname : s.contexts.get? name with
  | none =>
      rw [← Table.values_put_of_none hname c]
      exact Relation.ReflTransGen.refl
  | some old =>
      rw [Table.values_put_of_some hname c, Multiset.map_cons]
      exact Relation.ReflTransGen.single (Step.closeLedger rfl)

/-- Work in a context: the ledger of the context among those of the others. -/
lemma exists_ledgers_withWork (log : List Event) {name : String} {c : Context}
    (hc : s.contexts.get? name = some c) :
    ∃ rest, (s.books log).ledgers = (c.id, c.ledger) ::ₘ rest ∧
      ∀ w, ((s.withWork name w).books log).ledgers = (w.context.id, w.context.ledger) ::ₘ rest := by
  obtain ⟨rest, hvalues, hput⟩ := Table.values_replace hc
  refine ⟨rest.map fun c => (c.id, c.ledger), ?_, fun w => ?_⟩
  · simp only [books, hvalues, Multiset.map_cons]
  · simp only [books, withWork, hput, Multiset.map_cons]

/-! ## What does not touch the books -/

def SameBooks (s s' : Session) : Prop := ∀ log, s'.books log = s.books log

instance : Std.Refl SameBooks where
  refl := fun _ _ => rfl

instance : IsTrans Session SameBooks where
  trans := fun _ _ _ h h' log => (h' log).trans (h log)

lemma sameBooks_withWork {name : String} {c : Context} (hc : s.contexts.get? name = some c)
    {w : Workspace} (hw : Workspace.Spares ⟨s.process, c⟩ w) : SameBooks s (s.withWork name w) := by
  intro log
  obtain ⟨rest, hold, hnew⟩ := exists_ledgers_withWork log hc
  have hledgers : ((s.withWork name w).books log).ledgers = (s.books log).ledgers := by
    rw [hold, hnew w, hw.id, hw.ledger]
  exact Books.ext hw.heap hw.regions hw.contexts hledgers rfl rfl rfl rfl

end ForeignTypes.Session
