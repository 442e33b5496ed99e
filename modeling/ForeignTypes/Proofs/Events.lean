import ForeignTypes.Session.Command
import Mathlib.Tactic.Common

/-!
# What a history tells

A history lists the commands that were performed.  Three kinds of command matter to those who follow
objects and regions about: an object is *lent* to the native side, native code makes a region of its
*own*, and a region is *boxed*, which brings an object back.  The *log* of a history is the list of
these events, the latest first.

* `Event`, `Performed.event?`, `logOf` — the events of a history.
* `Event.region?` — the region that an event brings into being; boxing makes none.
* `Session.region?`, `Region.isAliased` — the region that is held under a name, and its kind.
* `Loan.atStart`, `Loan.Holds` — a loan as it was when the object was lent, and what it holds now.
-/

namespace ForeignTypes

/-! ## Regions and loans -/

/-- Are the bytes those of a foreign object? -/
def Region.isAliased (r : Region) : Bool := r.address?.isSome

lemma Region.isAliased_iff {r : Region} :
    r.isAliased = true ↔ ∃ address length, r.storage = .aliased address length := by
  rw [isAliased, address?]
  cases r.storage with
  | aliased address length => simp
  | owned bytes => simp

lemma Region.isAliased_eq_false {r : Region} {bytes : List UInt8} (h : r.storage = .owned bytes) :
    r.isAliased = false := by
  simp [isAliased, address?, h]

/-- A loan as it was when the object was lent: its reference is held. -/
def Loan.atStart (l : Loan) : Loan := { l with isHolding := true }

def Loan.Holds (l : Loan) (o : ObjectId) : Prop := l.isHolding = true ∧ o = l.object

instance (l : Loan) (o : ObjectId) : Decidable (l.Holds o) :=
  inferInstanceAs (Decidable (_ ∧ _))

/-- The region that is held in a loan or as a copy. -/
def Session.region? (s : Session) : HeldRegion → Option Region
  | .lent loan => (s.loans.get? loan).map Loan.region
  | .kept name => s.regions.get? name

/-! ## Events -/

/-- What happens to objects and regions. -/
inductive Event
  | lent (context : ContextId) (loan : Loan)
  | owned (region : Region)
  /-- A region was boxed in a context, and came back as an object. -/
  | boxed (context : ContextId) (region : Region) (object : ObjectId)
  deriving DecidableEq

/-- The region that an event brings into being. -/
def Event.region? : Event → Option Region
  | lent _ loan => some loan.region
  | owned region => some region
  | boxed _ _ _ => none

/-- The event of a command that was performed, if it had its way. -/
def Performed.event? : Performed → Option Event
  | ⟨.unbox context name t object address, s⟩ =>
    match s.contexts.get? context, (s.perform (.unbox context name t object address)).1 with
    | some c, .ok (loan, _) => some (.lent c.id loan)
    | _, _ => none
  | ⟨.makeOwned name bytes, s⟩ =>
    match (s.perform (.makeOwned name bytes)).1 with
    | .ok region => some (.owned region)
    | .error _ => none
  | ⟨.box context name t region, s⟩ =>
    match s.contexts.get? context, s.region? region, (s.perform (.box context name t region)).1 with
    | some c, some r, .ok o => some (.boxed c.id r o)
    | _, _, _ => none
  | _ => none

lemma Performed.event?_of_error {s : Session} {α : Type} {c : Command α} {f : Failure}
    (h : (s.perform c).1 = .error f) : event? ⟨c, s⟩ = none := by
  cases c with
  | unbox context name t object address =>
      simp only [event?, h]
      cases s.contexts.get? context with
      | some c => rfl
      | none => rfl
  | makeOwned name bytes => simp only [event?, h]
  | box context name t region =>
      simp only [event?, h]
      cases s.contexts.get? context with
      | some c =>
          cases s.region? region with
          | some r => rfl
          | none => rfl
      | none => rfl
  | _ => rfl

lemma Performed.event?_unbox {s : Session} {context name object : String} {t : ValueType}
    {address : Option Nat} {c : Context} {loan : Loan} {refs : Nat}
    (hc : s.contexts.get? context = some c)
    (h : (s.perform (.unbox context name t object address)).1 = .ok (loan, refs)) :
    event? ⟨.unbox context name t object address, s⟩ = some (.lent c.id loan) := by
  simp only [event?, hc, h]

lemma Performed.event?_box {s : Session} {context name : String} {t : ValueType}
    {region : HeldRegion} {c : Context} {r : Region} {o : ObjectId}
    (hc : s.contexts.get? context = some c) (hr : s.region? region = some r)
    (h : (s.perform (.box context name t region)).1 = .ok o) :
    event? ⟨.box context name t region, s⟩ = some (.boxed c.id r o) := by
  simp only [event?, hc, hr, h]

/-- The events of a history, the latest first. -/
def logOf (history : List Performed) : List Event := history.filterMap Performed.event?

lemma logOf_cons (p : Performed) (history : List Performed) :
    logOf (p :: history) = p.event?.toList ++ logOf history := by
  rw [logOf, List.filterMap_cons]
  cases p.event? with
  | none => rfl
  | some e => rfl

end ForeignTypes
