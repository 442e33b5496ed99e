import ForeignTypes.Workspace.Ensure
import ForeignTypes.Workspace.Lending

/-!
# Sessions

A session is a process together with everything that someone outside it holds: contexts, struct
classes, handles to objects, loans, copies of regions, types and support modules, each under a name
of its own kind.  What a name stands for can be replaced; the old thing is let go after the new one
is there.  Letting a handle go gives its reference back, and letting a loan go ends it: its
reference is given back if it is still held, and its ticket takes the entry out of the ledger, if
the context of the ledger is still there.

* `Session` — the state, and `Session.start`, with one context of default options.
* `HeldRegion` — how a region is named: no region is boxed or copied but one that is held.
* `SessionM` — an operation on a session, which may fail half way.
* `Session.dropObject`, `Session.endLoan` — letting go.
* `SessionM.nameObject`, `nameLoan`, … — putting a new thing under a name.
* `Session.handlesOf`, `Session.structNamesOf` — the names that stand for one thing, in order.
-/

namespace ForeignTypes

inductive Failure
  | unknown (kind name : String)
  | cause (e : Error)

/-- A process and what is held of it from outside, by name. -/
structure Session where
  process : Process := {}
  contexts : Table String Context := {}
  structs : Table String StructId := {}
  objects : Table String ObjectId := {}
  weaks : Table String ObjectId := {}
  types : Table String ValueType := {}
  functions : Table String FunctionPointer := {}
  loans : Table String Loan := {}
  regions : Table String Region := {}
  modules : Table String ModuleId := {}
  /-- A registry of support modules outside any context. -/
  registry : SupportRegistry := {}

/-- A region that is held: the region of a loan, or a copy that was kept. -/
inductive HeldRegion
  | lent (loan : String)
  | kept (name : String)
  deriving DecidableEq

/-- An operation on a session.  What it changed before it failed stays changed. -/
abbrev SessionM := ExceptT Failure (StateM Session)

/-! ## Letting go -/

namespace Session

/-- The session at its start: one context named `main`, with default options. -/
def start : Session :=
  let (process, main) := Process.newContext {} {}
  { process, contexts := Table.put {} "main" main }

def dropObject (s : Session) (o : ObjectId) : Session :=
  { s with process := { s.process with heap := s.process.heap.release o } }

/-- Change the context of an identity, if it is still there. -/
def updateContext (s : Session) (id : ContextId) (f : Context → Context) : Session :=
  { s with contexts := s.contexts.update fun _ c => if c.id = id then f c else c }

/-- Take the entry of a ticket out of its ledger. -/
def redeem (s : Session) (t : Ticket) : Session :=
  s.updateContext t.context fun c => { c with ledger := c.ledger.redeem t.region }

def endLoan (s : Session) (l : Loan) : Session :=
  let released := if l.isHolding then s.dropObject l.object else s
  match l.ticket with
  | some t => released.redeem t
  | none => released

/-! ## Names that stand for one thing -/

def handlesOf (s : Session) (o : ObjectId) : List String := s.objects.namesOf o

def structNamesOf (s : Session) (id : StructId) : List String := s.structs.namesOf id

end Session

namespace SessionM

/-! ## What names stand for

Each kind of thing has names of its own.
-/

/-- What a name stands for in a table. -/
def lookup {α : Type} (kind : String) (table : Session → Table String α) (name : String) :
    SessionM α := do
  match (table (← get)).get? name with
  | some a => return a
  | none => throw (.unknown kind name)

def contextNamed (name : String) : SessionM Context := lookup "context" Session.contexts name

def structNamed (name : String) : SessionM StructId := lookup "class" Session.structs name

def objectNamed (name : String) : SessionM ObjectId := lookup "object" Session.objects name

def weakNamed (name : String) : SessionM ObjectId := lookup "weak" Session.weaks name

def typeNamed (name : String) : SessionM ValueType := lookup "type" Session.types name

def functionNamed (name : String) : SessionM FunctionPointer :=
  lookup "function" Session.functions name

def loanNamed (name : String) : SessionM Loan := lookup "value" Session.loans name

def regionNamed (name : String) : SessionM Region := lookup "region" Session.regions name

def heldRegion : HeldRegion → SessionM Region
  | .lent loan => return (← loanNamed loan).region
  | .kept name => regionNamed name

def moduleNamed (name : String) : SessionM ModuleId := lookup "support" Session.modules name

/-! ## Putting things under names -/

/-- Put a handle under a name, and let the old one go. -/
def nameObject (name : String) (o : ObjectId) : SessionM Unit :=
  modify fun s =>
    let named := { s with objects := s.objects.put name o }
    match s.objects.get? name with
    | some old => named.dropObject old
    | none => named

/-- Put a loan under a name, and let the old one go. -/
def nameLoan (name : String) (l : Loan) : SessionM Unit :=
  modify fun s =>
    let named := { s with loans := s.loans.put name l }
    match s.loans.get? name with
    | some old => named.endLoan old
    | none => named

/-- Put a type under a name, if one is given. -/
def nameType (name : Option String) (t : ValueType) : SessionM Unit :=
  match name with
  | some name => modify fun s => { s with types := s.types.put name t }
  | none => return ()

/-! ## Working in a process and in a context -/

/-- The result of an operation of the library, as a result of the session. -/
def result {α : Type} : Except Error α → SessionM α
  | .ok a => return a
  | .error e => throw (.cause e)

def inProcess {α : Type} (f : Process → Process × α) : SessionM α := do
  let s ← get
  let (process, a) := f s.process
  set { s with process }
  return a

/-- Do something in the process that may fail. -/
def tryProcess {α : Type} (f : Process → Process × Except Error α) : SessionM α := do
  result (← inProcess f)

/-- Do something in a context that may fail. -/
def inContext {α : Type} (name : String) (f : Workspace → Workspace × Except Error α) :
    SessionM α := do
  let context ← contextNamed name
  let s ← get
  let (w, r) := f { process := s.process, context }
  set { s with process := w.process, contexts := s.contexts.put name w.context }
  result r

/-- Look at something in a context. -/
def readContext {α : Type} (name : String) (f : Workspace → Except Error α) : SessionM α :=
  inContext name fun w => (w, f w)

end SessionM

end ForeignTypes
