import ForeignTypes.Options.Text
import ForeignTypes.Session

/-!
# The operations of a session

Each operation names what it works on, and the name under which its result is kept.  They come in
groups: contexts, struct classes, types and functions, objects, loans and regions, the foreign
runtime, and support modules.

An operation that fails keeps nothing under a name.
-/

namespace ForeignTypes.SessionM

/-! ## Contexts -/

/-- Make a context.  Options are checked unless they are to be taken as they are. -/
def makeContext (name : String) (options : Options) (checked : Bool) : SessionM Unit := do
  if checked then
    match options.validate with
    | .error f => throw (.cause f.error)
    | .ok () => pure ()
  let context ← inProcess (·.newContext options)
  modify fun s => { s with contexts := s.contexts.put name context }

/-- Let a context go; was there one? -/
def dropContext (name : String) : SessionM Bool := do
  let s ← get
  set { s with contexts := s.contexts.erase name }
  return s.contexts.contains name

/-! ## Struct classes -/

def declareStruct (name : String) (d : StructDecl) : SessionM StructId := do
  let id ← inProcess fun p =>
    let (structs, id) := p.structs.declare d
    ({ p with structs }, id)
  modify fun s => { s with structs := s.structs.put name id }
  return id

/-- Give the fields of a struct class; were they taken? -/
def setFields (struct : String) (fields : List FieldDecl) : SessionM Bool := do
  let id ← structNamed struct
  inProcess fun p =>
    let (structs, taken) := p.structs.setFields id fields
    ({ p with structs }, taken)

def layoutOf (id : StructId) : SessionM (Option Layout) := inProcess (·.layoutOf id)

def extentOf (t : CType) : SessionM (Option Extent) := inProcess (·.extentOf t)

/-! ## Types and functions -/

def resolveCType (context : String) (t : CType) (name : Option String) : SessionM ValueType := do
  let v ← readContext context (·.resolveCType t)
  nameType name v
  return v

def resolveValueType (context : String) (t : ValueType) : SessionM CType :=
  readContext context (·.resolveValueType t)

def mapScalar (context : String) (scalar : CScalar) (t : ValueType) : SessionM Unit :=
  inContext context fun w => (w.mapScalar scalar t, .ok ())

def deriveRecord (context : String) (struct : String) (name : Option String) :
    SessionM ValueType := do
  let id ← structNamed struct
  let t ← inContext context (·.deriveRecord id)
  nameType name t
  return t

def makeFunction (name : String) (f : FunctionPointer) : SessionM Unit :=
  modify fun s => { s with functions := s.functions.put name f }

def deriveFunction (context : String) (function : String) : SessionM FunctionType := do
  let f ← functionNamed function
  readContext context (·.deriveFunction f)

def functionType (context : String) (function : String) (name : Option String) :
    SessionM ValueType := do
  let f ← functionNamed function
  let t ← inContext context (·.functionType f)
  nameType name t
  return t

def typeOf (context : String) (object : String) (name : Option String) : SessionM ValueType := do
  let o ← objectNamed object
  let t ← inContext context (·.typeOf o)
  nameType name t
  return t

/-! ## Objects -/

def makeObject (name : String) (t : CType) (module : String) (bytes : List UInt8) :
    SessionM ObjectId := do
  let o ← inProcess (·.makeObject t module bytes)
  nameObject name o
  return o

def makeRecord (name : String) (struct : String) (bytes : List UInt8) : SessionM ObjectId := do
  let id ← structNamed struct
  let o ← tryProcess (·.makeRecord id bytes)
  nameObject name o
  return o

def makeZeroed (name : String) (struct : String) : SessionM ObjectId := do
  let id ← structNamed struct
  let o ← inProcess (·.makeZeroed id)
  nameObject name o
  return o

def makeScalar (name : String) (scalar : CScalar) (bytes : List UInt8) : SessionM ObjectId := do
  let o ← inProcess (·.makeScalar scalar bytes)
  nameObject name o
  return o

/-- Let the foreign runtime make an object of a struct class from bytes. -/
def construct (name : String) (struct : String) (bytes : List UInt8) : SessionM ObjectId := do
  let id ← structNamed struct
  let o ← tryProcess (·.construct id bytes)
  nameObject name o
  return o

def copyHandle (name : String) (object : String) : SessionM ObjectId := do
  let o ← objectNamed object
  inProcess fun p => ({ p with heap := p.heap.retain o }, ())
  nameObject name o
  return o

def dropHandle (object : String) : SessionM Bool := do
  let s ← get
  match s.objects.get? object with
  | some o =>
    set ({ s with objects := s.objects.erase object }.dropObject o)
    return true
  | none => return false

/-- Take a weak handle, which counts as no reference. -/
def makeWeak (name : String) (object : String) : SessionM Unit := do
  let o ← objectNamed object
  modify fun s => { s with weaks := s.weaks.put name o }

def isAlive (weak : String) : SessionM Bool := do
  let o ← weakNamed weak
  return (← get).process.heap.isAlive o

/-- Take a handle from a weak handle, if its object is alive. -/
def upgrade (name : String) (weak : String) : SessionM (Option ObjectId) := do
  let o ← weakNamed weak
  if (← get).process.heap.isAlive o then
    inProcess fun p => ({ p with heap := p.heap.retain o }, ())
    nameObject name o
    return some o
  else return none

/-! ## Loans and regions -/

/-- Lend an object as a value of a type.  Unless it is said otherwise, the foreign runtime reports
the address of the object's storage.  The answer is the loan and the number of references to the
object, while a loan that the name stood for before is still there. -/
def unbox (context : String) (name : String) (t : ValueType) (object : String)
    (address : Option Nat) : SessionM (Loan × Nat) := do
  let o ← objectNamed object
  let own := (← get).process.heap.addressOf o
  let reported := (address.map Address.number).getD own
  let loan ← inContext context fun w =>
    match w.unbox t o reported with
    | .ok (w', loan) => (w', .ok loan)
    | .error e => (w, .error e)
  let refs := (← get).process.heap.refs o
  nameLoan name loan
  return (loan, refs)

def box (context : String) (name : String) (t : ValueType) (region : HeldRegion) :
    SessionM ObjectId := do
  let r ← heldRegion region
  let o ← inContext context (·.box t r)
  nameObject name o
  return o

/-- Give the reference of a loan back before the loan ends.  Once it is given back, nothing more
happens. -/
def releaseLoan (loan : String) : SessionM Unit := do
  let l ← loanNamed loan
  modify fun s =>
    let released := { s with loans := s.loans.put loan { l with isHolding := false } }
    if l.isHolding then released.dropObject l.object else released

def dropLoan (loan : String) : SessionM Bool := do
  let s ← get
  match s.loans.get? loan with
  | some l =>
    set ({ s with loans := s.loans.erase loan }.endLoan l)
    return true
  | none => return false

def makeOwned (name : String) (bytes : List UInt8) : SessionM Region := do
  let r ← inProcess (·.newOwned bytes)
  modify fun s => { s with regions := s.regions.put name r }
  return r

def copyRegion (name : String) (region : HeldRegion) : SessionM Unit := do
  let r ← heldRegion region
  modify fun s => { s with regions := s.regions.put name r }

/-! ## The foreign runtime -/

def raise (message : String) : SessionM Unit :=
  inProcess fun p => ({ p with foreign := p.foreign.raise message }, ())

def takeError : SessionM (Option String) :=
  inProcess fun p =>
    let (foreign, message) := p.foreign.takeError
    ({ p with foreign }, message)

/-! ## Support modules -/

def makeModule (name : String) (family : String) (actions : List Action) : SessionM Unit := do
  let id ← inProcess (·.newModule family actions)
  modify fun s => { s with modules := s.modules.put name id }

def provide (context : String) (module : String) : SessionM Unit := do
  let m ← moduleNamed module
  inContext context fun w => (w.provideModule m, .ok ())

def ensure (context : String) (path : String) : SessionM Unit := inContext context (·.ensure path)

/-- Put the built-in support of a family into the registry outside all contexts; did it replace
another? -/
def registerBuiltin (family : String) : SessionM Bool := do
  let s ← get
  let (registry, old) := s.registry.register family .builtin
  set { s with registry }
  return old.isSome

end ForeignTypes.SessionM
