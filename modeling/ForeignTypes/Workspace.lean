import ForeignTypes.FunctionPointer
import ForeignTypes.Heap
import ForeignTypes.Ledger
import ForeignTypes.Options
import ForeignTypes.RecordCache
import ForeignTypes.Struct.Layout
import ForeignTypes.Support

/-!
# Contexts at work

A *context* is what a compiler works with: a scalar map, the records it derived, the ledger of its
loans and its support modules.  Several contexts share one *process*: the struct classes, the
derived types, the foreign objects, the runtime that owns them, and the counters that make
identities new.  A *workspace* is a process with one of its contexts.

* `ForeignSide` — the runtime that owns the objects: its outstanding error, and a count.
* `Context`, `Context.new` — a context, and one with given options.
* `Process` — what contexts share.
* `Process.makeRecord`, `Process.makeZeroed`, `Process.construct` — new objects of a struct class.
* `Workspace` — a process with one of its contexts.
* `Workspace.resolveCType`, `resolveValueType`, `deriveRecord`, `deriveFunction` — types carried
  across.
-/

namespace ForeignTypes

/-! ## The runtime that owns the objects -/

/-- The runtime that owns the foreign objects, as far as it shows. -/
structure ForeignSide where
  /-- The error that was raised and not yet taken. -/
  outstanding : Option String := none
  /-- The number of objects that were constructed from bytes. -/
  constructed : Nat := 0
  deriving DecidableEq

namespace ForeignSide

/-- Raise an error, in place of one that is outstanding. -/
def raise (f : ForeignSide) (message : String) : ForeignSide :=
  { f with outstanding := some message }

def takeError (f : ForeignSide) : ForeignSide × Option String :=
  ({ f with outstanding := none }, f.outstanding)

end ForeignSide

/-! ## Contexts -/

/-- A context: all that a compiler changes while it types values and carries them across. -/
structure Context where
  id : ContextId
  options : Options
  scalars : ScalarMap
  records : RecordCache
  ledger : Ledger
  support : SupportRegistry
  /-- What support modules did in the context, in order. -/
  log : List SupportEvent := []

/-- A context with these options, in which the core family has its built-in support.  The options
are taken as they are. -/
def Context.new (id : ContextId) (options : Options) : Context where
  id
  options
  scalars := .builtin options.reversePolicy
  records := {}
  ledger := .new options.pruneThreshold
  support := (SupportRegistry.register {} options.coreFamily .builtin).1

/-! ## What contexts share -/

structure Process where
  structs : StructTable := {}
  types : TypeStore := {}
  heap : Heap := {}
  foreign : ForeignSide := {}
  /-- The support modules that were made.  The identity of a module is its place in the list. -/
  modules : List SupportModule := []
  regions : Nat := 0
  contexts : Nat := 0

namespace Process

def newRegionId (p : Process) : Process × RegionId :=
  ({ p with regions := p.regions + 1 }, ⟨p.regions⟩)

/-- A context with these options, under a new identity. -/
def newContext (p : Process) (options : Options) : Process × Context :=
  ({ p with contexts := p.contexts + 1 }, .new ⟨p.contexts⟩ options)

/-- A region of bytes that native code made. -/
def newOwned (p : Process) (bytes : List UInt8) : Process × Region :=
  let (p', id) := p.newRegionId
  (p', ⟨id, .owned bytes⟩)

/-- A support module that is not registered anywhere yet. -/
def newModule (p : Process) (family : String) (actions : List Action) : Process × ModuleId :=
  ({ p with modules := p.modules ++ [⟨family, actions, 0⟩] }, ⟨p.modules.length⟩)

def layoutOf (p : Process) (id : StructId) : Process × Option Layout :=
  let (structs, l) := p.structs.layout id
  ({ p with structs }, l)

def sizeOf (p : Process) (id : StructId) : Process × Option Nat :=
  let (structs, n) := p.structs.sizeOf id
  ({ p with structs }, n)

def extentOf (p : Process) (t : CType) : Process × Option Extent :=
  let (structs, e) := p.structs.extentOf t
  ({ p with structs }, e)

/-! ### New objects -/

def makeObject (p : Process) (t : CType) (module : String) (bytes : List UInt8) :
    Process × ObjectId :=
  let (heap, o) := p.heap.alloc t module bytes
  ({ p with heap }, o)

def moduleOf (p : Process) (id : StructId) : String :=
  match p.structs.decl? id with
  | some d => d.module
  | none => ""

/-- A new object of a struct class with these bytes.  If the size of the class is known, there must
be that many bytes at least. -/
def makeRecord (p : Process) (id : StructId) (bytes : List UInt8) :
    Process × Except Error ObjectId :=
  let (p', size) := p.sizeOf id
  match size with
  | some needed =>
    if bytes.length < needed then
      (p', .error (.bufferTooSmall (p'.structs.nameOf id) needed bytes.length))
    else
      let (p'', o) := p'.makeObject (.struct id) (p'.moduleOf id) bytes
      (p'', .ok o)
  | none =>
    let (p'', o) := p'.makeObject (.struct id) (p'.moduleOf id) bytes
    (p'', .ok o)

/-- A new object of a struct class, all zero.  It has no bytes if the size of the class is not
known. -/
def makeZeroed (p : Process) (id : StructId) : Process × ObjectId :=
  let (p', size) := p.sizeOf id
  p'.makeObject (.struct id) (p'.moduleOf id) (List.replicate (size.getD 0) 0)

def makeScalar (p : Process) (s : CScalar) (bytes : List UInt8) : Process × ObjectId :=
  p.makeObject (.scalar s) ForeignObject.scalarModule bytes

/-- The foreign runtime makes an object of a struct class from bytes, and counts it. -/
def construct (p : Process) (id : StructId) (bytes : List UInt8) :
    Process × Except Error ObjectId :=
  match p.makeRecord id bytes with
  | (p', .error e) => (p', .error e)
  | (p', .ok o) =>
    ({ p' with foreign := { p'.foreign with constructed := p'.foreign.constructed + 1 } }, .ok o)

end Process

/-! ## A context at work -/

structure Workspace where
  process : Process
  context : Context

namespace Workspace

def resolveCType (w : Workspace) (t : CType) : Except Error ValueType :=
  FunctionPointer.resolve w.process.structs w.context.scalars t

def resolveValueType (w : Workspace) (t : ValueType) : Except Error CType :=
  match w.context.scalars.cTypeOf? t with
  | some c => .ok c
  | none => .error (.unsupportedValueType (w.process.types.textOf t))

def mapScalar (w : Workspace) (s : CScalar) (t : ValueType) : Workspace :=
  { w with context := { w.context with scalars := w.context.scalars.register s t } }

def deriveRecord (w : Workspace) (id : StructId) : Workspace × Except Error ValueType :=
  match w.context.records.derive w.process.structs w.context.scalars w.process.types id with
  | .error e => (w, .error e)
  | .ok (records, types, t) =>
    ({ process := { w.process with types }, context := { w.context with records } }, .ok t)

def deriveFunction (w : Workspace) (f : FunctionPointer) : Except Error FunctionType :=
  f.derive w.process.structs w.context.scalars w.context.options.platform

/-- The callable type of a function pointer.  Each derivation makes a new type. -/
def functionType (w : Workspace) (f : FunctionPointer) : Workspace × Except Error ValueType :=
  match w.deriveFunction f with
  | .error e => (w, .error e)
  | .ok callable =>
    let (types, t) := w.process.types.addFunction callable
    ({ w with process := { w.process with types } }, .ok t)

end Workspace

end ForeignTypes
