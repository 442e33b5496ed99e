import ForeignTypes.CType
import ForeignTypes.Error
import ForeignTypes.Table
import ForeignTypes.ValueType

/-!
# Support modules

The *family* of a foreign type is the first part of its module's path.  Before a context types an
object of a family for the first time, it runs the support module registered for the family, which
may extend the scalar map, register other modules and ask for the support of other families.

* `familyOf` — the family of a module path.
* `Action`, `SupportModule` — what a support module does when it runs.
* `Provider` — what stands for a family: the built-in support, or a support module.
* `SupportRegistry` — the provider of each family, and the families that are ready.
* `SupportRegistry.begin`, `SupportRegistry.abort` — a family is marked as ready before its module
  runs, so that a module that types objects of its own family does not start itself again; the mark
  is taken back if the module fails.
* `SupportEvent` — what is written to the log of a context while families are made ready.
-/

namespace ForeignTypes

/-- The family of a module path: all that stands before the first dot. -/
def familyOf (path : String) : String := String.ofList (path.toList.takeWhile (· ≠ '.'))

/-! ## What a module does -/

structure ModuleId where
  index : Nat
  deriving DecidableEq

/-- One thing that a support module does. -/
inductive Action
  | mapScalar (s : CScalar) (t : ValueType)
  | provide (m : ModuleId)
  /-- Ask for the support of a module's family, and fail if there is none. -/
  | require (path : String)
  /-- Ask for the support of a module's family, and go on in any case. -/
  | invite (path : String)
  /-- Type a new object of a struct class, and fail if it has no type. -/
  | typeStruct (id : StructId)
  /-- Type an object of a C type that a module declares, and fail if it has no type. -/
  | typeObject (module : String) (t : CType)
  | fail (message : String)
  /-- Fail in the run of this number; a module's first run has number one. -/
  | failIn (run : Nat) (message : String)
  deriving DecidableEq

/-- A support module: the family it is for, and what it does when it runs. -/
structure SupportModule where
  family : String
  actions : List Action
  starts : Nat := 0
  deriving DecidableEq

/-- What making families ready leaves in the log.  `run` counts the runs of a module. -/
inductive SupportEvent
  /-- A family's provider is about to start. -/
  | begun (family : String)
  /-- A family's provider came to its end, with the failure if there was one. -/
  | ended (family : String) (failure : Option Error)
  | started (family : String) (run : Nat)
  /-- Support was asked for, with the failure if there was one. -/
  | asked (family : String) (run : Nat) (path : String) (failure : Option Error)
  | typed (family : String) (run : Nat) (struct : String) (result : Except Error String)

/-! ## The registry -/

inductive Provider
  /-- The support that is built in, which has nothing to do. -/
  | builtin
  | scripted (m : ModuleId)
  deriving DecidableEq

/-- The providers that are registered, and the families that are ready. -/
structure SupportRegistry where
  providers : Table String Provider := {}
  ready : List String := []

namespace SupportRegistry

/-- Register a provider for a family, in place of any other; the answer is the one it replaces. -/
def register (r : SupportRegistry) (family : String) (p : Provider) :
    SupportRegistry × Option Provider :=
  ({ r with providers := r.providers.put family p }, r.providers.get? family)

def get? (r : SupportRegistry) (family : String) : Option Provider := r.providers.get? family

def contains (r : SupportRegistry) (family : String) : Bool := r.providers.contains family

/-- Is the family ready, or being made ready? -/
def isReady (r : SupportRegistry) (family : String) : Bool := r.ready.contains family

def families (r : SupportRegistry) : List String := r.providers.keys

def mark (r : SupportRegistry) (family : String) : SupportRegistry :=
  { r with ready := family :: r.ready }

/-- Start to make a family ready.  The answer is its provider, which is to run now; there is none
if the family was ready before. -/
def begin (r : SupportRegistry) (family : String) :
    Except Error (SupportRegistry × Option Provider) :=
  if r.isReady family then .ok (r, none)
  else
    match r.get? family with
    | some p => .ok (r.mark family, some p)
    | none => .error (.noSupport family)

def abort (r : SupportRegistry) (family : String) : SupportRegistry :=
  { r with ready := r.ready.filter (· ≠ family) }

end SupportRegistry

end ForeignTypes
