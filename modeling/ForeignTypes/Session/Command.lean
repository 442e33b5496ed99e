import ForeignTypes.Session.Operations

/-!
# Commands and runs

The operations of a session as data, so that one can speak of all that may happen to a session.

* `Command` — the operations that change a session, each with the type of its answer.
* `Command.perform` — what a command does.
* `Performed` — a command with the session that it found; its answer and what it left follow.
* `Session.Runs` — a session goes by a history of commands into another.
-/

namespace ForeignTypes

/-- An operation that changes a session, with the type of its answer. -/
inductive Command : Type → Type
  | makeContext (name : String) (options : Options) (checked : Bool) : Command Unit
  | dropContext (name : String) : Command Bool
  | declareStruct (name : String) (d : StructDecl) : Command StructId
  | setFields (struct : String) (fields : List FieldDecl) : Command Bool
  | layoutOf (id : StructId) : Command (Option Layout)
  | extentOf (t : CType) : Command (Option Extent)
  | resolveCType (context : String) (t : CType) (name : Option String) : Command ValueType
  | mapScalar (context : String) (scalar : CScalar) (t : ValueType) : Command Unit
  | deriveRecord (context struct : String) (name : Option String) : Command ValueType
  | makeFunction (name : String) (f : FunctionPointer) : Command Unit
  | functionType (context function : String) (name : Option String) : Command ValueType
  | typeOf (context object : String) (name : Option String) : Command ValueType
  | makeObject (name : String) (t : CType) (module : String) (bytes : List UInt8) :
    Command ObjectId
  | makeRecord (name struct : String) (bytes : List UInt8) : Command ObjectId
  | makeZeroed (name struct : String) : Command ObjectId
  | makeScalar (name : String) (scalar : CScalar) (bytes : List UInt8) : Command ObjectId
  | construct (name struct : String) (bytes : List UInt8) : Command ObjectId
  | copyHandle (name object : String) : Command ObjectId
  | dropHandle (object : String) : Command Bool
  | makeWeak (name object : String) : Command Unit
  | upgrade (name weak : String) : Command (Option ObjectId)
  | unbox (context name : String) (t : ValueType) (object : String) (address : Option Nat) :
    Command (Loan × Nat)
  | box (context name : String) (t : ValueType) (region : HeldRegion) : Command ObjectId
  | releaseLoan (loan : String) : Command Unit
  | dropLoan (loan : String) : Command Bool
  | makeOwned (name : String) (bytes : List UInt8) : Command Region
  | copyRegion (name : String) (region : HeldRegion) : Command Unit
  | raise (message : String) : Command Unit
  | takeError : Command (Option String)
  | makeModule (name family : String) (actions : List Action) : Command Unit
  | provide (context module : String) : Command Unit
  | ensure (context path : String) : Command Unit
  | registerBuiltin (family : String) : Command Bool

def Command.perform : {α : Type} → Command α → SessionM α
  | _, makeContext name options checked => SessionM.makeContext name options checked
  | _, dropContext name => SessionM.dropContext name
  | _, declareStruct name d => SessionM.declareStruct name d
  | _, setFields struct fields => SessionM.setFields struct fields
  | _, layoutOf id => SessionM.layoutOf id
  | _, extentOf t => SessionM.extentOf t
  | _, resolveCType context t name => SessionM.resolveCType context t name
  | _, mapScalar context scalar t => SessionM.mapScalar context scalar t
  | _, deriveRecord context struct name => SessionM.deriveRecord context struct name
  | _, makeFunction name f => SessionM.makeFunction name f
  | _, functionType context function name => SessionM.functionType context function name
  | _, typeOf context object name => SessionM.typeOf context object name
  | _, makeObject name t module bytes => SessionM.makeObject name t module bytes
  | _, makeRecord name struct bytes => SessionM.makeRecord name struct bytes
  | _, makeZeroed name struct => SessionM.makeZeroed name struct
  | _, makeScalar name scalar bytes => SessionM.makeScalar name scalar bytes
  | _, construct name struct bytes => SessionM.construct name struct bytes
  | _, copyHandle name object => SessionM.copyHandle name object
  | _, dropHandle object => SessionM.dropHandle object
  | _, makeWeak name object => SessionM.makeWeak name object
  | _, upgrade name weak => SessionM.upgrade name weak
  | _, unbox context name t object address => SessionM.unbox context name t object address
  | _, box context name t region => SessionM.box context name t region
  | _, releaseLoan loan => SessionM.releaseLoan loan
  | _, dropLoan loan => SessionM.dropLoan loan
  | _, makeOwned name bytes => SessionM.makeOwned name bytes
  | _, copyRegion name region => SessionM.copyRegion name region
  | _, raise message => SessionM.raise message
  | _, takeError => SessionM.takeError
  | _, makeModule name family actions => SessionM.makeModule name family actions
  | _, provide context module => SessionM.provide context module
  | _, ensure context path => SessionM.ensure context path
  | _, registerBuiltin family => SessionM.registerBuiltin family

namespace Session

/-- Perform a command: its answer or failure, and the session after it. -/
def perform {α : Type} (s : Session) (c : Command α) : Except Failure α × Session :=
  c.perform.run.run s

end Session

/-- A command that was performed, with the session that it found. -/
structure Performed where
  {α : Type}
  command : Command α
  before : Session

namespace Performed

def answer (p : Performed) : Except Failure p.α := (p.before.perform p.command).1

def after (p : Performed) : Session := (p.before.perform p.command).2

end Performed

/-- A session goes by these commands, the latest first, into another. -/
inductive Session.Runs (s : Session) : List Performed → Session → Prop
  | nil : Runs s [] s
  | cons {history : List Performed} {t : Session} (earlier : Runs s history t) {α : Type}
      (c : Command α) : Runs s (⟨c, t⟩ :: history) (t.perform c).2

end ForeignTypes
