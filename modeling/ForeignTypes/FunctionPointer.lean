import ForeignTypes.Error
import ForeignTypes.ScalarMap
import ForeignTypes.Struct
import ForeignTypes.TypeStore

/-!
# Function pointers

A function of a foreign library is an address with a declared signature.  Its callable type carries
every argument and the result across, and chooses a calling convention.

* `CallFlags` — the flags of a function, as a set of bits.
* `FunctionPointer` — name, address, declared types and flags.
* `Platform` — the platforms, as far as calling conventions go.
* `FunctionPointer.derive` — the callable type.
-/

namespace ForeignTypes

/-! ## Flags -/

/-- The flags of a function: which convention it keeps and what is saved around a call. -/
structure CallFlags where
  bits : UInt32
  deriving DecidableEq

namespace CallFlags

def empty : CallFlags := ⟨0⟩

def cdecl : CallFlags := ⟨1⟩

/-- The lock of the foreign runtime is held during a call. -/
def runtimeApi : CallFlags := ⟨2⟩

/-- The error number of C is saved around a call. -/
def useErrno : CallFlags := ⟨8⟩

/-- The last error of the operating system is saved around a call. -/
def useLastError : CallFlags := ⟨16⟩

def union (a b : CallFlags) : CallFlags := ⟨a.bits ||| b.bits⟩

/-- Are all flags of `b` set in `a`? -/
def contains (a b : CallFlags) : Bool := a.bits &&& b.bits == b.bits

end CallFlags

/-! ## Function pointers -/

structure FunctionPointer where
  name : String
  address : Nat
  /-- The types of the arguments, if they were ever declared. -/
  arguments : Option (List CType) := none
  result : CType := .scalar .int
  flags : CallFlags := .cdecl
  deriving DecidableEq

/-- The platforms, as far as calling conventions go. -/
inductive Platform
  /-- 32-bit Windows, where a function keeps either of two conventions. -/
  | windows32
  /-- Any platform with one C convention. -/
  | other
  deriving DecidableEq

/-- Does a function's convention have to be told apart from the C convention here? -/
def Platform.hasStdcall : Platform → Bool
  | windows32 => true
  | other => false

namespace FunctionPointer

/-- Does the pointer have an address and declared arguments? -/
def isTyped (f : FunctionPointer) : Bool := f.address ≠ 0 ∧ f.arguments.isSome

/-- The text of a function pointer; arguments that were never declared are left open. -/
def text (textOf : CType → String) (f : FunctionPointer) : String :=
  let arguments :=
    match f.arguments with
    | some args => String.intercalate ", " (args.map textOf)
    | none => "..."
  f.name ++ "(" ++ arguments ++ ") -> " ++ textOf f.result

/-- The convention of a function: the callee cleans up where that makes a difference and the
function is not said to keep the C convention. -/
def convention (platform : Platform) (flags : CallFlags) : CallingConvention :=
  if platform.hasStdcall && !flags.contains .cdecl then .stdcall else .platform

def resolve (structs : StructTable) (scalars : ScalarMap) (t : CType) : Except Error ValueType :=
  match scalars.valueTypeOf? t with
  | some v => .ok v
  | none => .error (.unsupportedCType (structs.textOf t))

/-- The callable type of a function pointer: its arguments in order, then its result. -/
def derive (structs : StructTable) (scalars : ScalarMap) (platform : Platform)
    (f : FunctionPointer) : Except Error FunctionType :=
  match f.arguments with
  | none => .error (.missingArguments f.name)
  | some args =>
    match args.mapM (resolve structs scalars) with
    | .error e => .error e
    | .ok arguments =>
      match resolve structs scalars f.result with
      | .error e => .error e
      | .ok result => .ok ⟨⟨arguments, result⟩, convention platform f.flags⟩

end FunctionPointer

/-- The address that a call through a callable type goes to. -/
def FunctionType.target (_ : FunctionType) (f : FunctionPointer) : Nat := f.address

end ForeignTypes
