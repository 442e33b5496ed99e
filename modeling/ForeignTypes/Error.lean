/-!
# What can go wrong

The causes for which an operation of this library fails, each with the things that its message
names.

* `Error` — the causes.
* `Error.message` — the wording.
* `Error.isTypeError` — was it a type that could not be carried across?
* `Severity`, `Error.severity` — may the same call succeed later?
-/

namespace ForeignTypes

/-- The cause of a failure.  Types, records and fields are named by their texts. -/
inductive Error
  /-- A C type for which there is no value type. -/
  | unsupportedCType (type : String)
  /-- A value type for which there is no C type, or which is not carried across at all. -/
  | unsupportedValueType (type : String)
  | bitField (record field : String) (bits : Nat)
  /-- A field through which a struct refers to itself. -/
  | recursiveRecord (record field : String)
  /-- A function pointer whose argument types were never declared. -/
  | missingArguments (function : String)
  /-- The foreign runtime reported an error, or no object is left to bring back. -/
  | fault (message : String)
  | classMismatch (expected got : String)
  | bufferTooSmall (record : String) (needed got : Nat)
  | noSupport (family : String)
  | invalidOptions (reason : String)
  deriving DecidableEq

inductive Severity
  | fatal
  /-- The call may succeed once the foreign side has changed. -/
  | recoverable
  deriving DecidableEq

namespace Error

def message : Error → String
  | unsupportedCType type => "Unsupported native type: " ++ type
  | unsupportedValueType type => "Cannot convert internal type '" ++ type ++ "' to a native type"
  | bitField record field bits =>
    "Bitwidth specification not supported: field '" ++ field ++ "' of " ++ record ++ " declares "
      ++ toString bits ++ " bits"
  | recursiveRecord record field =>
    "Recursive record definition: " ++ record ++ " (via field '" ++ field ++ "')"
  | missingArguments function =>
    "native function " ++ function ++ " doesn't define its argument types"
  | fault message => "Marshaling fault: " ++ message
  | classMismatch expected got => "Class mismatch: expected " ++ expected ++ ", got " ++ got
  | bufferTooSmall record needed got =>
    "Buffer too small for " ++ record ++ ": need " ++ toString needed ++ " bytes, got "
      ++ toString got
  | noSupport family =>
    "No support for " ++ family ++ " found. Register a support module for '" ++ family ++ "'"
  | invalidOptions reason => "Invalid configuration: " ++ reason

/-- Was it a type that could not be carried across? -/
def isTypeError : Error → Bool
  | unsupportedCType _ | unsupportedValueType _ | bitField _ _ _ | recursiveRecord _ _
  | missingArguments _ => true
  | _ => false

/-- A fault of the foreign side and missing support may pass; all else is final. -/
def severity : Error → Severity
  | fault _ | noSupport _ => .recoverable
  | _ => .fatal

end Error

end ForeignTypes
