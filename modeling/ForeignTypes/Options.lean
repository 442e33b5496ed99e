import ForeignTypes.FunctionPointer
import ForeignTypes.Ledger
import ForeignTypes.ScalarMap

/-!
# Options of a context

* `Options` — platform, reverse policy, threshold of the ledger, and the family that is built in.
* `OptionsFault` — what can be wrong with them, and its wording.
* `Options.validate` — do the options hold together?
-/

namespace ForeignTypes

structure Options where
  platform : Platform := .other
  /-- How scalars are chosen on the way back. -/
  reversePolicy : ReversePolicy := .canonical
  /-- The least number of loans that brings a sweep of the ledger about. -/
  pruneThreshold : Nat := Ledger.defaultThreshold
  /-- The family of foreign types that needs no support module. -/
  coreFamily : String := "native"
  deriving DecidableEq

/-- What can be wrong with options. -/
inductive OptionsFault
  /-- The text does not hold options at all. -/
  | unreadable
  | zeroThreshold
  /-- The family is not one part of a module path. -/
  | notOneSegment (family : String)
  deriving DecidableEq

def OptionsFault.text : OptionsFault → String
  | unreadable => "the text does not hold options"
  | zeroThreshold => "pending_prune_threshold must be at least 1"
  | notOneSegment family => "core_family must be a single module segment, got '" ++ family ++ "'"

def OptionsFault.error (f : OptionsFault) : Error := .invalidOptions f.text

/-- Options hold together if the threshold is positive and the family is one part of a module path:
not empty, and without a dot. -/
def Options.validate (o : Options) : Except OptionsFault Unit :=
  if o.pruneThreshold = 0 then .error .zeroThreshold
  else if o.coreFamily.toList = [] ∨ '.' ∈ o.coreFamily.toList then
    .error (.notOneSegment o.coreFamily)
  else .ok ()

end ForeignTypes
