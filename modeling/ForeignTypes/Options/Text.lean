import ForeignTypes.Json.Scan
import ForeignTypes.Options

/-!
# Options as JSON text

Options are written as a JSON object with a member for each option, in any order; what is missing
takes its default, and members of other names are skipped.  They may also be written as an array of
the options in their fixed order, from which any number at the end may be left out.  Each option is
given once at most.  A choice is written by its name, alone or as the one key of an object whose
value is `null`.

* `OptionKey` — the four options, in their fixed order, and their names.
* `PartialOptions` — the options that were read so far.
* `OptionKey.read?` — one option's value.
* `Options.ofJson?` — all of a text.
* `Options.ofText` — the same, and the options have to hold together.
-/

namespace ForeignTypes

open Json

/-! ## The parts of the text -/

/-- The options, in their fixed order. -/
inductive OptionKey
  | platform
  | reversePolicy
  | pruneThreshold
  | coreFamily
  deriving DecidableEq

namespace OptionKey

/-- The options, in their fixed order. -/
def all : List OptionKey := [platform, reversePolicy, pruneThreshold, coreFamily]

def name : OptionKey → String
  | platform => "platform"
  | reversePolicy => "reverse_policy"
  | pruneThreshold => "pending_prune_threshold"
  | coreFamily => "core_family"

def ofName? (s : String) : Option OptionKey := all.find? (·.name = s)

end OptionKey

def Platform.name : Platform → String
  | windows32 => "windows32"
  | other => "other"

def Platform.ofName? (s : String) : Option Platform := [windows32, other].find? (·.name = s)

def ReversePolicy.name : ReversePolicy → String
  | canonical => "canonical"
  | lastInserted => "last_inserted"

def ReversePolicy.ofName? (s : String) : Option ReversePolicy :=
  [canonical, lastInserted].find? (·.name = s)

structure PartialOptions where
  platform : Option Platform := none
  reversePolicy : Option ReversePolicy := none
  pruneThreshold : Option Nat := none
  coreFamily : Option String := none
  deriving DecidableEq

namespace PartialOptions

def gives (p : PartialOptions) : OptionKey → Bool
  | .platform => p.platform.isSome
  | .reversePolicy => p.reversePolicy.isSome
  | .pruneThreshold => p.pruneThreshold.isSome
  | .coreFamily => p.coreFamily.isSome

/-- The options with defaults where nothing is given. -/
def complete (p : PartialOptions) : Options :=
  let default : Options := {}
  { platform := p.platform.getD default.platform
    reversePolicy := p.reversePolicy.getD default.reversePolicy
    pruneThreshold := p.pruneThreshold.getD default.pruneThreshold
    coreFamily := p.coreFamily.getD default.coreFamily }

end PartialOptions

/-! ## Reading -/

/-- A choice by its name, alone or as the one key of an object whose value is `null`. -/
def choice? {α : Type} (ofName? : String → Option α) (cs : List Char) : Option (α × List Char) :=
  match skipBlank cs with
  | '\x7b' :: rest => do
    let (name, rest) ← string? rest
    let a ← ofName? name
    match skipBlank rest with
    | ':' :: rest =>
      match skipBlank (← skipWord? ['n', 'u', 'l', 'l'] (skipBlank rest)) with
      | '\x7d' :: rest => some (a, rest)
      | _ => none
    | _ => none
  | cs => do
    let (name, rest) ← string? cs
    return (← ofName? name, rest)

def OptionKey.read? (p : PartialOptions) (cs : List Char) :
    OptionKey → Option (PartialOptions × List Char)
  | .platform => (choice? Platform.ofName? cs).map fun (a, rest) =>
    ({ p with platform := some a }, rest)
  | .reversePolicy => (choice? ReversePolicy.ofName? cs).map fun (a, rest) =>
    ({ p with reversePolicy := some a }, rest)
  | .pruneThreshold => (natural? cs).map fun (n, rest) =>
    ({ p with pruneThreshold := some n }, rest)
  | .coreFamily => (string? cs).map fun (s, rest) =>
    ({ p with coreFamily := some s }, rest)

/-- Read the value of a member of an object.  An option that was given before is refused, and a
member of another name is skipped. -/
def member? (p : PartialOptions) (name : String) (cs : List Char) :
    Option (PartialOptions × List Char) :=
  match OptionKey.ofName? name with
  | some key => if p.gives key then none else key.read? p cs
  | none => (skipValue? cs).map fun rest => (p, rest)

/-- Read the members of an object up to its closing brace, at most `count` of them. -/
def members? : Nat → PartialOptions → List Char → Option (PartialOptions × List Char)
  | 0, _, _ => none
  | count + 1, p, cs => do
    let (name, rest) ← string? cs
    match skipBlank rest with
    | ':' :: rest =>
      let (p, rest) ← member? p name rest
      match skipBlank rest with
      | ',' :: rest => members? count p rest
      | '\x7d' :: rest => some (p, rest)
      | _ => none
    | _ => none

/-- Read the values of an array up to its closing bracket, for these options in order. -/
def elements? : List OptionKey → PartialOptions → List Char → Option (PartialOptions × List Char)
  | [], _, _ => none
  | key :: keys, p, cs => do
    let (p, rest) ← key.read? p cs
    match skipBlank rest with
    | ',' :: rest => elements? keys p rest
    | ']' :: rest => some (p, rest)
    | _ => none

/-- Read an object or an array of options.  An object has fewer members than characters. -/
def PartialOptions.read? (cs : List Char) : Option (PartialOptions × List Char) :=
  match skipBlank cs with
  | '\x7b' :: rest =>
    match skipBlank rest with
    | '\x7d' :: rest => some ({}, rest)
    | rest => members? rest.length {} rest
  | '[' :: rest =>
    match skipBlank rest with
    | ']' :: rest => some ({}, rest)
    | rest => elements? OptionKey.all {} rest
  | _ => none

/-- The options of a JSON text, which holds nothing but blanks around them. -/
def Options.ofJson? (text : String) : Option Options :=
  match PartialOptions.read? text.toList with
  | some (p, rest) => if skipBlank rest = [] then some p.complete else none
  | none => none

/-- The options of a JSON text, if they hold together. -/
def Options.ofText (text : String) : Except OptionsFault Options :=
  match Options.ofJson? text with
  | none => .error .unreadable
  | some o =>
    match o.validate with
    | .error f => .error f
    | .ok () => .ok o

end ForeignTypes
