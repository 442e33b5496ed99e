import ForeignTypes.Workspace

/-!
# Making a family ready

A context makes the family of a module ready by running the support module that is registered for
it.  A module may ask for other families while it runs, and those for others again; since a family
is marked before its module starts, each module that runs inside another one is for a family that
was not marked before, and no chain of runs is longer than the number of families.

* `Workspace.performWith`, `Workspace.runWith` — one action, and the actions of a module, where
  asking for a family is given.
* `Workspace.ensureWithin` — asking for a family, with a bound on how deep modules may run inside
  one another; it answers nothing if the bound is too small.
* `Workspace.ensure` — the same with the number of families as the bound.
* `Workspace.typeOf` — the type of a foreign object, once its family is ready.
-/

namespace ForeignTypes

/-- A way to make the family of a module ready, if it comes to an answer. -/
abbrev Ensure := Workspace → String → Option (Workspace × Except Error Unit)

namespace Workspace

/-! ## Types of objects -/

/-- The type of a value of a C type whose family is ready. -/
def typeOfReady (w : Workspace) (t : CType) : Workspace × Except Error ValueType :=
  match t with
  | .struct id => w.deriveRecord id
  | .void => (w, .error (.unsupportedCType (w.process.structs.textOf .void)))
  | t => (w, w.resolveCType t)

/-- The type of an object of a C type that a module declares. -/
def typeOfWith (ensure : Ensure) (w : Workspace) (module : String) (t : CType) :
    Option (Workspace × Except Error ValueType) :=
  match ensure w module with
  | none => none
  | some (w', .error e) => some (w', .error e)
  | some (w', .ok ()) => some (w'.typeOfReady t)

/-! ## Running a module -/

def record (w : Workspace) (e : SupportEvent) : Workspace :=
  { w with context := { w.context with log := w.context.log ++ [e] } }

def provide (w : Workspace) (family : String) (p : Provider) : Workspace :=
  { w with context := { w.context with support := (w.context.support.register family p).1 } }

def provideModule (w : Workspace) (m : ModuleId) : Workspace :=
  match w.process.modules[m.index]? with
  | some s => w.provide s.family (.scripted m)
  | none => w

def failure? {α : Type} : Except Error α → Option Error
  | .error e => some e
  | .ok _ => none

/-- Type an object for a module for `family`, and write down what came of it. -/
def typeNotedWith (ensure : Ensure) (family : String) (run : Nat) (w : Workspace) (module : String)
    (t : CType) : Option (Workspace × Except Error Unit) :=
  match typeOfWith ensure w module t with
  | none => none
  | some (w', r) =>
    let result := r.map w'.process.types.textOf
    some (w'.record (.typed family run (w'.process.structs.textOf t) result), r.map fun _ => ())

/-- Do one thing of a module for `family`, in its run of a given number. -/
def performWith (ensure : Ensure) (family : String) (run : Nat) (w : Workspace) :
    Action → Option (Workspace × Except Error Unit)
  | .mapScalar s t => some (w.mapScalar s t, .ok ())
  | .provide m => some (w.provideModule m, .ok ())
  | .require path =>
    match ensure w path with
    | none => none
    | some (w', r) => some (w'.record (.asked family run path (failure? r)), r)
  | .invite path =>
    match ensure w path with
    | none => none
    | some (w', r) => some (w'.record (.asked family run path (failure? r)), .ok ())
  | .typeStruct id => typeNotedWith ensure family run w (w.process.moduleOf id) (.struct id)
  | .typeObject module t => typeNotedWith ensure family run w module t
  | .fail message => some (w, .error (.fault message))
  | .failIn n message => some (w, if run = n then .error (.fault message) else .ok ())

/-- Do the things of a module in order, up to the first that fails. -/
def runWith (ensure : Ensure) (family : String) (run : Nat) :
    Workspace → List Action → Option (Workspace × Except Error Unit)
  | w, [] => some (w, .ok ())
  | w, a :: rest =>
    match performWith ensure family run w a with
    | none => none
    | some (w', .error e) => some (w', .error e)
    | some (w', .ok ()) => runWith ensure family run w' rest

/-- Start a provider: the built-in support does nothing, and a module counts its run and does what
it does. -/
def startWith (ensure : Ensure) (w : Workspace) : Provider → Option (Workspace × Except Error Unit)
  | .builtin => some (w, .ok ())
  | .scripted m =>
    match w.process.modules[m.index]? with
    | none => some (w, .ok ())
    | some s =>
      let run := s.starts + 1
      let modules := w.process.modules.modify m.index ({ · with starts := run })
      let started := { w with process := { w.process with modules } }
      runWith ensure s.family run (started.record (.started s.family run)) s.actions

/-! ## Asking for a family -/

def setSupport (w : Workspace) (support : SupportRegistry) : Workspace :=
  { w with context := { w.context with support } }

/-- Make the family of a module ready, with modules running at most `depth` deep inside one
another.  A family whose module fails is not ready, and may be asked for again. -/
def ensureWithin : Nat → Ensure
  | depth, w, path =>
    let family := familyOf path
    match w.context.support.begin family with
    | .error e => some (w, .error e)
    | .ok (_, none) => some (w, .ok ())
    | .ok (support, some provider) =>
      match depth with
      | 0 => none
      | depth + 1 =>
        let begun := (w.setSupport support).record (.begun family)
        match startWith (ensureWithin depth) begun provider with
        | none => none
        | some (w', .ok ()) => some (w'.record (.ended family none), .ok ())
        | some (w', .error e) =>
          let aborted := w'.setSupport (w'.context.support.abort family)
          some (aborted.record (.ended family (some e)), .error e)

/-- The families that some support module is for or that have a provider in the context. -/
def families (w : Workspace) : List String :=
  (w.process.modules.map (·.family) ++ w.context.support.families).eraseDups

def ensure (w : Workspace) (path : String) : Workspace × Except Error Unit :=
  match ensureWithin w.families.length w path with
  | some answer => answer
  | none => (w, .error (.noSupport (familyOf path)))

/-- The type of a foreign object.  The support of its family comes first. -/
def typeOf (w : Workspace) (o : ObjectId) : Workspace × Except Error ValueType :=
  match w.process.heap.object? o with
  | none => (w, .error (.unsupportedCType ""))
  | some x =>
    match w.ensure x.module with
    | (w', .error e) => (w', .error e)
    | (w', .ok ()) => w'.typeOfReady x.type

end Workspace

end ForeignTypes
