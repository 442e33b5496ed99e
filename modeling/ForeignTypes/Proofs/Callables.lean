import ForeignTypes.Proofs.Acceptance
import ForeignTypes.Proofs.Sizes

/-!
# Callable types

A function pointer goes across position by position: its arguments in order, then its result, each
by the same map as any other type.  The first position that does not go across gives the error, and
a pointer whose arguments were never declared gives one before any position is looked at.  Of the
flags only the lowest bit counts, and name and address count for nothing.

Under a built-in map each position has a way back, so that the pointer can be declared again with
normal forms and has the same callable type.  The map takes `void` to no value at all, which is what
the result of a function may be; but an argument goes across by the same map, and nobody asks
whether it is `void`.

* `FunctionPointer.Crosses`, `FunctionPointer.Refused` — what becomes of a function pointer.
* `Workspace.deriveFunction_eq_ok_iff`, `Workspace.deriveFunction_eq_error_iff` — the two cases.
* **`Workspace.callables_decided`** — derivation and the way back.
* `ScalarMap.KeepsSizesIn.extentOf_eq_none_iff` — what goes across and has no size is `void`.
* **`Workspace.arguments_sized`** — which arguments, results, fields and objects have a size.
* **`Workspace.not_arguments_sized`** — an argument without a size.
-/

namespace ForeignTypes

/-! ## The convention -/

/-- A function is said to keep the C convention exactly if the lowest bit of its flags is set,
whatever the others are. -/
lemma CallFlags.contains_cdecl (flags : CallFlags) :
    flags.contains .cdecl = flags.bits.toNat.testBit 0 := by
  rw [Bool.eq_iff_iff, contains, beq_iff_eq, ← UInt32.toNat_inj, UInt32.toNat_and]
  simp [cdecl, Nat.and_one_is_mod, Nat.testBit_zero]

namespace FunctionPointer

/-- There are two conventions, so that a convention is known by whether it is the second. -/
lemma convention_eq_iff {platform : Platform} {flags : CallFlags} {k : CallingConvention} :
    convention platform flags = k ↔
      (k = .stdcall ↔ platform = .windows32 ∧ flags.bits.toNat.testBit 0 = false) := by
  rw [convention, CallFlags.contains_cdecl]
  cases platform with
  | other => cases k <;> simp [Platform.hasStdcall]
  | windows32 =>
      cases flags.bits.toNat.testBit 0 with
      | true => cases k <;> simp [Platform.hasStdcall]
      | false => cases k <;> simp [Platform.hasStdcall]

/-! ## What becomes of a function pointer -/

/-- The function pointer goes across: each argument in its place, then the result; and the callee
takes the arguments off the stack where that is told apart and the flags do not say otherwise. -/
structure Crosses (w : Workspace) (f : FunctionPointer) (c : FunctionType) : Prop where
  arguments : ∃ args, f.arguments = some args ∧
    List.Forall₂ (fun t v => w.resolveCType t = .ok v) args c.signature.arguments
  result : w.resolveCType f.result = .ok c.signature.result
  convention : c.convention = .stdcall ↔
    w.context.options.platform = .windows32 ∧ f.flags.bits.toNat.testBit 0 = false

/-- Why a function pointer does not go across. -/
inductive Refused (w : Workspace) (f : FunctionPointer) : Error → Prop
  | undeclared (h : f.arguments = none) : Refused w f (.missingArguments f.name)
  /-- The first argument that does not go across. -/
  | argument {before after : List CType} {t : CType} {e : Error}
    (h : f.arguments = some (before ++ t :: after))
    (hbefore : ∀ u ∈ before, ∃ v, w.resolveCType u = .ok v) (ht : w.resolveCType t = .error e) :
    Refused w f e
  /-- The result, where every argument goes across. -/
  | result {args : List CType} {e : Error} (h : f.arguments = some args)
    (hargs : ∀ u ∈ args, ∃ v, w.resolveCType u = .ok v)
    (hresult : w.resolveCType f.result = .error e) : Refused w f e

/-- The parts of a callable type, as they are derived. -/
lemma derive_eq_ok_iff {structs : StructTable} {m : ScalarMap} {platform : Platform}
    {f : FunctionPointer} {c : FunctionType} :
    f.derive structs m platform = .ok c ↔
      (∃ args, f.arguments = some args ∧
        args.mapM (resolve structs m) = .ok c.signature.arguments) ∧
      resolve structs m f.result = .ok c.signature.result ∧
      convention platform f.flags = c.convention := by
  obtain ⟨⟨arguments, result⟩, k⟩ := c
  cases hargs : f.arguments with
  | none => simp [derive, hargs]
  | some args =>
      cases hresolved : args.mapM (resolve structs m) with
      | error e => simp [derive, hargs, hresolved]
      | ok vs =>
          cases hresult : resolve structs m f.result with
          | error e => simp [derive, hargs, hresolved, hresult]
          | ok v => simp [derive, hargs, hresolved, hresult, and_assoc]

/-- The failures of a derivation, first the arguments and then the result. -/
lemma derive_eq_error_iff {structs : StructTable} {m : ScalarMap} {platform : Platform}
    {f : FunctionPointer} {e : Error} :
    f.derive structs m platform = .error e ↔
      f.arguments = none ∧ .missingArguments f.name = e ∨
      ∃ args, f.arguments = some args ∧ (args.mapM (resolve structs m) = .error e ∨
        (∃ vs, args.mapM (resolve structs m) = .ok vs) ∧
          resolve structs m f.result = .error e) := by
  cases hargs : f.arguments with
  | none => simp [derive, hargs]
  | some args =>
      cases hresolved : args.mapM (resolve structs m) with
      | error e' => simp [derive, hargs, hresolved]
      | ok vs =>
          cases hresult : resolve structs m f.result with
          | error e' => simp [derive, hargs, hresolved, hresult]
          | ok v => simp [derive, hargs, hresolved, hresult]

end FunctionPointer

namespace Workspace

variable {w : Workspace} {f g : FunctionPointer} {c : FunctionType} {e : Error}

/-- **What goes across as a function pointer.** -/
theorem deriveFunction_eq_ok_iff : w.deriveFunction f = .ok c ↔ f.Crosses w c := by
  rw [deriveFunction, FunctionPointer.derive_eq_ok_iff]
  simp only [mapM_eq_ok_iff, FunctionPointer.convention_eq_iff]
  exact ⟨fun ⟨hargs, hresult, hk⟩ => ⟨hargs, hresult, hk⟩,
    fun h => ⟨h.arguments, h.result, h.convention⟩⟩

/-- **What is refused as a function pointer, and why.** -/
theorem deriveFunction_eq_error_iff : w.deriveFunction f = .error e ↔ f.Refused w e := by
  rw [deriveFunction, FunctionPointer.derive_eq_error_iff]
  simp only [mapM_eq_error_iff, mapM_eq_ok_iff, exists_forall₂_iff]
  constructor
  · rintro (⟨h, rfl⟩ | ⟨args, h, ⟨before, t, after, rfl, hbefore, ht⟩ | ⟨hargs, hresult⟩⟩)
    · exact .undeclared h
    · exact .argument h hbefore ht
    · exact .result h hargs hresult
  · rintro (h | ⟨h, hbefore, ht⟩ | ⟨h, hargs, hresult⟩)
    · exact .inl ⟨h, rfl⟩
    · exact .inr ⟨_, h, .inl ⟨_, _, _, rfl, hbefore, ht⟩⟩
    · exact .inr ⟨_, h, .inr ⟨hargs, hresult⟩⟩

/-! ## Declared again -/

/-- Under a built-in map what types go across to has a way back, type by type, and goes across from
there. -/
lemma exists_redeclared {policy : ReversePolicy} (hw : w.context.scalars = .builtin policy)
    {args : List CType} {vs : List ValueType}
    (h : List.Forall₂ (fun t v => w.resolveCType t = .ok v) args vs) :
    ∃ args', List.Forall₂ (fun v t => w.resolveValueType v = .ok t ∧ w.resolveCType t = .ok v)
      vs args' := by
  refine exists_forall₂_iff.mpr fun v hv => ?_
  obtain ⟨t, -, ht⟩ := exists_of_forall₂_of_mem h hv
  obtain ⟨t', hback, hagain, -⟩ := (normalise_builtin hw t).2.2 v ht
  exact ⟨t', hback, hagain⟩

/-- **Callable types.**  In every workspace, for every function pointer,

* the derivation fails exactly if the arguments were never declared, whatever else is wrong, or else
  with the error of the first argument that does not go across, or else with that of the result;
* otherwise the callable type has an argument for each that is declared, in order, and the result,
  each as it goes across on its own, and the callee takes the arguments off the stack exactly on
  32-bit Windows where the lowest flag is not set;
* neither name nor address nor any other flag makes a difference to the callable type;
* under a built-in map, the arguments and the result all have a way back, and the function pointer
  that is declared with these has the same callable type. -/
theorem callables_decided (w : Workspace) (f : FunctionPointer) :
    (∀ e, w.deriveFunction f = .error e ↔ f.Refused w e) ∧
    (∀ c, w.deriveFunction f = .ok c ↔ f.Crosses w c) ∧
    (∀ (g : FunctionPointer) (c : FunctionType), g.arguments = f.arguments →
      g.result = f.result → g.flags.bits.toNat.testBit 0 = f.flags.bits.toNat.testBit 0 →
      (w.deriveFunction g = .ok c ↔ w.deriveFunction f = .ok c)) ∧
    ∀ (policy : ReversePolicy) (c : FunctionType), w.context.scalars = .builtin policy →
      w.deriveFunction f = .ok c → ∃ args result,
        List.Forall₂ (fun v t => w.resolveValueType v = .ok t) c.signature.arguments args ∧
        w.resolveValueType c.signature.result = .ok result ∧
        w.deriveFunction { f with arguments := some args, result } = .ok c := by
  refine ⟨fun e => deriveFunction_eq_error_iff, fun c => deriveFunction_eq_ok_iff, ?_, ?_⟩
  · intro g c hargs hresult hflag
    rw [deriveFunction_eq_ok_iff, deriveFunction_eq_ok_iff]
    constructor
    · rintro ⟨harguments, hres, hconvention⟩
      exact ⟨hargs ▸ harguments, hresult ▸ hres, hflag ▸ hconvention⟩
    · rintro ⟨harguments, hres, hconvention⟩
      exact ⟨hargs ▸ harguments, hresult ▸ hres, hflag ▸ hconvention⟩
  · intro policy c hw hc
    obtain ⟨⟨args, -, hargs⟩, hresult, hconvention⟩ := deriveFunction_eq_ok_iff.mp hc
    obtain ⟨args', hargs'⟩ := exists_redeclared hw hargs
    obtain ⟨result', hback, hagain, -⟩ := (normalise_builtin hw f.result).2.2 _ hresult
    refine ⟨args', result', hargs'.imp fun _ _ h => h.1, hback, ?_⟩
    exact deriveFunction_eq_ok_iff.mpr
      ⟨⟨args', rfl, (hargs'.imp fun _ _ h => h.2).flip⟩, hagain, hconvention⟩

/-- A context on 32-bit Windows in which the last scalar stands for a value type. -/
def onWindows : Workspace :=
  ⟨{}, .new ⟨0⟩ { platform := .windows32, reversePolicy := .lastInserted }⟩

/-- A function of a string and of a pointer to a pointer to wide strings, without a result, whose
flags are all set but the lowest. -/
def stringFunction : FunctionPointer where
  name := "f"
  address := 4096
  arguments := some [.scalar .charPtr, .pointer (.pointer (.scalar .wcharPtr))]
  result := .void
  flags := ⟨0xfffffffe⟩

def stringCallable : FunctionType where
  signature :=
    ⟨[.pointer (.int true .w8), .pointer (.pointer (.pointer (.int false .w32)))], .unit⟩
  convention := .stdcall

/-- Strings come back as pointers to characters, and nothing as nothing; so declared, the function
has the same callable type. -/
theorem callables_decided_stringFunction :
    onWindows.deriveFunction stringFunction = .ok stringCallable ∧
    ∃ args result,
      List.Forall₂ (fun v t => onWindows.resolveValueType v = .ok t)
        stringCallable.signature.arguments args ∧
      onWindows.resolveValueType .unit = .ok result ∧
      onWindows.deriveFunction { stringFunction with arguments := some args, result }
        = .ok stringCallable := by
  have hc : onWindows.deriveFunction stringFunction = .ok stringCallable := by decide
  exact ⟨hc, (callables_decided onWindows stringFunction).2.2.2 .lastInserted _ rfl hc⟩

end Workspace

/-! ## Sizes -/

/-- Of what goes across under a map that keeps sizes, only `void` has no size. -/
lemma ScalarMap.KeepsSizesIn.extentOf_eq_none_iff {m : ScalarMap} {p : Process}
    (hm : m.KeepsSizesIn p.types) {t : CType} {v : ValueType} (h : m.valueTypeOf? t = some v) :
    p.types.extentOf v = none ↔ t = .void := by
  constructor
  · intro hnone
    by_contra ht
    obtain ⟨e, -, he⟩ := hm.extentOf ht h
    exact absurd (hnone.symm.trans he) (by simp)
  · rintro rfl
    obtain rfl := Option.some.inj h
    rfl

namespace Workspace

variable {w : Workspace} {f : FunctionPointer} {c : FunctionType} {policy : ReversePolicy}

lemma keepsSizesIn_of_builtin (hw : w.context.scalars = .builtin policy) :
    w.context.scalars.KeepsSizesIn w.process.types :=
  hw ▸ (ScalarMap.keepsSizes_builtin policy).keepsSizesIn _

/-- What goes across in a context of a built-in map has a size, unless it is `void`. -/
lemma extentOf_eq_none_iff_of_builtin (hw : w.context.scalars = .builtin policy) {t : CType}
    {v : ValueType} (h : w.resolveCType t = .ok v) :
    w.process.types.extentOf v = none ↔ t = .void :=
  (keepsSizesIn_of_builtin hw).extentOf_eq_none_iff (resolveCType_eq_ok_iff.mp h)

/-- **What has a size under a built-in map.**

* In a callable type an argument has no size exactly if it is declared `void`, and so has the
  result; in particular, if no argument is declared `void`, all of them have a size.
* Every field of a record has a size, and so has the type of an object that is no struct: there,
  `void` is refused. -/
theorem arguments_sized (hw : w.context.scalars = .builtin policy) :
    (∀ f c, w.deriveFunction f = .ok c → ∃ args, f.arguments = some args ∧
      List.Forall₂ (fun t v => w.process.types.extentOf v = none ↔ t = .void) args
        c.signature.arguments ∧
      (w.process.types.extentOf c.signature.result = none ↔ f.result = .void) ∧
      (.void ∉ args → ∀ v ∈ c.signature.arguments, ∃ e, w.process.types.extentOf v = some e)) ∧
    (∀ (self : StructId) (f : FieldDecl) (field : RecordField),
      f.derive w.process.structs w.context.scalars self = .ok field →
      f.type ≠ .void ∧ ∃ e, w.process.types.extentOf field.type = some e) ∧
    ∀ (t : CType) (v : ValueType), (∀ id, t ≠ .struct id) → (w.typeOfReady t).2 = .ok v →
      t ≠ .void ∧ ∃ e, w.process.types.extentOf v = some e := by
  refine ⟨fun f c hc => ?_, fun self f field hf => ⟨?_, ?_⟩, fun t v ht hv => ?_⟩
  · obtain ⟨⟨args, hargs, hsame⟩, hresult, -⟩ := deriveFunction_eq_ok_iff.mp hc
    have hsized := hsame.imp fun t v h => extentOf_eq_none_iff_of_builtin hw h
    refine ⟨args, hargs, hsized, extentOf_eq_none_iff_of_builtin hw hresult, fun hvoid v hv => ?_⟩
    obtain ⟨t, ht, hiff⟩ := exists_of_forall₂_of_mem hsized hv
    exact Option.ne_none_iff_exists'.mp fun hnone => hvoid (hiff.mp hnone ▸ ht)
  · exact (FieldDecl.derive_eq_ok_iff.mp hf).2.2.1
  · have hsized := hw ▸ ScalarMap.obeys_sized_builtin policy w.process.types
    obtain ⟨e, he, -⟩ := FieldDecl.exists_extent hsized hf
    exact ⟨e, he⟩
  · have hvoid : t ≠ .void := by
      rintro rfl
      exact absurd hv (by simp [typeOfReady])
    have hsame : w.resolveCType t = .ok v := by
      cases t with
      | void => exact absurd rfl hvoid
      | struct id => exact absurd rfl (ht id)
      | scalar s | pointer t => exact hv
    exact ⟨hvoid, Option.ne_none_iff_exists'.mp fun hnone =>
      hvoid ((extentOf_eq_none_iff_of_builtin hw hsame).mp hnone)⟩

/-- The arguments of a function of strings are two pointers, and its result has no size. -/
theorem arguments_sized_stringFunction :
    (∀ v ∈ stringCallable.signature.arguments,
      ∃ e, onWindows.process.types.extentOf v = some e) ∧
    onWindows.process.types.extentOf stringCallable.signature.result = none := by
  have hc : onWindows.deriveFunction stringFunction = .ok stringCallable := by decide
  have hw : onWindows.context.scalars = .builtin .lastInserted := rfl
  obtain ⟨args, hargs, -, hresult, hsized⟩ := (arguments_sized hw).1 _ _ hc
  obtain rfl := Option.some.inj hargs
  exact ⟨hsized (by decide), hresult.mpr rfl⟩

/-- A function of one argument that is declared `void` has a callable type, in which the argument
has no size. -/
theorem not_arguments_sized :
    ¬∀ (w : Workspace) (policy : ReversePolicy) (f : FunctionPointer) (c : FunctionType),
      w.context.scalars = .builtin policy → w.deriveFunction f = .ok c →
      ∀ v ∈ c.signature.arguments, ∃ e, w.process.types.extentOf v = some e := by
  intro hall
  obtain ⟨e, he⟩ := hall ⟨{}, .new ⟨0⟩ {}⟩ .canonical
    { name := "f", address := 4096, arguments := some [.void] }
    ⟨⟨[.unit], .int true .w32⟩, .platform⟩ rfl rfl .unit (by decide)
  exact absurd he (by simp [TypeStore.extentOf, ValueType.extent?])

end Workspace

end ForeignTypes
