import Mathlib.Tactic
import Catter.Library.Decimal
import Catter.Qjs.Ownership
import Catter.Qjs.Plain

/-! The calls that go the other way: a script calls a C++ function through
`invoke_helper`. -/

namespace Catter.Qjs

open Text Library.References Library.References.Ledger

structure CallbackJS (Heap Val : Type) extends QuickJS Heap Val where
  undefined : Val
  isUndefined : Val → Bool
  throwInternalError : Str → Heap → Val × Heap
  -- what is written through the pointer
  toInt32 : Val → Heap → Int32 × Heap

variable {Heap Val : Type} [DecidableEq Val]

structure CallbackRules (js : CallbackJS Heap Val) : Prop extends OwnershipRules js.toQuickJS where
  undefined : js.counted js.undefined = false
  throwTypeError_exception : ∀ msg h, js.isException (js.throwTypeError msg h).1 = true
  throwInternalError : ∀ msg, js.Obeys [] [] (fun _ => 0) (js.throwInternalError msg)
  throwInternalError_exception : ∀ msg h, js.isException (js.throwInternalError msg h).1 = true
  toInt32 : ∀ v, js.Obeys [v] [] (fun _ => 0) (js.toInt32 v)

inductive ParamType
  | native (type : NativeType)
  | object

inductive Param (Val : Type)
  | native (n : Native)
  | object (this : Value Val)

def Param.refs : Param Val → Multiset Val
  | .native _ => 0
  | .object this => Value.refs this

def paramRefs (args : List (Param Val)) : Multiset Val := (args.map Param.refs).sum

section

variable (js : CallbackJS Heap Val)

namespace Param

def destroy : Param Val → Call Heap Unit
  | .native _ => return ()
  | .object this => Value.destroy js.toQuickJS this

def destroyAll : List (Param Val) → Call Heap Unit
  | [] => return ()
  | arg :: args => do
    destroy js arg
    destroyAll args

end Param

namespace Function

def transformer (v : Val) : ParamType → Call Heap (Option (Param Val))
  | .object =>
    if js.isObject v then do
      let this ← Value.ofLvalue js.toQuickJS v
      return some (.object this)
    else return none
  | .native type => do
    let this ← Value.ofLvalue js.toQuickJS v
    let opt ← Value.toNative js.toQuickJS v type
    Value.destroy js.toQuickJS this
    return opt.map .native

-- the arguments of the call of `fn`; those that are there are destroyed when a later one throws
def transformAll : List (Val × ParamType) → Call Heap (Option (List (Param Val)))
  | [] => return some []
  | (v, type) :: rest => do
    match ← transformer js v type with
    | none => return none
    | some arg => do
      match ← transformAll rest with
      | none => do
        Param.destroy js arg
        return none
      | some args => return some (arg :: args)

def throwType (msg : Str) : Call Heap Val := js.call [] [] (js.throwTypeError msg)

def throwInternal (msg : Str) : Call Heap Val := js.call [] [] (js.throwInternalError msg)

def caught (thrown : Thrown) : Call Heap Val := throwInternal js thrown.message

def give : Returned Val → Call Heap Val
  | .void => return js.undefined
  | .native n => do
    let this ← Value.from js.toQuickJS n
    return (Value.release js.toQuickJS this).1
  | .object this => return (Value.release js.toQuickJS this).1

def invokeHelper (params : List ParamType)
    (fn : List (Param Val) → Call Heap (Except Thrown (Returned Val)))
    (argv : List Val) : Call Heap Val :=
  if argv.length ≠ params.length then throwType js (lit "Incorrect number of arguments")
  else do
    match ← transformAll js (argv.zip params) with
    | none => caught js (.qjs (lit "Failed to convert function parameter"))
    | some args => do
      match ← fn args with
      | .error thrown => do
        Param.destroyAll js args
        caught js thrown
      | .ok returned => do
        Param.destroyAll js args
        give js returned

end Function

def Lends (fn : List (Param Val) → Call Heap (Except Thrown (Returned Val))) : Prop :=
  ∀ (owned : Multiset Val) (args : List (Param Val)),
    js.Keeps (paramRefs args + owned) (fn args) fun result =>
      result.toOption.elim 0 Returned.refs + (paramRefs args + owned)

end

variable {js : CallbackJS Heap Val} {owned : Multiset Val} (rules : CallbackRules js)

include rules

namespace Param

lemma destroy_keeps (arg : Param Val) : js.Keeps (arg.refs + owned) (destroy js arg) fun _ =>
    owned := by
  cases arg with
  | native n => exact Keeps.pure (zero_add owned)
  | object this => exact Value.destroy_keeps rules.toOwnershipRules this

lemma destroyAll_keeps (args : List (Param Val)) :
    js.Keeps (paramRefs args + owned) (destroyAll js args) fun _ => owned := by
  induction args with
  | nil => exact Keeps.pure (zero_add owned)
  | cons arg args ih =>
    rw [paramRefs, List.map_cons, List.sum_cons, add_assoc]
    apply Keeps.bind (destroy_keeps rules arg)
    intro _
    exact ih

end Param

namespace Function

lemma transformer_keeps {v : Val} (hv : js.counted v = true → v ∈ owned) (type : ParamType) :
    js.Keeps owned (transformer js v type) fun arg => arg.elim 0 Param.refs + owned := by
  cases type with
  | object =>
    rw [transformer]
    split_ifs
    · apply Keeps.bind (Value.ofLvalue_keeps rules.toOwnershipRules hv)
      intro this
      exact Keeps.pure rfl
    · exact Keeps.pure (zero_add owned).symm
  | native type =>
    apply Keeps.bind (Value.ofLvalue_keeps rules.toOwnershipRules hv)
    intro this
    apply Keeps.bind (Value.toNative_keeps rules.toOwnershipRules
      (fun h => Multiset.mem_add.mpr (Or.inr (hv h))) type)
    intro opt
    apply Keeps.bind (Value.destroy_keeps rules.toOwnershipRules this)
    intro _
    apply Keeps.pure
    cases opt with
    | none => exact (zero_add owned).symm
    | some n => exact (zero_add owned).symm

lemma transformAll_keeps {args : List (Val × ParamType)}
    (hargs : ∀ arg ∈ args, js.counted arg.1 = true → arg.1 ∈ owned) :
    js.Keeps owned (transformAll js args) fun converted => converted.elim 0 paramRefs + owned := by
  induction args generalizing owned with
  | nil => exact Keeps.pure (zero_add owned).symm
  | cons arg rest ih =>
    obtain ⟨v, type⟩ := arg
    apply Keeps.bind (transformer_keeps rules (hargs (v, type) List.mem_cons_self) type)
    intro arg
    cases arg with
    | none => exact Keeps.pure rfl
    | some arg =>
      rw [Option.elim_some]
      apply Keeps.bind (ih fun w hw hcounted =>
        Multiset.mem_add.mpr (Or.inr (hargs w (List.mem_cons_of_mem _ hw) hcounted)))
      intro converted
      cases converted with
      | none =>
        rw [Option.elim_none, zero_add]
        apply Keeps.bind (Param.destroy_keeps rules arg)
        intro _
        exact Keeps.pure (zero_add owned).symm
      | some args =>
        apply Keeps.pure
        rw [Option.elim_some, Option.elim_some, paramRefs, paramRefs, List.map_cons, List.sum_cons,
          add_assoc,
          add_left_comm]

omit rules in
lemma keeps_exception {f : Heap → Val × Heap} (hf : js.Obeys [] [] (fun _ => 0) f)
    (huncounted : ∀ h, js.counted (f h).1 = false) : js.Keeps owned (js.call [] [] f) fun v =>
      {v} + owned := by
  intro h hb
  obtain ⟨hrun, hafter⟩ := call_balanced hf (by simp) (by simpa using hb)
  rw [hrun]
  rw [zero_add] at hafter
  exact (balanced_uncounted (huncounted h)).mpr hafter

lemma throwType_keeps (msg : Str) : js.Keeps owned (throwType js msg) fun v => {v} + owned :=
  keeps_exception (rules.throwTypeError msg) fun h =>
    rules.exception _ (rules.throwTypeError_exception msg h)

lemma throwInternal_keeps (msg : Str) : js.Keeps owned (throwInternal js msg) fun v =>
    {v} + owned :=
  keeps_exception (rules.throwInternalError msg) fun h =>
    rules.exception _ (rules.throwInternalError_exception msg h)

lemma caught_keeps (thrown : Thrown) : js.Keeps owned (caught js thrown) fun v => {v} + owned :=
  throwInternal_keeps rules thrown.message

lemma keeps_release (this : Value Val) :
    js.Keeps (Value.refs this + owned) (pure (Value.release js.toQuickJS this).1) fun v =>
      {v} + owned := by
  apply Value.keeps_value rules.toOwnershipRules
  exact Keeps.pure rfl

lemma give_keeps (returned : Returned Val) :
    js.Keeps (returned.refs + owned) (give js returned) fun v => {v} + owned := by
  cases returned with
  | void =>
    have hnone : (Returned.void : Returned Val).refs + owned = owned := zero_add owned
    rw [hnone]
    apply Value.keeps_of_uncounted rules.undefined
    exact Keeps.pure rfl
  | native n =>
    have hnone : (Returned.native n : Returned Val).refs + owned = owned := zero_add owned
    rw [hnone]
    apply Keeps.bind (Value.from_keeps rules.toOwnershipRules n)
    intro this
    exact keeps_release rules this
  | object this => exact keeps_release rules this

lemma invokeHelper_keeps {params : List ParamType}
    {fn : List (Param Val) → Call Heap (Except Thrown (Returned Val))}
    (hfn : Lends js fn) {argv : List Val} (hargv : ∀ v ∈ argv, js.counted v = true → v ∈ owned) :
    js.Keeps owned (invokeHelper js params fn argv) fun v => {v} + owned := by
  rw [invokeHelper]
  split_ifs
  · exact throwType_keeps rules _
  · apply Keeps.bind (transformAll_keeps rules fun arg harg => hargv arg.1 (List.of_mem_zip harg).1)
    intro converted
    cases converted with
    | none =>
      rw [Option.elim_none, zero_add]
      exact caught_keeps rules _
    | some args =>
      apply Keeps.bind (hfn owned args)
      intro result
      rw [add_left_comm]
      cases result with
      | error thrown =>
        apply Keeps.bind (Param.destroyAll_keeps rules args)
        intro _
        have hnone : (Except.error thrown : Except Thrown (Returned Val)).toOption.elim 0
          Returned.refs + owned = owned :=
          zero_add owned
        rw [hnone]
        exact caught_keeps rules thrown
      | ok returned =>
        apply Keeps.bind (Param.destroyAll_keeps rules args)
        intro _
        exact give_keeps rules returned

end Function

/-! The two functions of the C API that have to do with objects of the script. -/

section

variable (js)

omit rules

def badOptionalAccess : Thrown := .std (lit "bad optional access")

def partAt (pathParts : Val) (i : ℕ) : Call Heap (Except Thrown Str) := do
  match ← Object.getProperty js.toQuickJS pathParts (Library.Decimal.decimal i) with
  | .error details => return .error (.qjs details)
  | .ok part => do
    let str ← Value.toNative js.toQuickJS (Value.value js.toQuickJS part) .string
    Value.destroy js.toQuickJS part
    match str with
    | some (.string str) => return .ok str
    | _ => return .error badOptionalAccess

def partsAt (pathParts : Val) : List ℕ → Call Heap (Except Thrown (List Str))
  | [] => return .ok []
  | i :: is => do
    match ← partAt js pathParts i with
    | .error thrown => return .error thrown
    | .ok part => do
      match ← partsAt pathParts is with
      | .error thrown => return .error thrown
      | .ok parts => return .ok (part :: parts)

/-- `joined` is what `operator/=` makes of the parts. -/
def fsPathJoinAll (joined : List Str → Str) :
    List (Param Val) → Call Heap (Except Thrown (Returned Val))
  | [.object pathParts] => do
    let this := Value.value js.toQuickJS pathParts
    match ← Object.getProperty js.toQuickJS this (lit "length") with
    | .error details => return .error (.qjs details)
    | .ok lenVal => do
      let len := js.toUint32 (Value.value js.toQuickJS lenVal)
      Value.destroy js.toQuickJS lenVal
      match len with
      | none => return .error badOptionalAccess
      | some len => do
        match ← partsAt js this (List.range len.toNat) with
        | .error thrown => return .error thrown
        | .ok parts => return .ok (.native (.string (joined parts)))
  | _ => return .error badOptionalAccess

def pushAll (arr : Val) : List Str → Call Heap (Option Exception)
  | [] => return none
  | entry :: entries => do
    match ← Array.push js.toQuickJS arr (.string entry) with
    | some details => return some details
    | none => pushAll arr entries

/-- How a `directory_iterator` ends: with an error code where it cannot begin, with an exception
where it cannot go on. -/
inductive Listing
  | whole
  | failed (why : Str)
  | threw (what : Str)

/-- `list` says of a path that it is no directory, or which entries are read and how that ends. -/
def fsListDir (list : Str → Option (List Str × Listing)) :
    List (Param Val) → Call Heap (Except Thrown (Returned Val))
  | [.native (.string path)] =>
    match list path with
    | none => return .error (.qjs (lit "Path is not a directory: " ++ path))
    | some (entries, listing) => do
      let resArr ← Array.emptyOne js.toQuickJS
      match ← pushAll js (Value.value js.toQuickJS resArr) entries with
      | some details => do
        Value.destroy js.toQuickJS resArr
        return .error (.qjs details)
      | none =>
        match listing with
        | .failed why => do
          Value.destroy js.toQuickJS resArr
          return .error (.qjs (lit "Failed to list directory: " ++ path ++ lit ", error: " ++ why))
        | .threw what => do
          Value.destroy js.toQuickJS resArr
          return .error (.std what)
        | .whole => return .ok (.object (Value.fromObjectRvalue resArr).1)
  | _ => return .error badOptionalAccess

end

lemma partAt_keeps {pathParts : Val} (h : js.counted pathParts = true → pathParts ∈ owned) (i : ℕ) :
    js.Keeps owned (partAt js pathParts i) fun _ => owned := by
  apply Keeps.bind (Object.getProperty_keeps rules.toOwnershipRules h _)
  intro result
  cases result with
  | error details => exact Keeps.pure (zero_add owned)
  | ok part =>
    have hone : resultRefs (Except.ok part) + owned = Value.refs part + owned := rfl
    have hpart : js.counted (Value.value js.toQuickJS part) = true →
      Value.value js.toQuickJS part ∈ Value.refs part + owned :=
      Value.value_mem rules.toOwnershipRules (by rintro v rfl; simp)
    rw [hone]
    apply Keeps.bind (Value.toNative_keeps rules.toOwnershipRules hpart .string)
    intro str
    apply Keeps.bind (Value.destroy_keeps rules.toOwnershipRules part)
    intro _
    split
    · exact Keeps.pure rfl
    · exact Keeps.pure rfl

lemma partsAt_keeps {pathParts : Val} (h : js.counted pathParts = true → pathParts ∈ owned)
    (is : List ℕ) :
    js.Keeps owned (partsAt js pathParts is) fun _ => owned := by
  induction is with
  | nil => exact Keeps.pure rfl
  | cons i is ih =>
    apply Keeps.bind (partAt_keeps rules h i)
    intro part
    cases part with
    | error thrown => exact Keeps.pure rfl
    | ok part =>
      apply Keeps.bind ih
      intro parts
      cases parts with
      | error thrown => exact Keeps.pure rfl
      | ok parts => exact Keeps.pure rfl

variable (js) in
omit rules in
lemma keeps_failed {thrown : Thrown} :
    js.Keeps owned (pure (.error thrown) : Call Heap (Except Thrown (Returned Val))) fun result =>
      result.toOption.elim 0 Returned.refs + owned := Keeps.pure (zero_add owned).symm

lemma fsPathJoinAll_lends (joined : List Str → Str) : Lends js (fsPathJoinAll js joined) := by
  intro owned args
  match args with
  | [.object pathParts] =>
    have hthis : js.counted (Value.value js.toQuickJS pathParts) = true →
        Value.value js.toQuickJS pathParts ∈ paramRefs [.object pathParts] + owned :=
      Value.value_mem rules.toOwnershipRules (by rintro v rfl; simp [paramRefs, Param.refs])
    apply Keeps.bind (Object.getProperty_keeps rules.toOwnershipRules hthis _)
    intro result
    cases result with
    | error details => exact Keeps.pure rfl
    | ok lenVal =>
      apply Keeps.bind (Value.destroy_keeps rules.toOwnershipRules lenVal)
      intro _
      cases js.toUint32 (Value.value js.toQuickJS lenVal) with
      | none => exact keeps_failed js
      | some len =>
        apply Keeps.bind (partsAt_keeps rules hthis _)
        intro parts
        cases parts with
        | error thrown => exact keeps_failed js
        | ok parts => exact Keeps.pure (zero_add _).symm
  | [] => exact keeps_failed js
  | [.native n] => exact keeps_failed js
  | .object this :: _ :: _ => exact keeps_failed js
  | .native n :: _ :: _ => exact keeps_failed js

lemma pushAll_keeps {arr : Val} (h : js.counted arr = true → arr ∈ owned) (entries : List Str) :
    js.Keeps owned (pushAll js arr entries) fun _ => owned := by
  induction entries with
  | nil => exact Keeps.pure rfl
  | cons entry entries ih =>
    apply Keeps.bind (Array.push_keeps rules.toOwnershipRules h (.string entry))
    intro failed
    cases failed with
    | none => exact ih
    | some details => exact Keeps.pure rfl

lemma fsListDir_lends (list : Str → Option (List Str × Listing)) :
    Lends js (fsListDir js list) := by
  intro owned args
  match args with
  | [.native (.string path)] =>
    rw [fsListDir]
    cases list path with
    | none => exact keeps_failed js
    | some listed =>
      obtain ⟨entries, listing⟩ := listed
      apply Keeps.bind (Array.emptyOne_keeps rules.toOwnershipRules)
      intro resArr
      have harr : js.counted (Value.value js.toQuickJS resArr) = true →
        Value.value js.toQuickJS resArr ∈
          Value.refs resArr + (paramRefs [.native (.string path)] + owned) :=
        Value.value_mem rules.toOwnershipRules (by rintro v rfl; simp)
      apply Keeps.bind (pushAll_keeps rules harr entries)
      intro details
      cases details with
      | some details =>
        apply Keeps.bind (Value.destroy_keeps rules.toOwnershipRules resArr)
        intro _
        exact keeps_failed js
      | none =>
        cases listing with
        | failed why =>
          apply Keeps.bind (Value.destroy_keeps rules.toOwnershipRules resArr)
          intro _
          exact keeps_failed js
        | threw what =>
          apply Keeps.bind (Value.destroy_keeps rules.toOwnershipRules resArr)
          intro _
          exact keeps_failed js
        | whole =>
          apply Keeps.pure
          cases resArr with
          | none => rfl
          | some v => rfl
  | [] => exact keeps_failed js
  | [.object this] => exact keeps_failed js
  | [.native (.bool b)] => exact keeps_failed js
  | [.native (.int64 n)] => exact keeps_failed js
  | [.native (.int32 n)] => exact keeps_failed js
  | [.native (.uint32 n)] => exact keeps_failed js
  | .object this :: _ :: _ => exact keeps_failed js
  | .native n :: _ :: _ => cases n <;> exact keeps_failed js

/-- A script's call of a C++ function, whatever its arguments and however it ends, uses only
references that are there, and afterwards the script owns the result and nothing else has changed
hands; the functions of the C API that have to do with objects lend what they are given. -/
theorem capi_call_balanced :
    (∀ (params : List ParamType) (fn : List (Param Val) → Call Heap (Except Thrown (Returned Val)))
      (argv : List Val)
      (owned : Multiset Val) (h : Heap), Lends js fn →
        (∀ v ∈ argv, js.counted v = true → v ∈ owned) →
      js.Balanced owned h →
      ∃ v h', Function.invokeHelper js params fn argv h = (.ok v, h') ∧
        js.Balanced ({v} + owned) h') ∧
    (∀ joined, Lends js (fsPathJoinAll js joined)) ∧ ∀ list, Lends js (fsListDir js list) := by
  refine ⟨?_, fsPathJoinAll_lends rules, fsListDir_lends rules⟩
  intro params fn argv owned h hfn hargv hb
  exact (Function.invokeHelper_keeps rules hfn hargv).run hb

omit rules

def plainCallbacks : CallbackJS PlainHeap PlainVal where
  toQuickJS := plain
  undefined := .undefined
  isUndefined v := v = .undefined
  throwInternalError _ h := (.exception, h)
  toInt32
    | .number n, h => (Int32.ofInt n, h)
    | _, h => (0, h)

lemma plainCallbacks_rules : CallbackRules plainCallbacks where
  toOwnershipRules := plain_rules
  undefined := rfl
  throwTypeError_exception _ _ := rfl
  throwInternalError _ := plain_obeys fun _ _ _ _ => rfl
  throwInternalError_exception _ _ := rfl
  toInt32 v := by
    apply plain_obeys
    intro h w _ _
    cases v <;> rfl

theorem list_dir_balanced :
    ∃ v h', Function.invokeHelper plainCallbacks [.native .string]
        (fsListDir plainCallbacks fun _ => some ([lit "/d/a", lit "/d/b"], .whole)) [.string 1]
        (plain.newStringLen (lit "/d") .start).2 = (.ok v, h') ∧
          plain.Balanced ({v} + {.string 1}) h' := by
  obtain ⟨hcall, -, hlist⟩ := capi_call_balanced plainCallbacks_rules
  apply hcall _ _ [.string 1] {.string 1} _ (hlist _) (by simp)
  intro w _
  have hone : Multiset.count w {PlainVal.string 1} = [PlainVal.string 1].count w := by
    rw [← Multiset.coe_singleton, Multiset.coe_count]
  rw [hone]
  rfl

end Catter.Qjs
