import Catter.Library.References
import Catter.Text

/-! The wrappers of qjs.h over the reference counts of QuickJS. -/

namespace Catter.Qjs

open Text Library.Triples Library.References

-- The two exceptions that `invoke_helper` catches; any other ends the program, since `proxy` is
-- `noexcept`.
inductive Thrown
  | qjs (what : Str)
  | std (what : Str)

def Thrown.message : Thrown → Str
  | .qjs what => lit "Exception in C++ function: " ++ what
  | .std what => lit "Unexpected exception: " ++ what

/-- QuickJS. A C string is held by the JavaScript string that it points into. -/
structure QuickJS (Heap Val : Type) extends Ledger Heap Val where
  uninitialized : Val
  isException : Val → Bool
  isObject : Val → Bool
  isString : Val → Bool
  toBool : Val → Option Bool
  toInt64 : Val → Option Int64
  toUint32 : Val → Option UInt32
  newBool : Bool → Val
  newInt64 : Int64 → Val
  newUint32 : UInt32 → Val
  newStringLen : Str → Heap → Val × Heap
  newObject : Heap → Val × Heap
  newArray : Heap → Val × Heap
  newObjectClass : ℕ → Heap → Val × Heap
  newCFunction : Str → Heap → Val × Heap
  getGlobalObject : Heap → Val × Heap
  getException : Heap → Val × Heap
  throwTypeError : Str → Heap → Val × Heap
  dupValue : Val → Heap → Unit × Heap
  freeValue : Val → Heap → Unit × Heap
  getPropertyStr : Val → Str → Heap → Val × Heap
  setPropertyStr : Val → Str → Val → Heap → Int32 × Heap
  setPropertyUint32 : Val → UInt32 → Val → Heap → Int32 × Heap
  callFunction : Val → Val → List Val → Heap → Val × Heap
  toCString : Val → Heap → Option (Str × Val) × Heap

variable {Heap Val : Type}

def holder (cString : Option (Str × Val)) : Multiset Val := cString.elim 0 fun s => {s.2}

/-- Who owns what, by the documentation of QuickJS. -/
structure OwnershipRules [DecidableEq Val] (js : QuickJS Heap Val) : Prop where
  uninitialized : js.counted js.uninitialized = false
  exception : ∀ v, js.isException v = true → js.counted v = false
  newBool : ∀ b, js.counted (js.newBool b) = false
  newInt64 : ∀ n, js.counted (js.newInt64 n) = false
  newUint32 : ∀ n, js.counted (js.newUint32 n) = false
  newStringLen : ∀ s, js.Obeys [] [] (fun v => {v}) (js.newStringLen s)
  newObject : js.Obeys [] [] (fun v => {v}) js.newObject
  newObject_counted : ∀ h, js.isException (js.newObject h).1 = false →
    js.counted (js.newObject h).1 = true
  newArray : js.Obeys [] [] (fun v => {v}) js.newArray
  newObjectClass : ∀ id, js.Obeys [] [] (fun v => {v}) (js.newObjectClass id)
  newCFunction : ∀ name, js.Obeys [] [] (fun v => {v}) (js.newCFunction name)
  getGlobalObject : js.Obeys [] [] (fun v => {v}) js.getGlobalObject
  getException : js.Obeys [] [] (fun v => {v}) js.getException
  -- it returns `JS_EXCEPTION`
  throwTypeError : ∀ msg, js.Obeys [] [] (fun _ => 0) (js.throwTypeError msg)
  dupValue : ∀ v, js.Obeys [v] [] (fun _ => {v}) (js.dupValue v)
  freeValue : ∀ v, js.Obeys [] [v] (fun _ => 0) (js.freeValue v)
  getPropertyStr : ∀ obj prop, js.Obeys [obj] [] (fun v => {v}) (js.getPropertyStr obj prop)
  setPropertyStr : ∀ obj prop v, js.Obeys [obj] [v] (fun _ => 0) (js.setPropertyStr obj prop v)
  setPropertyUint32 : ∀ obj index v, js.Obeys [obj] [v]
    (fun _ => 0) (js.setPropertyUint32 obj index v)
  callFunction : ∀ f this argv, js.Obeys (f :: this :: argv) []
    (fun v => {v}) (js.callFunction f this argv)
  toCString : ∀ v, js.Obeys [v] [] holder (js.toCString v)

inductive NativeType
  | bool
  | int64
  | int32
  | uint32
  | string

inductive Native
  | bool (b : Bool)
  | int64 (n : Int64)
  | int32 (n : Int32)
  | uint32 (n : UInt32)
  | string (s : Str)

/-- A wrapper without a context holds `JS_UNINITIALIZED` and no reference. -/
abbrev Value (Val : Type) := Option Val

namespace Value

def refs (this : Value Val) : Multiset Val := this.elim 0 ({·})

@[simp] lemma refs_none : refs (none : Value Val) = 0 := rfl

@[simp] lemma refs_some (v : Val) : refs (some v) = {v} := rfl

end Value

abbrev Exception := Str

section Engine

variable [DecidableEq Val] (js : QuickJS Heap Val)

def jsDupValue (v : Val) : Call Heap Unit := js.call [v] [] (js.dupValue v)

def jsFreeValue (v : Val) : Call Heap Unit := js.call [] [v] (js.freeValue v)

def jsNewStringLen (s : Str) : Call Heap Val := js.call [] [] (js.newStringLen s)

def jsNewObject : Call Heap Val := js.call [] [] js.newObject

def jsNewArray : Call Heap Val := js.call [] [] js.newArray

def jsNewObjectClass (id : ℕ) : Call Heap Val := js.call [] [] (js.newObjectClass id)

def jsNewCFunction (name : Str) : Call Heap Val := js.call [] [] (js.newCFunction name)

def jsGetGlobalObject : Call Heap Val := js.call [] [] js.getGlobalObject

def jsGetException : Call Heap Val := js.call [] [] js.getException

def jsThrowTypeError (msg : Str) : Call Heap Val := js.call [] [] (js.throwTypeError msg)

def jsGetPropertyStr (obj : Val) (prop : Str) : Call Heap Val :=
  js.call [obj] [] (js.getPropertyStr obj prop)

def jsSetPropertyStr (obj : Val) (prop : Str) (v : Val) : Call Heap Int32 :=
  js.call [obj] [v] (js.setPropertyStr obj prop v)

def jsSetPropertyUint32 (obj : Val) (index : UInt32) (v : Val) : Call Heap Int32 :=
  js.call [obj] [v] (js.setPropertyUint32 obj index v)

def jsCall (f this : Val) (argv : List Val) : Call Heap Val :=
  js.call (f :: this :: argv) [] (js.callFunction f this argv)

def jsToCString (v : Val) : Call Heap (Option (Str × Val)) := js.call [v] [] (js.toCString v)

def jsFreeCString : Option (Str × Val) → Call Heap Unit
  | none => pure ()
  | some s => jsFreeValue js s.2

def dump : Call Heap Str := do
  let exceptionVal ← jsGetException js
  let name ← jsGetPropertyStr js exceptionVal (lit "name")
  let errorName ← jsToCString js name
  let stack ← jsGetPropertyStr js exceptionVal (lit "stack")
  let stackStr ← jsToCString js stack
  let msg ← jsToCString js exceptionVal
  let result :=
    lit "Error Name: " ++ errorName.elim (lit "Unknown") Prod.fst ++
      lit "\nMessage: " ++ msg.elim (lit "No message") Prod.fst ++
      lit "\nStack Trace:\n" ++ stackStr.elim (lit "No stack trace") Prod.fst
  jsFreeCString js errorName
  jsFreeCString js stackStr
  jsFreeCString js msg
  jsFreeValue js name
  jsFreeValue js stack
  jsFreeValue js exceptionVal
  return result

namespace Value

/-- `Value(ctx, const JSValue&)`, the constructor that an lvalue selects. -/
def ofLvalue (v : Val) : Call Heap (Value Val) := do
  jsDupValue js v
  return some v

/-- `Value(ctx, JSValue&&)`. -/
def ofRvalue (v : Val) : Value Val := some v

def value (this : Value Val) : Val := this.getD js.uninitialized

def copy : Value Val → Call Heap (Value Val)
  | none => pure none
  | some v => ofLvalue js v

def move (other : Value Val) : Value Val × Value Val := (other, none)

def destroy : Value Val → Call Heap Unit
  | none => pure ()
  | some v => jsFreeValue js v

def copyAssign (this other : Value Val) : Call Heap (Value Val) := do
  destroy js this
  copy js other

def moveAssign (this other : Value Val) : Call Heap (Value Val × Value Val) := do
  destroy js this
  return move other

def release (this : Value Val) : Val × Value Val := (value js this, none)

def «from» : Native → Call Heap (Value Val)
  | .bool b => return ofRvalue (js.newBool b)
  | .int64 n => return ofRvalue (js.newInt64 n.toInt32.toInt64)
  | .int32 n => return ofRvalue (js.newInt64 n.toInt64)
  | .uint32 n => return ofRvalue (js.newUint32 n)
  | .string s => do
    let v ← jsNewStringLen js s
    return ofRvalue v

def fromObject (value : Value Val) : Call Heap (Value Val) :=
  match value with
  | none => pure none
  | some v => ofLvalue js v

def fromObjectRvalue (value : Value Val) : Value Val × Value Val :=
  match value with
  | none => (none, none)
  | some v => (ofRvalue v, none)

def toNative (v : Val) : NativeType → Call Heap (Option Native)
  | .bool => return (js.toBool v).map .bool
  | .int64 => return (js.toInt64 v).map .int64
  | .int32 => return (js.toInt64 v).map fun n => .int32 n.toInt32
  | .uint32 => return (js.toUint32 v).map .uint32
  | .string =>
    if js.isString v then do
      let str ← jsToCString js v
      jsFreeCString js str
      return str.map fun s => .string s.1
    else return none

def toObject (v : Val) : Call Heap (Option (Value Val)) :=
  if js.isObject v then do
    let this ← ofLvalue js v
    return some this
  else return none

end Value

namespace Object

def getProperty (this : Val) (propName : Str) : Call Heap (Except Exception (Value Val)) := do
  let v ← jsGetPropertyStr js this propName
  if js.isException v then do
    let details ← dump js
    Value.destroy js (Value.ofRvalue v)
    return .error details
  else return .ok (Value.ofRvalue v)

def failure (ret : Int32) : Call Heap (Option Exception) :=
  if ret < 0 then do
    let details ← dump js
    return some details
  else return none

def setPropertyNative (this : Val) (propName : Str) (val : Native) :
    Call Heap (Option Exception) := do
  let jsVal ← Value.from js val
  let ret ← jsSetPropertyStr js this propName (Value.value js jsVal)
  let failed ← failure js ret
  -- `js_val` was not released
  Value.destroy js jsVal
  return failed

def setPropertyValue (this : Val) (propName : Str) (val : Value Val) :
    Call Heap (Option Exception) := do
  let ret ← jsSetPropertyStr js this propName (Value.release js val).1
  failure js ret

def emptyOne : Call Heap (Except Exception (Value Val)) := do
  let obj ← jsNewObject js
  if js.isException obj then do
    let details ← dump js
    return .error details
  else do
    -- `obj` is an lvalue
    let this ← Value.ofLvalue js obj
    return .ok this

end Object

namespace Array

def emptyOne : Call Heap (Value Val) := do
  let arr ← jsNewArray js
  return Value.ofRvalue arr

def length (this : Val) : Call Heap (Except Exception UInt32) := do
  match ← Object.getProperty js this (lit "length") with
  | .error details => return .error details
  | .ok lenVal => do
    let lenOpt := js.toUint32 (Value.value js lenVal)
    Value.destroy js lenVal
    return lenOpt.elim (.error (lit "Fail to get array length property!")) .ok

def push (this : Val) (item : Native) : Call Heap (Option Exception) := do
  let jsVal ← Value.from js item
  match ← length js this with
  | .error details => do
    Value.destroy js jsVal
    return some details
  | .ok len => do
    let res ← jsSetPropertyUint32 js this len (Value.release js jsVal).1
    Object.failure js res

end Array

inductive Returned (Val : Type)
  | void
  | native (n : Native)
  | object (this : Value Val)

inductive ReturnType
  | void
  | native (type : NativeType)
  | object

namespace Function

def «from» (id : ℕ) : Call Heap (Value Val) := do
  let v ← jsNewObjectClass js id
  return Value.ofRvalue v

def fromRaw (name : Str) : Call Heap (Value Val) := do
  let v ← jsNewCFunction js name
  return Value.ofRvalue v

def arguments : List Native → Call Heap (List Val)
  | [] => return []
  | arg :: args => do
    let this ← Value.from js arg
    let argv ← arguments args
    return (Value.release js this).1 :: argv

def freeAll : List Val → Call Heap Unit
  | [] => return ()
  | v :: argv => do
    jsFreeValue js v
    freeAll argv

def unconverted (value : Val) : Call Heap (Except Exception (Returned Val)) := do
  let _ ← jsThrowTypeError js (lit "Failed to convert function return value")
  let details ← dump js
  Value.destroy js (Value.ofRvalue value)
  return .error details

def convert (value : Val) : ReturnType → Call Heap (Except Exception (Returned Val))
  | .void => do
    Value.destroy js (Value.ofRvalue value)
    return .ok .void
  | .native type => do
    match ← Value.toNative js value type with
    | none => unconverted js value
    | some n => do
      Value.destroy js (Value.ofRvalue value)
      return .ok (.native n)
  | .object => do
    match ← Value.toObject js value with
    | none => unconverted js value
    | some result => do
      let returned ← Value.copy js result
      Value.destroy js result
      Value.destroy js (Value.ofRvalue value)
      return .ok (.object returned)

def invoke (this thisObj : Val) (args : List Native) (type : ReturnType) :
    Call Heap (Except Exception (Returned Val)) := do
  let argv ← arguments js args
  let value ← jsCall js this thisObj argv
  freeAll js argv
  if js.isException value then do
    let details ← dump js
    Value.destroy js (Value.ofRvalue value)
    return .error details
  else convert js value type

/-- `operator()`: on the global object. -/
def apply (this : Val) (args : List Native) (type : ReturnType) :
    Call Heap (Except Exception (Returned Val)) := do
  let globalObject ← jsGetGlobalObject js
  let result ← invoke js this globalObject args type
  Value.destroy js (Value.ofRvalue globalObject)
  return result

end Function

end Engine

end Catter.Qjs
