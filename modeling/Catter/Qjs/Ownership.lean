import Mathlib.Tactic
import Catter.Qjs.Value

/-! What the functions of the wrappers own before and after. -/

namespace Catter.Qjs

open Text Library.References Library.References.Ledger

variable {Heap Val : Type} [DecidableEq Val] {js : QuickJS Heap Val} {owned : Multiset Val}

lemma keeps_lend {α : Type} {borrows : List Val} {gives : α → Multiset Val} {f : Heap → α × Heap}
    (hf : js.Obeys borrows [] gives f) (hborrows : ∀ v ∈ borrows, js.counted v = true → v ∈ owned) :
    js.Keeps owned (js.call borrows [] f) fun a => gives a + owned := by
  have hkeeps : js.Keeps (([] : List Val) + owned) _ _ := Keeps.call hf (by simpa using hborrows)
  rwa [Multiset.coe_nil, zero_add] at hkeeps

lemma keeps_new {f : Heap → Val × Heap} (hf : js.Obeys [] [] (fun v => {v}) f) :
    js.Keeps owned (js.call [] [] f) fun v => {v} + owned :=
  keeps_lend hf (by simp)

lemma keeps_take {α : Type} {borrows : List Val} {v : Val} {f : Heap → α × Heap}
    (hf : js.Obeys borrows [v] (fun _ => 0) f)
    (hborrows : ∀ w ∈ borrows, js.counted w = true → w ∈ {v} + owned) :
    js.Keeps ({v} + owned) (js.call borrows [v] f) fun _ => owned := by
  have hkeeps : js.Keeps (([v] : List Val) + owned) _ _ := Keeps.call hf (by simpa using hborrows)
  simp only [zero_add] at hkeeps
  exact hkeeps

variable (rules : OwnershipRules js)

include rules

lemma dupValue_keeps {v : Val} (hv : js.counted v = true → v ∈ owned) :
    js.Keeps owned (jsDupValue js v) fun _ => {v} + owned :=
  keeps_lend (rules.dupValue v) (by simpa using hv)

lemma freeValue_keeps (v : Val) : js.Keeps ({v} + owned) (jsFreeValue js v) fun _ => owned :=
  keeps_take (rules.freeValue v) (by simp)

lemma getPropertyStr_keeps {obj : Val} (hobj : js.counted obj = true → obj ∈ owned) (prop : Str) :
    js.Keeps owned (jsGetPropertyStr js obj prop) fun v => {v} + owned :=
  keeps_lend (rules.getPropertyStr obj prop) (by simpa using hobj)

lemma toCString_keeps {v : Val} (hv : js.counted v = true → v ∈ owned) :
    js.Keeps owned (jsToCString js v) fun s => holder s + owned :=
  keeps_lend (rules.toCString v) (by simpa using hv)

lemma freeCString_keeps (s : Option (Str × Val)) :
    js.Keeps (holder s + owned) (jsFreeCString js s) fun _ => owned := by
  cases s with
  | none => exact Keeps.pure (zero_add owned)
  | some s => exact freeValue_keeps rules s.2

lemma dump_keeps : js.Keeps owned (dump js) fun _ => owned := by
  apply Keeps.bind (keeps_new rules.getException)
  intro exceptionVal
  apply Keeps.bind (getPropertyStr_keeps rules (by simp) _)
  intro name
  apply Keeps.bind (toCString_keeps rules (by simp))
  intro errorName
  apply Keeps.bind (getPropertyStr_keeps rules (by simp) _)
  intro stack
  apply Keeps.bind (toCString_keeps rules (by simp))
  intro stackStr
  apply Keeps.bind (toCString_keeps rules (by simp))
  intro msg
  have hsorted : holder msg +
      (holder stackStr + ({stack} + (holder errorName + ({name} + ({exceptionVal} + owned))))) =
        holder errorName +
          (holder stackStr + (holder msg + ({name} + ({stack} + ({exceptionVal} + owned))))) := by
    abel
  rw [hsorted]
  apply Keeps.bind (freeCString_keeps rules errorName)
  intro _
  apply Keeps.bind (freeCString_keeps rules stackStr)
  intro _
  apply Keeps.bind (freeCString_keeps rules msg)
  intro _
  apply Keeps.bind (freeValue_keeps rules name)
  intro _
  apply Keeps.bind (freeValue_keeps rules stack)
  intro _
  apply Keeps.bind (freeValue_keeps rules exceptionVal)
  intro _
  exact Keeps.pure rfl

namespace Value

lemma ofLvalue_keeps {v : Val} (hv : js.counted v = true → v ∈ owned) :
    js.Keeps owned (ofLvalue js v) fun this => refs this + owned := by
  apply Keeps.bind (dupValue_keeps rules hv)
  intro _
  exact Keeps.pure rfl

lemma copy_keeps {other : Value Val} (hother : ∀ v ∈ other, v ∈ owned) :
    js.Keeps owned (copy js other) fun this => refs this + owned := by
  cases other with
  | none => exact Keeps.pure (zero_add owned).symm
  | some v => exact ofLvalue_keeps rules fun _ => hother v rfl

lemma fromObject_keeps {value : Value Val} (hvalue : ∀ v ∈ value, v ∈ owned) :
    js.Keeps owned (fromObject js value) fun this => refs this + owned := by
  cases value with
  | none => exact Keeps.pure (zero_add owned).symm
  | some v => exact ofLvalue_keeps rules fun _ => hvalue v rfl

lemma destroy_keeps (this : Value Val) : js.Keeps (refs this + owned) (destroy js this) fun _ =>
    owned := by
  cases this with
  | none => exact Keeps.pure (zero_add owned)
  | some v => exact freeValue_keeps rules v

lemma copyAssign_keeps (this : Value Val) {other : Value Val} (hother : ∀ v ∈ other, v ∈ owned) :
    js.Keeps (refs this + owned) (copyAssign js this other) fun this => refs this + owned := by
  apply Keeps.bind (destroy_keeps rules this)
  intro _
  exact copy_keeps rules hother

lemma moveAssign_keeps (this other : Value Val) :
    js.Keeps (refs this + (refs other + owned)) (moveAssign js this other) fun after =>
      refs after.1 + (refs after.2 + owned) := by
  apply Keeps.bind (destroy_keeps rules this)
  intro _
  apply Keeps.pure
  rw [move, refs_none, zero_add]

omit rules in
lemma keeps_of_uncounted {α : Type} {v : Val} (hv : js.counted v = false) {m : Call Heap α}
    {after : α → Multiset Val} (hm : js.Keeps ({v} + owned) m after) : js.Keeps owned m after := by
  intro h hb
  exact hm h ((balanced_uncounted hv).mpr hb)

lemma balanced_value {this : Value Val} {h : Heap} :
    js.Balanced ({value js this} + owned) h ↔ js.Balanced (refs this + owned) h := by
  cases this with
  | none =>
    rw [refs_none, zero_add]
    exact balanced_uncounted rules.uninitialized
  | some v => exact Iff.rfl

lemma keeps_value {α : Type} {this : Value Val} {m : Call Heap α} {after : α → Multiset Val}
    (hm : js.Keeps ({value js this} + owned) m after) : js.Keeps (refs this + owned) m after := by
  intro h hb
  exact hm h ((balanced_value rules).mpr hb)

lemma value_mem {this : Value Val} (hthis : ∀ v ∈ this, v ∈ owned)
    (hcounted : js.counted (value js this) = true) :
    value js this ∈ owned := by
  cases this with
  | none =>
    rw [value, Option.getD_none, rules.uninitialized] at hcounted
    cases hcounted
  | some v => exact hthis v rfl

omit rules in
lemma keeps_pure_uncounted {v : Val} (hv : js.counted v = false) :
    js.Keeps owned (pure (ofRvalue v) : Call Heap (Value Val)) fun this => refs this + owned := by
  apply keeps_of_uncounted hv
  exact Keeps.pure rfl

omit rules in
lemma ofNew_keeps {f : Heap → Val × Heap} (hf : js.Obeys [] [] (fun v => {v}) f) :
    js.Keeps owned (do let v ← js.call [] [] f; return ofRvalue v) fun this =>
      refs this + owned := by
  apply Keeps.bind (keeps_new hf)
  intro v
  exact Keeps.pure rfl

lemma from_keeps (n : Native) : js.Keeps owned (Value.from js n) fun this => refs this + owned := by
  cases n with
  | bool b => exact keeps_pure_uncounted (rules.newBool b)
  | int64 n => exact keeps_pure_uncounted (rules.newInt64 _)
  | int32 n => exact keeps_pure_uncounted (rules.newInt64 _)
  | uint32 n => exact keeps_pure_uncounted (rules.newUint32 n)
  | string s => exact ofNew_keeps (rules.newStringLen s)

lemma toNative_keeps {v : Val} (hv : js.counted v = true → v ∈ owned) (type : NativeType) :
    js.Keeps owned (toNative js v type) fun _ => owned := by
  cases type with
  | string =>
    rw [toNative]
    split_ifs
    · apply Keeps.bind (toCString_keeps rules hv)
      intro str
      apply Keeps.bind (freeCString_keeps rules str)
      intro _
      exact Keeps.pure rfl
    · exact Keeps.pure rfl
  | _ => exact Keeps.pure rfl

lemma toObject_keeps {v : Val} (hv : js.counted v = true → v ∈ owned) :
    js.Keeps owned (toObject js v) fun this => this.elim 0 refs + owned := by
  rw [toObject]
  split_ifs
  · apply Keeps.bind (ofLvalue_keeps rules hv)
    intro this
    exact Keeps.pure rfl
  · exact Keeps.pure (zero_add owned).symm

end Value

lemma raised_keeps {α : Type} {after : Except Exception α → Multiset Val} (v : Val)
    (hafter : ∀ details, owned = after (.error details)) :
    js.Keeps ({v} + owned) (do
      let details ← dump js
      Value.destroy js (Value.ofRvalue v)
      return .error details) after := by
  apply Keeps.bind (dump_keeps rules)
  intro details
  apply Keeps.bind (Value.destroy_keeps rules (Value.ofRvalue v))
  intro _
  exact Keeps.pure (hafter details)

def resultRefs (result : Except Exception (Value Val)) : Multiset Val :=
  result.toOption.elim 0 Value.refs

namespace Object

lemma getProperty_keeps {this : Val} (hthis : js.counted this = true → this ∈ owned)
    (propName : Str) :
    js.Keeps owned (getProperty js this propName) fun result => resultRefs result + owned := by
  apply Keeps.bind (getPropertyStr_keeps rules hthis propName)
  intro v
  split_ifs
  · exact raised_keeps rules v fun _ => (zero_add owned).symm
  · exact Keeps.pure rfl

lemma failure_keeps (ret : Int32) : js.Keeps owned (failure js ret) fun _ => owned := by
  rw [failure]
  split_ifs
  · apply Keeps.bind (dump_keeps rules)
    intro details
    exact Keeps.pure rfl
  · exact Keeps.pure rfl

lemma setPropertyStr_keeps {this : Val} (hthis : js.counted this = true → this ∈ owned)
    (propName : Str) (v : Val) :
    js.Keeps ({v} + owned) (jsSetPropertyStr js this propName v) fun _ => owned :=
  keeps_take (rules.setPropertyStr this propName v) (by simpa using fun h => Or.inr (hthis h))

lemma setPropertyValue_keeps {this : Val} (hthis : js.counted this = true → this ∈ owned)
    (propName : Str)
    (val : Value Val) :
    js.Keeps (Value.refs val + owned) (setPropertyValue js this propName val) fun _ => owned := by
  apply Value.keeps_value rules
  apply Keeps.bind (setPropertyStr_keeps rules hthis propName (Value.value js val))
  intro ret
  exact failure_keeps rules ret

end Object

namespace Array

lemma emptyOne_keeps : js.Keeps owned (emptyOne js) fun this => Value.refs this + owned :=
  Value.ofNew_keeps rules.newArray

lemma length_keeps {this : Val} (hthis : js.counted this = true → this ∈ owned) :
    js.Keeps owned (length js this) fun _ => owned := by
  apply Keeps.bind (Object.getProperty_keeps rules hthis _)
  intro result
  cases result with
  | error details => exact Keeps.pure (zero_add owned)
  | ok lenVal =>
    apply Keeps.bind (Value.destroy_keeps rules lenVal)
    intro _
    exact Keeps.pure rfl

lemma push_keeps {this : Val} (hthis : js.counted this = true → this ∈ owned) (item : Native) :
    js.Keeps owned (push js this item) fun _ => owned := by
  apply Keeps.bind (Value.from_keeps rules item)
  intro jsVal
  apply Keeps.bind (length_keeps rules fun h => Multiset.mem_add.mpr (Or.inr (hthis h)))
  intro len
  cases len with
  | error details =>
    apply Keeps.bind (Value.destroy_keeps rules jsVal)
    intro _
    exact Keeps.pure rfl
  | ok len =>
    apply Value.keeps_value rules
    apply Keeps.bind (keeps_take (rules.setPropertyUint32 this len _)
      (by simpa using fun h => Or.inr (hthis h)))
    intro res
    exact Object.failure_keeps rules res

end Array

def Returned.refs : Returned Val → Multiset Val
  | .object this => Value.refs this
  | _ => 0

def returnedRefs (result : Except Exception (Returned Val)) : Multiset Val :=
  result.toOption.elim 0 Returned.refs

namespace Function

lemma from_keeps (id : ℕ) : js.Keeps owned (Function.from js id) fun this =>
    Value.refs this + owned :=
  Value.ofNew_keeps (rules.newObjectClass id)

lemma fromRaw_keeps (name : Str) : js.Keeps owned (fromRaw js name) fun this =>
    Value.refs this + owned :=
  Value.ofNew_keeps (rules.newCFunction name)

lemma arguments_keeps (args : List Native) : js.Keeps owned (arguments js args) fun argv =>
    argv + owned := by
  induction args generalizing owned with
  | nil => exact Keeps.pure (zero_add owned).symm
  | cons arg args ih =>
    apply Keeps.bind (Value.from_keeps rules arg)
    intro this
    apply Value.keeps_value rules
    apply Keeps.bind ih
    intro argv
    apply Keeps.pure
    rw [← Multiset.cons_coe, ← Multiset.singleton_add, Value.release]
    abel

lemma freeAll_keeps (argv : List Val) : js.Keeps (argv + owned) (freeAll js argv) fun _ =>
    owned := by
  induction argv with
  | nil => exact Keeps.pure (zero_add owned)
  | cons v argv ih =>
    rw [← Multiset.cons_coe, ← Multiset.singleton_add, add_assoc]
    apply Keeps.bind (freeValue_keeps rules v)
    intro _
    exact ih

lemma unconverted_keeps (value : Val) :
    js.Keeps ({value} + owned) (unconverted js value) fun result =>
      returnedRefs result + owned := by
  apply Keeps.bind (keeps_lend (rules.throwTypeError _) (by simp))
  intro _
  rw [zero_add]
  exact raised_keeps rules value fun _ => (zero_add owned).symm

lemma convert_keeps (value : Val) (type : ReturnType) :
    js.Keeps ({value} + owned) (convert js value type) fun result =>
      returnedRefs result + owned := by
  cases type with
  | void =>
    apply Keeps.bind (Value.destroy_keeps rules (Value.ofRvalue value))
    intro _
    exact Keeps.pure (zero_add owned).symm
  | native type =>
    apply Keeps.bind (Value.toNative_keeps rules (by simp) type)
    intro n
    cases n with
    | none => exact unconverted_keeps rules value
    | some n =>
      apply Keeps.bind (Value.destroy_keeps rules (Value.ofRvalue value))
      intro _
      exact Keeps.pure (zero_add owned).symm
  | object =>
    apply Keeps.bind (Value.toObject_keeps rules (by simp))
    intro result
    cases result with
    | none => 
      rw [Option.elim_none, zero_add]
      exact unconverted_keeps rules value
    | some result =>
      rw [Option.elim_some]
      apply Keeps.bind (Value.copy_keeps rules (by rintro v rfl; simp))
      intro returned
      have hsorted : Value.refs returned + (Value.refs result + ({value} + owned)) =
          Value.refs result + ({value} + (Value.refs returned + owned)) := by
        abel
      rw [hsorted]
      apply Keeps.bind (Value.destroy_keeps rules result)
      intro _
      apply Keeps.bind (Value.destroy_keeps rules (Value.ofRvalue value))
      intro _
      exact Keeps.pure rfl

lemma invoke_keeps {this thisObj : Val} (hthis : js.counted this = true → this ∈ owned)
    (hobj : js.counted thisObj = true → thisObj ∈ owned) (args : List Native) (type : ReturnType) :
    js.Keeps owned (invoke js this thisObj args type) fun result =>
      returnedRefs result + owned := by
  apply Keeps.bind (arguments_keeps rules args)
  intro argv
  have hborrows : ∀ v ∈ this :: thisObj :: argv, js.counted v = true →
      v ∈ (argv : Multiset Val) + owned := by
    intro v hv hcounted
    rw [Multiset.mem_add, Multiset.mem_coe]
    rcases List.mem_cons.mp hv with rfl | hv
    · exact Or.inr (hthis hcounted)
    · rcases List.mem_cons.mp hv with rfl | hv
      · exact Or.inr (hobj hcounted)
      · exact Or.inl hv
  apply Keeps.bind (keeps_lend (rules.callFunction this thisObj argv) hborrows)
  intro value
  rw [add_left_comm]
  apply Keeps.bind (freeAll_keeps rules argv)
  intro _
  split_ifs
  · exact raised_keeps rules value fun _ => (zero_add owned).symm
  · exact convert_keeps rules value type

lemma apply_keeps {this : Val} (hthis : js.counted this = true → this ∈ owned) (args : List Native)
    (type : ReturnType) : js.Keeps owned (Function.apply js this args type) fun result =>
      returnedRefs result + owned := by
  apply Keeps.bind (keeps_new rules.getGlobalObject)
  intro globalObject
  apply Keeps.bind (invoke_keeps rules (by simpa using fun h => Or.inr (hthis h)) (by simp)
    args type)
  intro result
  rw [add_left_comm]
  apply Keeps.bind (Value.destroy_keeps rules (Value.ofRvalue globalObject))
  intro _
  exact Keeps.pure rfl

end Function

end Catter.Qjs
