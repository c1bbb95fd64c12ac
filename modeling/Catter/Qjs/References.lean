import Catter.Qjs.Ownership
import Catter.Qjs.Plain

/-! The references of a C++ program over its operations on the wrappers. -/

namespace Catter.Qjs

open Text Library.References Library.References.Ledger

/-- The wrappers that are alive, and the bare values whose reference the program has. -/
structure State (Heap Val : Type) where
  heap : Heap
  wrappers : List (Value Val)
  bare : List Val

inductive Op (Val : Type)
  | default
  | globalObject
  | ofLvalue (v : Val)
  | ofRvalue (j : ℕ)
  | copy (i : ℕ)
  | move (i : ℕ)
  | copyAssign (i j : ℕ)
  | moveAssign (i j : ℕ)
  | destroy (i : ℕ)
  | release (i : ℕ)
  | «from» (n : Native)
  | fromObject (i : ℕ)
  | fromObjectRvalue (i : ℕ)
  | toObject (i : ℕ)
  | functionFrom (id : ℕ)
  | functionFromRaw (name : Str)
  | getProperty (i : ℕ) (propName : Str)
  | setPropertyNative (i : ℕ) (propName : Str) (val : Native)
  | setPropertyValue (i : ℕ) (propName : Str) (j : ℕ)
  | objectEmptyOne
  | arrayEmptyOne
  | push (i : ℕ) (item : Native)
  | invoke (i j : ℕ) (args : List Native) (type : ReturnType)
  | apply (i : ℕ) (args : List Native) (type : ReturnType)

variable {Heap Val α : Type}

namespace State

def refs (s : State Heap Val) : Multiset Val := (s.wrappers.map Value.refs).sum + s.bare

def others (s : State Heap Val) (i : ℕ) : Multiset Val :=
  ((s.wrappers.eraseIdx i).map Value.refs).sum + s.bare

def push (s : State Heap Val) (this : Value Val) : State Heap Val :=
  { s with wrappers := s.wrappers ++ [this] }

def put (s : State Heap Val) (i : ℕ) (this : Value Val) : State Heap Val :=
  { s with wrappers := s.wrappers.set i this }

def erase (s : State Heap Val) (i : ℕ) : State Heap Val :=
  { s with wrappers := s.wrappers.eraseIdx i }

def hand (s : State Heap Val) (v : Val) : State Heap Val := { s with bare := s.bare ++ [v] }

def pushResult (s : State Heap Val) : Except Exception (Value Val) → State Heap Val
  | .ok this => s.push this
  | .error _ => s

def pushReturned (s : State Heap Val) : Except Exception (Returned Val) → State Heap Val
  | .ok (.object this) => s.push this
  | _ => s

def run (s : State Heap Val) (m : Call Heap α) (next : State Heap Val → α → State Heap Val) :
    Except Fault (State Heap Val) :=
  match m s.heap with
  | (.ok a, h) => .ok (next { s with heap := h } a)
  | (.error fault, _) => .error fault

-- a wrapper that is not there is not operated on
def withWrapper (s : State Heap Val) (i : ℕ) (f : Value Val → Except Fault (State Heap Val)) :
    Except Fault (State Heap Val) :=
  s.wrappers[i]?.elim (.ok s) f

def withObject (s : State Heap Val) (i : ℕ) (f : Val → Except Fault (State Heap Val)) :
    Except Fault (State Heap Val) :=
  s.withWrapper i fun this => this.elim (.ok s) f

end State

variable [DecidableEq Val] (js : QuickJS Heap Val)

def step (s : State Heap Val) : Op Val → Except Fault (State Heap Val)
  | .default => .ok (s.push none)
  | .globalObject => s.run (jsGetGlobalObject js) State.hand
  | .ofLvalue v =>
    -- only a value that is alive can be passed
    if js.Alive s.heap v then s.run (Value.ofLvalue js v) State.push else .ok s
  | .ofRvalue j =>
    s.bare[j]?.elim (.ok s) fun v =>
      .ok ({ s with bare := s.bare.eraseIdx j }.push (Value.ofRvalue v))
  | .copy i => s.withWrapper i fun other => s.run (Value.copy js other) State.push
  | .move i => s.withWrapper i fun other =>
    .ok ((s.put i (Value.move other).2).push (Value.move other).1)
  | .copyAssign i j => s.withWrapper i fun this => s.withWrapper j fun other =>
    if i = j then .ok s else s.run (Value.copyAssign js this other) fun s this => s.put i this
  | .moveAssign i j => s.withWrapper i fun this => s.withWrapper j fun other =>
    if i = j then .ok s else s.run (Value.moveAssign js this other) fun s after =>
      (s.put i after.1).put j after.2
  | .destroy i => s.withWrapper i fun this => s.run (Value.destroy js this) fun s _ => s.erase i
  | .release i => s.withWrapper i fun this =>
    .ok ((s.put i (Value.release js this).2).hand (Value.release js this).1)
  | .from n => s.run (Value.from js n) State.push
  | .fromObject i => s.withWrapper i fun value => s.run (Value.fromObject js value) State.push
  | .fromObjectRvalue i => s.withWrapper i fun value =>
    .ok ((s.put i (Value.fromObjectRvalue value).2).push (Value.fromObjectRvalue value).1)
  | .toObject i => s.withObject i fun v => s.run (Value.toObject js v) fun s this =>
    this.elim s s.push
  | .functionFrom id => s.run (Function.from js id) State.push
  | .functionFromRaw name => s.run (Function.fromRaw js name) State.push
  | .getProperty i propName => s.withObject i fun this =>
    s.run (Object.getProperty js this propName) State.pushResult
  | .setPropertyNative i propName val => s.withObject i fun this =>
    s.run (Object.setPropertyNative js this propName val) fun s _ => s
  | .setPropertyValue i propName j => s.withObject i fun this => s.withWrapper j fun val =>
    -- an `Object` is no `Value`
    if i = j then .ok s else s.run (Object.setPropertyValue js this propName val) fun s _ =>
      s.put j none
  | .objectEmptyOne => s.run (Object.emptyOne js) State.pushResult
  | .arrayEmptyOne => s.run (Array.emptyOne js) State.push
  | .push i item => s.withObject i fun this => s.run (Array.push js this item) fun s _ => s
  | .invoke i j args type => s.withObject i fun this => s.withWrapper j fun thisObj =>
    s.run (Function.invoke js this (Value.value js thisObj) args type) State.pushReturned
  | .apply i args type => s.withObject i fun this =>
    s.run (Function.apply js this args type) State.pushReturned

def State.Balanced (s : State Heap Val) : Prop := js.Balanced s.refs s.heap

def BalancedThroughout (s : State Heap Val) : List (Op Val) → Prop
  | [] => s.Balanced js
  | op :: ops => s.Balanced js ∧ ∃ s', step js s op = .ok s' ∧ BalancedThroughout s' ops

def Native.counted (h : Heap) : Native → Bool
  | .string s => js.counted (js.newStringLen s h).1
  | _ => false

/-- It is neither an `Object::empty_one` that gets its object, nor a `set_property`
whose native argument becomes a value with a reference count. -/
def Op.Passes (s : State Heap Val) : Op Val → Prop
  | .objectEmptyOne => js.isException (js.newObject s.heap).1 = true
  | .setPropertyNative i _ val => ∀ this, s.wrappers[i]? = some (some this) →
    val.counted js s.heap = false
  | _ => True

def run (s : State Heap Val) : List (Op Val) → Except Fault (State Heap Val)
  | [] => .ok s
  | op :: ops => (step js s op).bind fun s => run s ops

def destroyAll (s : State Heap Val) : List (Op Val) := List.replicate s.wrappers.length (.destroy 0)

def AllInside (h : Heap) : Prop := ∀ w, js.counted w = true → js.refCount h w = js.held h w

def EveryStep (P : State Heap Val → Op Val → Prop) (s : State Heap Val) : List (Op Val) → Prop
  | [] => True
  | op :: ops => P s op ∧ ∀ s', step js s op = .ok s' → EveryStep P s' ops

namespace State

variable {s : State Heap Val} {i j : ℕ} {this other : Value Val}

omit [DecidableEq Val]

@[simp] lemma refs_push : (s.push this).refs = this.refs + s.refs := by
  simp only [push, refs, List.map_append, List.map_cons, List.map_nil, List.sum_append,
    List.sum_cons, List.sum_nil]
  abel

@[simp] lemma refs_hand (v : Val) : (s.hand v).refs = {v} + s.refs := by
  simp only [hand, refs, ← Multiset.coe_add, Multiset.coe_singleton]
  abel

lemma refs_pushResult (result : Except Exception (Value Val)) :
    (s.pushResult result).refs = resultRefs result + s.refs := by
  cases result with
  | ok this => exact refs_push
  | error details => exact (zero_add _).symm

lemma refs_pushReturned (result : Except Exception (Returned Val)) :
    (s.pushReturned result).refs = returnedRefs result + s.refs := by
  match result with
  | .ok (.object this) => exact refs_push
  | .ok .void | .ok (.native n) | .error details => exact (zero_add _).symm

lemma pushResult_heap (s : State Heap Val) (result : Except Exception (Value Val)) :
    (s.pushResult result).heap = s.heap := by
  cases result <;> rfl

lemma pushReturned_heap (s : State Heap Val) (result : Except Exception (Returned Val)) :
    (s.pushReturned result).heap = s.heap := by
  match result with
  | .ok (.object this) => rfl
  | .ok .void | .ok (.native n) | .error details => rfl

lemma refs_erase : (s.erase i).refs = s.others i := rfl

variable (hi : s.wrappers[i]? = some this)

include hi

lemma refs_put (t : Value Val) : (s.put i t).refs = t.refs + s.others i := by
  obtain ⟨hlt, -⟩ := List.getElem?_eq_some_iff.mp hi
  have hperm := ((List.set_perm_cons_eraseIdx hlt t).map Value.refs).sum_eq
  rw [refs, put, hperm, List.map_cons, List.sum_cons, add_assoc]
  rfl

lemma refs_eq : s.refs = this.refs + s.others i := by
  have hput := refs_put hi this
  obtain ⟨hlt, rfl⟩ := List.getElem?_eq_some_iff.mp hi
  rwa [put, List.set_getElem_self] at hput

lemma mem_refs {v : Val} (hv : v ∈ this) : v ∈ s.refs := by
  rw [refs_eq hi, Multiset.mem_add]
  obtain rfl : this = some v := hv
  exact Or.inl (Multiset.mem_singleton_self v)

lemma getElem?_put (hne : j ≠ i) (t : Value Val) : (s.put j t).wrappers[i]? = some this := by
  rw [put, List.getElem?_set_ne hne, hi]

lemma mem_others {v : Val} (hne : j ≠ i) (hv : v ∈ this) : v ∈ s.others j := by
  by_cases hlt : j < s.wrappers.length
  · have hj : s.wrappers[j]? = some s.wrappers[j] := List.getElem?_eq_getElem hlt
    have hmem := mem_refs (getElem?_put hi hne none) hv
    rwa [refs_put hj, Value.refs_none, zero_add] at hmem
  · have hmem := mem_refs hi hv
    rwa [refs, ← List.eraseIdx_of_length_le (Nat.not_lt.mp hlt)] at hmem

lemma refs_put_put (hj : s.wrappers[j]? = some other) (hne : i ≠ j) :
    ∃ rest, s.refs = this.refs + (other.refs + rest) ∧
      ∀ t u, ((s.put i t).put j u).refs = t.refs + (u.refs + rest) := by
  refine ⟨(s.put i none).others j, ?_, fun t u => ?_⟩
  · have hnone := refs_put hi none
    rw [Value.refs_none, zero_add] at hnone
    rw [refs_eq hi, ← hnone, refs_eq (getElem?_put hj hne none)]
  · have hleft := refs_put hi t
    rw [refs_eq (getElem?_put hj hne t)] at hleft
    have hnone := refs_put hi none
    rw [refs_eq (getElem?_put hj hne none), Value.refs_none, zero_add] at hnone
    rw [← hnone, add_left_comm, add_right_inj] at hleft
    rw [refs_put (getElem?_put hj hne t), hleft, add_left_comm]

end State

variable {js} (rules : OwnershipRules js)

include rules

lemma from_run (n : Native) (h : Heap) :
    ∃ v h', Value.from js n h = (.ok (some v), h') ∧ js.counted v = n.counted js h := by
  cases n with
  | bool b => exact ⟨_, h, rfl, rules.newBool b⟩
  | int64 n => exact ⟨_, h, rfl, rules.newInt64 _⟩
  | int32 n => exact ⟨_, h, rfl, rules.newInt64 _⟩
  | uint32 n => exact ⟨_, h, rfl, rules.newUint32 n⟩
  | string s =>
    exact ⟨_, _, Library.Triples.bind_ok (call_alone _ h), rfl⟩

section Defects

variable {owned : Multiset Val} {h : Heap} (hb : js.Balanced owned h)

include hb

lemma setPropertyNative_iff {this : Val} (hthis : js.counted this = true → this ∈ owned)
    (propName : Str)
    (val : Native) :
    (∃ failed h', Object.setPropertyNative js this propName val h = (.ok failed, h') ∧
      js.Balanced owned h') ↔
      val.counted js h = false := by
  obtain ⟨v, h₁, hfrom, hcounted⟩ := from_run rules val h
  obtain ⟨_, _, hfrom', hb₁⟩ := (Value.from_keeps rules val).run hb
  cases hfrom.symm.trans hfrom'
  obtain ⟨ret, h₂, hset, hb₂⟩ := (Object.setPropertyStr_keeps rules hthis propName v).run hb₁
  obtain ⟨failed, h₃, hfailure, hb₃⟩ := (Object.failure_keeps rules ret).run hb₂
  have hrun : Object.setPropertyNative js this propName val h =
      (do Value.destroy js (some v); return failed : Call Heap (Option Exception)) h₃ := by
    rw [Object.setPropertyNative, Library.Triples.bind_ok hfrom]
    change (jsSetPropertyStr js this propName v >>= _) h₁ = _
    rw [Library.Triples.bind_ok hset, Library.Triples.bind_ok hfailure]
  rw [hrun, ← hcounted]
  constructor
  · rintro ⟨failed', h', hdestroy, hb'⟩
    by_contra hv
    rw [Library.Triples.bind_run] at hdestroy
    match hfree : Value.destroy js (some v) h₃ with
    | (.ok (), h₄) =>
      rw [hfree] at hdestroy
      cases hdestroy
      exact not_balanced_after_take (rules.freeValue v)
        (fun _ => rfl) (by simpa using hv) hb₃ hfree hb'
    | (.error fault, h₄) =>
      rw [hfree] at hdestroy
      cases hdestroy
  · intro hv
    obtain ⟨_, h₄, hfree, hb₄⟩ :=
      (Value.keeps_of_uncounted hv (Value.destroy_keeps rules (some v))).run hb₃
    exact ⟨failed, h₄, Library.Triples.bind_ok hfree, hb₄⟩

lemma emptyOne_iff :
    (∃ result h', Object.emptyOne js h = (.ok result, h') ∧
      js.Balanced (resultRefs result + owned) h') ↔
      js.isException (js.newObject h).1 = true := by
  have hnew : jsNewObject js h = (.ok (js.newObject h).1, (js.newObject h).2) := call_alone _ h
  obtain ⟨_, _, hnew', hb₁⟩ := (keeps_new rules.newObject).run hb
  cases hnew.symm.trans hnew'
  rw [Object.emptyOne, Library.Triples.bind_ok hnew]
  by_cases hexception : js.isException (js.newObject h).1 = true
  · have huncounted := rules.exception _ hexception
    obtain ⟨details, h₂, hdump, hb₂⟩ :=
      (dump_keeps rules).run ((balanced_uncounted huncounted).mp hb₁)
    rw [if_pos hexception]
    refine iff_of_true ⟨.error details, h₂, Library.Triples.bind_ok hdump, ?_⟩ hexception
    rwa [resultRefs, Except.toOption, Option.elim_none, zero_add]
  · have hcounted := rules.newObject_counted h (by simpa using hexception)
    have hobj : (js.newObject h).1 ∈ {(js.newObject h).1} + owned := by simp
    obtain ⟨_, h₂, hdup, hb₂⟩ := (dupValue_keeps rules fun _ => hobj).run hb₁
    have hrun : (do let this ← Value.ofLvalue js (js.newObject h).1; return .ok this :
        Call Heap (Except Exception (Value Val))) (js.newObject h).2 =
          (.ok (.ok (some (js.newObject h).1)), h₂) :=
      Library.Triples.bind_ok (Library.Triples.bind_ok hdup)
    rw [if_neg hexception, hrun]
    refine iff_of_false ?_ hexception
    rintro ⟨result, h', hresult, hb'⟩
    cases hresult
    have hcount := hb₂.count_eq hb' hcounted
    simp [resultRefs, Except.toOption, Value.refs] at hcount

end Defects

omit rules in
def Settled (js : QuickJS Heap Val) (result : Except Fault (State Heap Val)) : Prop :=
  ∃ s, result = .ok s ∧ s.Balanced js

section Steps

omit rules

variable {s : State Heap Val} {i j : ℕ}

lemma settled_run {owned : Multiset Val} {m : Call Heap α} {after : α → Multiset Val}
    {next : State Heap Val → α → State Heap Val} (hm : js.Keeps owned m after)
    (hb : js.Balanced owned s.heap)
    (hheap : ∀ t a, (next t a).heap = t.heap)
    (hrefs : ∀ h a, (next { s with heap := h } a).refs = after a) :
    Settled js (s.run m next) := by
  obtain ⟨a, h, hrun, hafter⟩ := hm.run hb
  refine ⟨next { s with heap := h } a, ?_, ?_⟩
  · rw [State.run, hrun]
  · rw [State.Balanced, hheap, hrefs]
    exact hafter

lemma settled_run_iff {m : Call Heap α} {next : State Heap Val → α → State Heap Val} :
    Settled js (s.run m next) ↔ ∃ a h, m s.heap = (.ok a, h) ∧
      (next { s with heap := h } a).Balanced js := by
  rw [State.run]
  match m s.heap with
  | (.ok a, h) =>
    constructor
    · rintro ⟨t, ht, hb⟩
      cases ht
      exact ⟨a, h, rfl, hb⟩
    · rintro ⟨a', h', hrun, hb⟩
      cases hrun
      exact ⟨_, rfl, hb⟩
  | (.error fault, h) =>
    constructor
    · rintro ⟨t, ht, -⟩
      cases ht
    · rintro ⟨a', h', hrun, -⟩
      cases hrun

variable (hb : s.Balanced js)

include hb

lemma settled_withWrapper {f : Value Val → Except Fault (State Heap Val)}
    (hf : ∀ this, s.wrappers[i]? = some this → Settled js (f this)) :
    Settled js (s.withWrapper i f) := by
  rw [State.withWrapper]
  cases hi : s.wrappers[i]? with
  | none => exact ⟨s, rfl, hb⟩
  | some this => exact hf this hi

lemma settled_withObject {f : Val → Except Fault (State Heap Val)}
    (hf : ∀ this, s.wrappers[i]? = some (some this) → Settled js (f this)) : Settled js
      (s.withObject i f) := by
  apply settled_withWrapper hb
  intro this hi
  cases this with
  | none => exact ⟨s, rfl, hb⟩
  | some this => exact hf this hi

end Steps

lemma step_settled {s : State Heap Val} (hb : s.Balanced js) (op : Op Val) (hop : op.Passes js s) :
    Settled js (step js s op) := by
  cases op with
  | default => exact ⟨_, rfl,
      by rw [State.Balanced, State.refs_push, Value.refs_none, zero_add]; exact hb⟩
  | globalObject =>
    exact settled_run (keeps_new rules.getGlobalObject) hb (fun _ _ => rfl) fun _ _ =>
      State.refs_hand _
  | ofLvalue v =>
    rw [step]
    split_ifs with hv
    · have hb₀ : js.Balanced (([] : List Val) + s.refs) s.heap := by
        rw [Multiset.coe_nil, zero_add]
        exact hb
      obtain ⟨hdup, hb'⟩ := call_balanced (rules.dupValue v) (by simpa using hv) hb₀
      refine settled_run_iff.mpr ⟨some v, _, Library.Triples.bind_ok hdup, ?_⟩
      rw [State.Balanced, State.refs_push]
      exact hb'
    · exact ⟨s, rfl, hb⟩
  | ofRvalue j =>
    rw [step]
    cases hj : s.bare[j]? with
    | none => exact ⟨s, rfl, hb⟩
    | some v =>
      refine ⟨_, rfl, ?_⟩
      obtain ⟨hlt, rfl⟩ := List.getElem?_eq_some_iff.mp hj
      have hbare : (s.bare : Multiset Val) = {s.bare[j]} + (s.bare.eraseIdx j : Multiset Val) :=
        (Multiset.coe_eq_coe.mpr (List.getElem_cons_eraseIdx_perm hlt)).symm
      rw [State.Balanced, State.refs, hbare, add_left_comm] at hb
      rw [State.Balanced, State.refs_push]
      exact hb
  | copy i =>
    apply settled_withWrapper hb
    intro other hi
    exact settled_run (Value.copy_keeps rules fun v hv => State.mem_refs hi hv) hb (fun _ _ => rfl)
      fun _ _ => State.refs_push
  | move i =>
    apply settled_withWrapper hb
    intro other hi
    refine ⟨_, rfl, ?_⟩
    rw [State.Balanced, State.refs_push, State.refs_put hi, Value.move, Value.refs_none,
      zero_add, ← State.refs_eq hi]
    exact hb
  | copyAssign i j =>
    apply settled_withWrapper hb
    intro this hi
    apply settled_withWrapper hb
    intro other hj
    split_ifs with hij
    · exact ⟨s, rfl, hb⟩
    · rw [State.Balanced, State.refs_eq hi] at hb
      exact settled_run (Value.copyAssign_keeps rules this fun v hv => State.mem_others hj hij hv)
        hb (fun _ _ => rfl)
        fun h this => State.refs_put hi this
  | moveAssign i j =>
    apply settled_withWrapper hb
    intro this hi
    apply settled_withWrapper hb
    intro other hj
    split_ifs with hij
    · exact ⟨s, rfl, hb⟩
    · obtain ⟨rest, hrefs, hput⟩ := State.refs_put_put hi hj hij
      rw [State.Balanced, hrefs] at hb
      exact settled_run (Value.moveAssign_keeps rules this other) hb (fun _ _ => rfl) fun h after =>
        hput after.1 after.2
  | destroy i =>
    apply settled_withWrapper hb
    intro this hi
    rw [State.Balanced, State.refs_eq hi] at hb
    exact settled_run (Value.destroy_keeps rules this) hb (fun _ _ => rfl) fun _ _ =>
      State.refs_erase
  | release i =>
    apply settled_withWrapper hb
    intro this hi
    refine ⟨_, rfl, ?_⟩
    rw [State.Balanced, State.refs_hand, State.refs_put hi, Value.release, Value.refs_none,
      zero_add]
    rw [State.Balanced, State.refs_eq hi] at hb
    exact (Value.balanced_value rules).mpr hb
  | «from» n => exact settled_run (Value.from_keeps rules n) hb (fun _ _ => rfl) fun _ _ =>
      State.refs_push
  | fromObject i =>
    apply settled_withWrapper hb
    intro value hi
    exact settled_run (Value.fromObject_keeps rules fun v hv => State.mem_refs hi hv) hb
      (fun _ _ => rfl)
      fun _ _ => State.refs_push
  | fromObjectRvalue i =>
    apply settled_withWrapper hb
    intro value hi
    have hmoved : Value.fromObjectRvalue value = (value, none) := by cases value <;> rfl
    refine ⟨_, rfl, ?_⟩
    rw [State.Balanced, State.refs_push, State.refs_put hi, hmoved, Value.refs_none,
      zero_add, ← State.refs_eq hi]
    exact hb
  | toObject i =>
    apply settled_withObject hb
    intro v hi
    refine settled_run (Value.toObject_keeps rules fun _ => State.mem_refs hi rfl) hb ?_ ?_
    · intro t this
      cases this <;> rfl
    · intro h this
      cases this with
      | none => exact (zero_add _).symm
      | some this => exact State.refs_push
  | functionFrom id => exact settled_run (Function.from_keeps rules id) hb (fun _ _ => rfl) fun _
      _ => State.refs_push
  | functionFromRaw name =>
    exact settled_run (Function.fromRaw_keeps rules name) hb (fun _ _ => rfl) fun _ _ =>
      State.refs_push
  | getProperty i propName =>
    apply settled_withObject hb
    intro this hi
    exact settled_run (Object.getProperty_keeps rules (fun _ => State.mem_refs hi rfl) propName) hb
      State.pushResult_heap fun _ result => State.refs_pushResult result
  | setPropertyNative i propName val =>
    apply settled_withObject hb
    intro this hi
    obtain ⟨failed, h, hrun, hb'⟩ :=
      (setPropertyNative_iff rules hb (fun _ => State.mem_refs hi rfl) propName val).mpr
        (hop this hi)
    exact settled_run_iff.mpr ⟨failed, h, hrun, hb'⟩
  | setPropertyValue i propName j =>
    apply settled_withObject hb
    intro this hi
    apply settled_withWrapper hb
    intro val hj
    split_ifs with hij
    · exact ⟨s, rfl, hb⟩
    · rw [State.Balanced, State.refs_eq hj] at hb
      refine settled_run (Object.setPropertyValue_keeps rules
        (fun _ => State.mem_others hi (Ne.symm hij) rfl) propName val)
        hb (fun _ _ => rfl) fun h _ => ?_
      exact (State.refs_put hj none).trans (zero_add _)
  | objectEmptyOne =>
    obtain ⟨result, h, hrun, hb'⟩ := (emptyOne_iff rules hb).mpr hop
    refine settled_run_iff.mpr ⟨result, h, hrun, ?_⟩
    rw [State.Balanced, State.pushResult_heap, State.refs_pushResult]
    exact hb'
  | arrayEmptyOne => exact settled_run (Array.emptyOne_keeps rules) hb (fun _ _ => rfl) fun _ _ =>
      State.refs_push
  | push i item =>
    apply settled_withObject hb
    intro this hi
    exact settled_run (Array.push_keeps rules (fun _ => State.mem_refs hi rfl) item) hb
      (fun _ _ => rfl)
      fun _ _ => rfl
  | invoke i j args type =>
    apply settled_withObject hb
    intro this hi
    apply settled_withWrapper hb
    intro thisObj hj
    have hobj := Value.value_mem rules fun v hv => State.mem_refs hj hv
    exact settled_run (Function.invoke_keeps rules
      (fun _ => State.mem_refs hi rfl) hobj args type) hb
      State.pushReturned_heap fun _ result => State.refs_pushReturned result
  | apply i args type =>
    apply settled_withObject hb
    intro this hi
    exact settled_run (Function.apply_keeps rules (fun _ => State.mem_refs hi rfl) args type) hb
      State.pushReturned_heap fun _ result => State.refs_pushReturned result

lemma step_settled_iff {s : State Heap Val} (hb : s.Balanced js) (op : Op Val) :
    Settled js (step js s op) ↔ op.Passes js s := by
  refine ⟨fun hstep => ?_, step_settled rules hb op⟩
  cases op with
  | objectEmptyOne =>
    obtain ⟨result, h, hrun, hb'⟩ := settled_run_iff.mp hstep
    rw [State.Balanced, State.pushResult_heap, State.refs_pushResult] at hb'
    exact (emptyOne_iff rules hb).mp ⟨result, h, hrun, hb'⟩
  | setPropertyNative i propName val =>
    intro this hi
    simp only [step, State.withObject, State.withWrapper, hi, Option.elim_some] at hstep
    obtain ⟨failed, h, hrun, hb'⟩ := settled_run_iff.mp hstep
    exact (setPropertyNative_iff rules hb (fun _ => State.mem_refs hi rfl) propName val).mp
      ⟨failed, h, hrun, hb'⟩
  | _ => trivial

omit rules in
lemma balanced_of_throughout {s : State Heap Val} {ops : List (Op Val)}
    (h : BalancedThroughout js s ops) :
    s.Balanced js := by
  cases ops with
  | nil => exact h
  | cons op ops => exact h.1

lemma balancedThroughout_iff {s : State Heap Val} (hb : s.Balanced js) (ops : List (Op Val)) :
    BalancedThroughout js s ops ↔ EveryStep js (fun s op => op.Passes js s) s ops := by
  induction ops generalizing s with
  | nil => exact iff_of_true hb trivial
  | cons op ops ih =>
    constructor
    · rintro ⟨-, t, hstep, ht⟩
      have hbt := balanced_of_throughout ht
      refine ⟨(step_settled_iff rules hb op).mp ⟨t, hstep, hbt⟩, fun u hu => ?_⟩
      obtain rfl : t = u := Except.ok.inj (hstep.symm.trans hu)
      exact (ih hbt).mp ht
    · rintro ⟨hop, hops⟩
      obtain ⟨t, hstep, hbt⟩ := step_settled rules hb op hop
      exact ⟨hb, t, hstep, (ih hbt).mpr (hops t hstep)⟩

omit rules in
lemma run_balanced {s : State Heap Val} {ops : List (Op Val)} (h : BalancedThroughout js s ops) :
    ∃ t, run js s ops = .ok t ∧ t.Balanced js := by
  induction ops generalizing s with
  | nil => exact ⟨s, rfl, h⟩
  | cons op ops ih =>
    obtain ⟨-, t, hstep, ht⟩ := h
    obtain ⟨u, hu, hbu⟩ := ih ht
    refine ⟨u, ?_, hbu⟩
    rw [run, hstep]
    exact hu

lemma destroyAll_run {s : State Heap Val} (hb : s.Balanced js) :
    ∃ t, run js s (destroyAll s) = .ok t ∧ t.wrappers = [] ∧ t.bare = s.bare ∧ t.Balanced js := by
  obtain ⟨heap, wrappers, bare⟩ := s
  induction wrappers generalizing heap with
  | nil => exact ⟨_, rfl, rfl, rfl, hb⟩
  | cons this wrappers ih =>
    have hrefs : (⟨heap, this :: wrappers, bare⟩ : State Heap Val).refs =
        this.refs + (⟨heap, wrappers, bare⟩ : State Heap Val).refs := by
      rw [State.refs, List.map_cons, List.sum_cons, add_assoc]
      rfl
    rw [State.Balanced, hrefs] at hb
    obtain ⟨_, h, hdestroy, hb'⟩ := (Value.destroy_keeps rules this).run hb
    obtain ⟨t, ht, hnone, hbare, hbt⟩ := ih h hb'
    have hstep : step js ⟨heap, this :: wrappers, bare⟩ (.destroy 0) = .ok ⟨h, wrappers, bare⟩ := by
      change State.run ⟨heap, this :: wrappers, bare⟩ (Value.destroy js this)
        (fun s _ => s.erase 0) = _
      rw [State.run, hdestroy]
      rfl
    refine ⟨t, ?_, hnone, hbare, hbt⟩
    rw [destroyAll, List.length_cons, List.replicate_succ, run, hstep]
    exact ht

theorem references_balanced_iff {h : Heap} (hstart : AllInside js h) (ops : List (Op Val)) :
    (BalancedThroughout js ⟨h, [], []⟩ ops ↔
      EveryStep js (fun s op => op.Passes js s) ⟨h, [], []⟩ ops) ∧
    (BalancedThroughout js ⟨h, [], []⟩ ops → ∃ s t, run js ⟨h, [], []⟩ ops = .ok s ∧
      run js s (destroyAll s) = .ok t ∧ t.wrappers = [] ∧ (s.bare = [] → AllInside js t.heap)) := by
  have hb : (⟨h, [], []⟩ : State Heap Val).Balanced js := hstart
  refine ⟨balancedThroughout_iff rules hb ops, fun hthroughout => ?_⟩
  obtain ⟨s, hs, hbs⟩ := run_balanced hthroughout
  obtain ⟨t, ht, hnone, hbare, hbt⟩ := destroyAll_run rules hbs
  refine ⟨s, t, hs, ht, hnone, fun hempty w hw => ?_⟩
  have hcount := hbt w hw
  rw [State.refs, hnone, hbare, hempty] at hcount
  exact hcount

omit rules

def sampleOps : List (Op PlainVal) :=
  [.globalObject, .ofRvalue 0, .arrayEmptyOne, .push 1 (.string (lit "a")),
    .from (.string (lit "b")),
    .setPropertyValue 0 (lit "x") 2, .setPropertyNative 0 (lit "n") (.int32 1),
      .getProperty 0 (lit "x"), .copy 1]

theorem references_balanced_sample : BalancedThroughout plain ⟨.start, [], []⟩ sampleOps :=
  (references_balanced_iff plain_rules (fun _ _ => rfl) sampleOps).1.mpr
    ⟨trivial, fun _ _ =>
      ⟨trivial, fun _ _ => ⟨trivial, fun _ _ => ⟨trivial, fun _ _ => ⟨trivial, fun _ _ =>
      ⟨trivial, fun _ _ =>
        ⟨fun _ _ => rfl, fun _ _ => ⟨trivial, fun _ _ => ⟨trivial, fun _ _ => trivial⟩⟩⟩⟩⟩⟩⟩⟩⟩

theorem empty_one_leaks_set_property_frees_twice :
    ¬BalancedThroughout plain ⟨.start, [], []⟩ [.objectEmptyOne] ∧
    ¬BalancedThroughout plain ⟨.start, [], []⟩
      [.globalObject, .ofRvalue 0, .setPropertyNative 0 (lit "x") (.string (lit "a"))] := by
  constructor
  · rintro ⟨-, s, hstep, hb⟩
    cases hstep
    exact absurd (hb (.object 1) rfl) (by decide)
  · rintro ⟨-, s, hglobal, -, t, hobject, -, u, hset, -⟩
    cases hglobal
    cases hobject
    cases hset

end Catter.Qjs
