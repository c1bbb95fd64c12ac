import Mathlib.Tactic
import Catter.Qjs.Value

/-! A plain engine that follows the ownership rules: strings, arrays and objects with
properties, and no code of the scripts. -/

namespace Catter.Qjs

open Text Library.References Library.References.Ledger

inductive PlainVal
  | uninitialized
  | undefined
  | exception
  | bool (b : Bool)
  | number (n : ℤ)
  | string (address : ℕ)
  | object (address : ℕ)
deriving DecidableEq

structure PlainHeap where
  next : ℕ
  strings : List (ℕ × Str)
  arrays : List ℕ
  properties : List (ℕ × (Str ⊕ UInt32) × PlainVal)
  outside : List PlainVal

namespace PlainHeap

def start : PlainHeap := ⟨1, [], [], [], []⟩

def held (h : PlainHeap) (v : PlainVal) : ℕ :=
  (PlainVal.object 0 :: h.properties.map fun p => p.2.2).count v

def refCount (h : PlainHeap) (v : PlainVal) : ℕ := h.held v + h.outside.count v

/-- The properties of an object without references go, and then those of what they held. -/
def collect : ℕ → PlainHeap → PlainHeap
  | 0, h => h
  | n + 1, h => collect n
    { h with properties := h.properties.filter fun p => 0 < h.refCount (.object p.1) }

@[simp] lemma collect_outside (n : ℕ) (h : PlainHeap) : (collect n h).outside = h.outside := by
  induction n generalizing h with
  | zero => rfl
  | succ n ih => exact ih _

def lend (h : PlainHeap) (v : PlainVal) : PlainHeap := { h with outside := v :: h.outside }

def drop (h : PlainHeap) (v : PlainVal) : PlainHeap :=
  let h := { h with outside := h.outside.erase v }
  collect h.properties.length h

def allocate (h : PlainHeap) (kind : ℕ → PlainVal) : PlainVal × PlainHeap :=
  (kind h.next, { h with next := h.next + 1 }.lend (kind h.next))

def find (h : PlainHeap) (address : ℕ) (key : Str ⊕ UInt32) : PlainVal :=
  (h.properties.find? fun p => p.1 = address ∧ p.2.1 = key).elim .undefined fun p => p.2.2

def get (h : PlainHeap) (obj : PlainVal) (prop : Str) : PlainVal :=
  match obj with
  | .object address =>
    if prop = lit "length" ∧ address ∈ h.arrays then
      .number (h.properties.countP fun p => p.1 = address ∧ p.2.1.isRight)
    else h.find address (.inl prop)
  | _ => .undefined

def set (h : PlainHeap) (obj : PlainVal) (key : Str ⊕ UInt32) (v : PlainVal) : Int32 × PlainHeap :=
  match obj with
  | .object address =>
    let h := { h with properties := (address, key, v) :: h.properties.filter fun p =>
      ¬(p.1 = address ∧ p.2.1 = key) }
    (0, h.drop v)
  | _ => (-1, h.drop v)

def toCString (h : PlainHeap) (v : PlainVal) : Option (Str × PlainVal) × PlainHeap :=
  match h.strings.find? fun s => v = .string s.1 with
  | some s => (some (s.2, v), h.lend v)
  | none => (none, h)

end PlainHeap

def plain : QuickJS PlainHeap PlainVal where
  counted
    | .string _ | .object _ => true
    | _ => false
  refCount := PlainHeap.refCount
  held := PlainHeap.held
  uninitialized := .uninitialized
  isException v := v = .exception
  isObject
    | .object _ => true
    | _ => false
  isString
    | .string _ => true
    | _ => false
  toBool
    | .bool b => some b
    | _ => none
  toInt64
    | .number n => some (Int64.ofInt n)
    | _ => none
  toUint32
    | .number n => some (UInt32.ofNat n.toNat)
    | _ => none
  newBool := .bool
  newInt64 n := .number n.toInt
  newUint32 n := .number n.toNat
  newStringLen s h := { h with strings := (h.next, s) :: h.strings }.allocate .string
  newObject h := h.allocate .object
  newArray h := { h with arrays := h.next :: h.arrays }.allocate .object
  newObjectClass _ h := h.allocate .object
  newCFunction _ h := h.allocate .object
  getGlobalObject h := (.object 0, h.lend (.object 0))
  getException h := (.undefined, h.lend .undefined)
  throwTypeError _ h := (.exception, h)
  dupValue v h := ((), h.lend v)
  freeValue v h := ((), h.drop v)
  getPropertyStr obj prop h := (h.get obj prop, h.lend (h.get obj prop))
  setPropertyStr obj prop v h := h.set obj (.inl prop) v
  setPropertyUint32 obj index v h := h.set obj (.inr index) v
  callFunction _ _ _ h := (.undefined, h.lend .undefined)
  toCString v h := h.toCString v

variable {α : Type}

lemma plain_obeys {borrows takes : List PlainVal} {gives : α → Multiset PlainVal}
    {f : PlainHeap → α × PlainHeap}
    (hf : ∀ h w, plain.counted w = true → takes.count w ≤ h.outside.count w →
      (f h).2.outside.count w + takes.count w = h.outside.count w + (gives (f h).1).count w) :
    plain.Obeys borrows takes gives f := by
  intro h _ hloose w hw
  have htakes : takes.count w ≤ h.outside.count w := by
    by_cases hmem : w ∈ takes
    · have := hloose w hmem hw
      simp only [plain, PlainHeap.refCount] at this
      omega
    · rw [List.count_eq_zero_of_not_mem hmem]
      exact Nat.zero_le _
  have houtside := hf h w hw htakes
  simp only [plain, PlainHeap.refCount, Multiset.coe_count]
  omega

lemma count_lend (h : PlainHeap) (v w : PlainVal) :
    (h.lend v).outside.count w = h.outside.count w + ({v} : Multiset PlainVal).count w := by
  rw [PlainHeap.lend, ← Multiset.coe_count, ← Multiset.cons_coe, ← Multiset.singleton_add,
    Multiset.count_add,
    Multiset.coe_count, add_comm]

lemma plain_lend {borrows : List PlainVal} {f : PlainHeap → PlainVal × PlainHeap}
    (hf : ∀ h, (f h).2.outside = (h.lend (f h).1).outside) :
    plain.Obeys borrows [] (fun v => {v}) f := by
  apply plain_obeys
  intro h w _ _
  rw [hf, List.count_nil, add_zero, count_lend]

lemma drop_count (h : PlainHeap) (v w : PlainVal) (hv : [v].count w ≤ h.outside.count w) :
    (h.drop v).outside.count w + [v].count w = h.outside.count w := by
  rw [PlainHeap.drop, PlainHeap.collect_outside, List.count_erase]
  simp only [List.count_singleton] at hv ⊢
  omega

lemma plain_drop {borrows : List PlainVal} {v : PlainVal} {f : PlainHeap → α × PlainHeap}
    (hf : ∀ h, (f h).2.outside = (h.drop v).outside) : plain.Obeys borrows [v] (fun _ => 0) f := by
  apply plain_obeys
  intro h w _ hv
  rw [hf, drop_count h v w hv, Multiset.count_zero, add_zero]

lemma set_outside (h : PlainHeap) (obj : PlainVal) (key : Str ⊕ UInt32) (v : PlainVal) :
    (h.set obj key v).2.outside = (h.drop v).outside := by
  cases obj <;> simp [PlainHeap.set, PlainHeap.drop]

theorem plain_rules : OwnershipRules plain where
  uninitialized := rfl
  exception v hv := by
    obtain rfl : v = .exception := by simpa [plain] using hv
    rfl
  newBool _ := rfl
  newInt64 _ := rfl
  newUint32 _ := rfl
  newStringLen s := plain_lend fun _ => rfl
  newObject := plain_lend fun _ => rfl
  newObject_counted _ _ := rfl
  newArray := plain_lend fun _ => rfl
  newObjectClass _ := plain_lend fun _ => rfl
  newCFunction _ := plain_lend fun _ => rfl
  getGlobalObject := plain_lend fun _ => rfl
  getException := plain_lend fun _ => rfl
  throwTypeError _ := plain_obeys fun _ _ _ _ => rfl
  dupValue v := by
    apply plain_obeys
    intro h w _ _
    rw [List.count_nil, add_zero]
    exact count_lend h v w
  freeValue v := plain_drop fun _ => rfl
  getPropertyStr _ _ := plain_lend fun _ => rfl
  setPropertyStr obj prop v := plain_drop fun h => set_outside h obj _ v
  setPropertyUint32 obj index v := plain_drop fun h => set_outside h obj _ v
  callFunction _ _ _ := plain_lend fun _ => rfl
  toCString v := by
    apply plain_obeys
    intro h w _ _
    rw [List.count_nil, add_zero]
    simp only [plain, PlainHeap.toCString]
    cases h.strings.find? fun s => v = .string s.1 with
    | none => rfl
    | some s => exact count_lend h v w

end Catter.Qjs
