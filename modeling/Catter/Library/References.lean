import Mathlib.Algebra.Order.Group.Multiset
import Mathlib.Data.Multiset.Count
import Catter.Library.Triples

/-! Reference counts as a ledger: what a heap counts of a value, against the references
inside the heap and those outside. -/

namespace Catter.Library.References

open Triples

structure Ledger (Heap Val : Type) where
  counted : Val → Bool
  refCount : Heap → Val → ℕ
  held : Heap → Val → ℕ

inductive Fault
  | dangling
deriving DecidableEq

abbrev Call (Heap α : Type) := Program Fault Heap α

namespace Ledger

variable {Heap Val α β : Type} [DecidableEq Val] (L : Ledger Heap Val)

/-- Every count is that of the references in the heap and of the `owned` ones outside. -/
def Balanced (owned : Multiset Val) (h : Heap) : Prop :=
  ∀ w, L.counted w = true → L.refCount h w = L.held h w + owned.count w

/-- From `h` to `h'` the heap takes these references over and gives those away. -/
def Trades (h h' : Heap) (takes gives : Multiset Val) : Prop :=
  ∀ w, L.counted w = true →
    L.refCount h' w + L.held h w + takes.count w = L.refCount h w + L.held h' w + gives.count w

def Alive (h : Heap) (v : Val) : Prop := L.counted v = true → 0 < L.refCount h v

instance decidableAlive (h : Heap) (v : Val) : Decidable (L.Alive h v) :=
  inferInstanceAs (Decidable (_ → _))

def Loose (h : Heap) (takes : List Val) : Prop :=
  ∀ v ∈ takes, L.counted v = true → L.held h v + takes.count v ≤ L.refCount h v

instance decidableLoose (h : Heap) (takes : List Val) : Decidable (L.Loose h takes) :=
  inferInstanceAs (Decidable (∀ v ∈ takes, _ → _))

/-- A function of the heap that works on `borrows`, takes `takes` over and gives away what
its result says. -/
def Obeys (borrows takes : List Val) (gives : α → Multiset Val) (f : Heap → α × Heap) : Prop :=
  ∀ h, (∀ v ∈ borrows, L.Alive h v) → L.Loose h takes → L.Trades h (f h).2 takes (gives (f h).1)

def call (borrows takes : List Val) (f : Heap → α × Heap) : Call Heap α := fun h =>
  if (∀ v ∈ borrows, L.Alive h v) ∧ L.Loose h takes then (.ok (f h).1, (f h).2)
    else (.error .dangling, h)

def Keeps (owned : Multiset Val) (m : Call Heap α) (after : α → Multiset Val) : Prop :=
  Triple (L.Balanced owned) m (fun a => L.Balanced (after a)) fun _ => False

variable {L} {h h' : Heap} {owned owned' takes gives : Multiset Val} {v w : Val}

lemma Balanced.trade (hb : L.Balanced (takes + owned) h) (ht : L.Trades h h' takes gives) :
    L.Balanced (gives + owned) h' := by
  intro w hw
  have hbalanced := hb w hw
  have htrades := ht w hw
  rw [Multiset.count_add] at hbalanced ⊢
  omega

lemma Balanced.alive (hb : L.Balanced owned h) (hv : v ∈ owned) : L.Alive h v := by
  intro hcounted
  have hpos := Multiset.count_pos.mpr hv
  rw [hb v hcounted]
  omega

lemma Balanced.loose {takes : List Val} (hb : L.Balanced (takes + owned) h) : L.Loose h takes := by
  intro v _ hcounted
  rw [hb v hcounted, Multiset.count_add, Multiset.coe_count]
  omega

lemma Balanced.count_eq (hb : L.Balanced owned h) (hb' : L.Balanced owned' h)
    (hw : L.counted w = true) :
    owned.count w = owned'.count w := by
  have hleft := hb w hw
  have hright := hb' w hw
  omega

lemma balanced_uncounted (hv : L.counted v = false) : L.Balanced ({v} + owned) h ↔
    L.Balanced owned h := by
  apply forall₂_congr
  intro w hw
  have hne : w ≠ v := by
    rintro rfl
    rw [hv] at hw
    cases hw
  rw [Multiset.count_add, Multiset.count_singleton, if_neg hne, zero_add]

lemma call_balanced {borrows takes : List Val} {gives : α → Multiset Val} {f : Heap → α × Heap}
    (hf : L.Obeys borrows takes gives f) (halive : ∀ v ∈ borrows, L.Alive h v)
    (hb : L.Balanced (takes + owned) h) :
    L.call borrows takes f h = (.ok (f h).1, (f h).2) ∧
      L.Balanced (gives (f h).1 + owned) (f h).2 :=
  ⟨if_pos ⟨halive, hb.loose⟩, hb.trade (hf h halive hb.loose)⟩

lemma Keeps.call {borrows takes : List Val} {gives : α → Multiset Val} {f : Heap → α × Heap}
    (hf : L.Obeys borrows takes gives f)
    (hborrows : ∀ v ∈ borrows, L.counted v = true → v ∈ takes + owned) :
    L.Keeps (takes + owned) (L.call borrows takes f) fun a => gives a + owned := by
  intro h hb
  obtain ⟨hrun, hafter⟩ :=
    call_balanced hf (fun v hv hcounted => hb.alive (hborrows v hv hcounted) hcounted) hb
  rw [hrun]
  exact hafter

lemma call_alone (f : Heap → α × Heap) (h : Heap) : L.call [] [] f h = (.ok (f h).1, (f h).2) :=
  if_pos ⟨by simp, by simp [Loose]⟩

lemma Keeps.pure {a : α} {after : α → Multiset Val} (h : owned = after a) :
    L.Keeps owned (Pure.pure a : Call Heap α) after :=
  Triple.pure fun _ hb => h ▸ hb

lemma Keeps.bind {m : Call Heap α} {f : α → Call Heap β} {middle : α → Multiset Val}
    {after : β → Multiset Val}
    (hm : L.Keeps owned m middle) (hf : ∀ a, L.Keeps (middle a) (f a) after) :
    L.Keeps owned (m >>= f) after :=
  Triple.bind hm hf

lemma Keeps.run {m : Call Heap α} {after : α → Multiset Val} (hm : L.Keeps owned m after)
    (hb : L.Balanced owned h) :
    ∃ a h', m h = (.ok a, h') ∧ L.Balanced (after a) h' := by
  have hrun := hm h hb
  match hresult : m h with
  | (.ok a, h') =>
    rw [hresult] at hrun
    exact ⟨a, h', rfl, hrun⟩
  | (.error _, h') =>
    rw [hresult] at hrun
    exact hrun.elim

lemma not_balanced_after_take {f : Heap → α × Heap} {gives : α → Multiset Val}
    (hf : L.Obeys [] [v] gives f)
    (hgives : ∀ a, gives a = 0) (hv : L.counted v = true) (hb : L.Balanced owned h) {a : α}
    (hrun : L.call [] [v] f h = (.ok a, h')) : ¬L.Balanced owned h' := by
  rw [Ledger.call] at hrun
  split_ifs at hrun with hchecked
  · cases hrun
    intro hb'
    have htrades := hf h (by simp) hchecked.2 v hv
    have hbefore := hb v hv
    have hafter := hb' v hv
    rw [hgives, Multiset.count_zero, Multiset.coe_singleton, Multiset.count_singleton_self]
      at htrades
    omega
  · cases hrun

end Ledger

end Catter.Library.References
