import Mathlib.Data.List.Basic
import Mathlib.Tactic

/-! Memory as a function of the address, and the texts that it holds. -/

namespace Catter.Library.Region

variable {α : Type*}

def Holds (mem : ℕ → α) (start : ℕ) (xs : List α) : Prop :=
  ∀ k (h : k < xs.length), mem (start + k) = xs[k]

def SameOutside (lo hi : ℕ) (mem mem' : ℕ → α) : Prop := ∀ k, k < lo ∨ hi ≤ k → mem' k = mem k

lemma SameOutside.refl (lo hi : ℕ) (mem : ℕ → α) : SameOutside lo hi mem mem := fun _ _ => rfl

lemma SameOutside.trans {lo hi : ℕ} {mem mem' mem'' : ℕ → α} (h : SameOutside lo hi mem mem')
    (h' : SameOutside lo hi mem' mem'') : SameOutside lo hi mem mem'' := by
  intro k hk
  rw [h' k hk, h k hk]

lemma SameOutside.mono {lo hi lo' hi' : ℕ} {mem mem' : ℕ → α} (h : SameOutside lo hi mem mem')
    (hlo : lo' ≤ lo)
    (hhi : hi ≤ hi') : SameOutside lo' hi' mem mem' := by
  intro k hk
  apply h
  omega

lemma sameOutside_update (mem : ℕ → α) {lo hi k : ℕ} (x : α) (hlo : lo ≤ k) (hhi : k < hi) :
    SameOutside lo hi mem (Function.update mem k x) := by
  intro j hj
  apply Function.update_of_ne
  omega

lemma holds_nil (mem : ℕ → α) (start : ℕ) : Holds mem start [] :=
  fun _ h => absurd h (Nat.not_lt_zero _)

lemma holds_cons {mem : ℕ → α} {start : ℕ} {x : α} {xs : List α} :
    Holds mem start (x :: xs) ↔ mem start = x ∧ Holds mem (start + 1) xs := by
  constructor
  · intro h
    refine ⟨h 0 (Nat.succ_pos _), ?_⟩
    intro k hk
    have hnext := h (k + 1) (Nat.succ_lt_succ hk)
    rwa [← Nat.add_assoc, Nat.add_right_comm] at hnext
  · rintro ⟨hx, hxs⟩ k hk
    cases k with
    | zero => exact hx
    | succ k =>
      rw [← Nat.add_assoc, Nat.add_right_comm]
      exact hxs k (Nat.lt_of_succ_lt_succ hk)

lemma holds_append {mem : ℕ → α} {start : ℕ} {xs ys : List α} :
    Holds mem start (xs ++ ys) ↔ Holds mem start xs ∧ Holds mem (start + xs.length) ys := by
  induction xs generalizing start with
  | nil => simp [holds_nil]
  | cons x xs ih =>
    rw [List.cons_append, holds_cons, holds_cons, ih, and_assoc, List.length_cons, Nat.add_assoc,
      Nat.add_comm 1]

lemma Holds.frame {mem mem' : ℕ → α} {start lo hi : ℕ} {xs : List α} (h : Holds mem start xs)
    (hsame : SameOutside lo hi mem mem') (hout : start + xs.length ≤ lo ∨ hi ≤ start) :
    Holds mem' start xs := by
  intro k hk
  rw [hsame (start + k) (by omega), h k hk]

lemma Holds.unique {mem : ℕ → α} {start : ℕ} {xs ys : List α} {mark : α}
    (hx : Holds mem start (xs ++ [mark]))
    (hy : Holds mem start (ys ++ [mark])) (hxs : mark ∉ xs) (hys : mark ∉ ys) : xs = ys := by
  induction xs generalizing start ys with
  | nil =>
    cases ys with
    | nil => rfl
    | cons y ys =>
      have hmark := (holds_cons.mp hx).1
      have hy := (holds_cons.mp hy).1
      apply absurd _ hys
      rw [← hmark, hy]
      exact List.mem_cons_self
  | cons x xs ih =>
    obtain ⟨hx, hxrest⟩ := holds_cons.mp hx
    rw [List.mem_cons, not_or] at hxs
    cases ys with
    | nil =>
      apply absurd _ hxs.1
      rw [← (holds_cons.mp hy).1, hx]
    | cons y ys =>
      obtain ⟨hy, hyrest⟩ := holds_cons.mp hy
      rw [List.mem_cons, not_or] at hys
      rw [← hx, hy, ih hxrest hyrest hxs.2 hys.2]

end Catter.Library.Region
