import Mathlib.Data.List.Basic

/-! A block written over a list at a position. -/

namespace Catter.Library.Patch

variable {α : Type*}

def patch (l : List α) (i : ℕ) (block : List α) : List α :=
  l.take i ++ block ++ l.drop (i + block.length)

-- What differs when the block goes to `j` instead of `i`, from its front to behind its end.
def Coincide (l : List α) (i j : ℕ) (block : List α) : Prop :=
  ∀ k < block.length,
    (i + k < j → l[i + k]? = block[k]?) ∧
    (j ≤ i + k → block[i + k - j]? = block[k]?) ∧
    (i + block.length ≤ j + k → l[j + k]? = block[k]?)

instance [DecidableEq α] (l : List α) (i j : ℕ) (block : List α) :
    Decidable (Coincide l i j block) :=
  inferInstanceAs (Decidable (∀ k < block.length, _))

lemma getElem?_patch {l : List α} {i : ℕ} (h : i ≤ l.length) (block : List α) (k : ℕ) :
    (patch l i block)[k]? =
      if k < i then l[k]? else if k < i + block.length then block[k - i]? else l[k]? := by
  have htake : (l.take i).length = i := List.length_take_of_le h
  rw [patch, List.append_assoc]
  split_ifs with hfront hblock
  · rw [List.getElem?_append_left (by omega), List.getElem?_take_of_lt hfront]
  · rw [List.getElem?_append_right (by omega), htake, List.getElem?_append_left (by omega)]
  · rw [List.getElem?_append_right (by omega), htake, List.getElem?_append_right (by omega),
      List.getElem?_drop]
    congr 1
    omega

lemma patch_eq_iff {l : List α} {i j : ℕ} {block : List α} (hij : i ≤ j) (hj : j ≤ l.length) :
    patch l i block = patch l j block ↔ Coincide l i j block := by
  rw [List.ext_getElem?_iff]
  constructor
  · intro h k hk
    have hfront := h (i + k)
    have hback := h (j + k)
    rw [getElem?_patch (Nat.le_trans hij hj), getElem?_patch hj] at hfront hback
    rw [if_neg (by omega), if_pos (by omega), Nat.add_sub_cancel_left] at hfront
    refine ⟨?_, ?_, ?_⟩
    · intro hlt
      rw [if_pos hlt] at hfront
      exact hfront.symm
    · intro hle
      rw [if_neg (by omega), if_pos (by omega)] at hfront
      exact hfront.symm
    · intro hle
      rw [if_neg (by omega), if_neg (by omega), if_neg (by omega), if_pos (by omega),
        Nat.add_sub_cancel_left] at hback
      exact hback
  · intro h k
    rw [getElem?_patch (Nat.le_trans hij hj), getElem?_patch hj]
    by_cases hi : k < i
    · rw [if_pos hi, if_pos (by omega)]
    · rw [if_neg hi]
      by_cases hblock : k < i + block.length
      · obtain ⟨hfront, hshifted, -⟩ := h (k - i) (by omega)
        rw [Nat.add_sub_cancel' (by omega)] at hfront hshifted
        rw [if_pos hblock]
        split_ifs with hj' hblock'
        · exact (hfront hj').symm
        · exact (hshifted (by omega)).symm
        · omega
      · rw [if_neg hblock]
        split_ifs with hj' hblock'
        · rfl
        · obtain ⟨-, -, hback⟩ := h (k - j) (by omega)
          rw [Nat.add_sub_cancel' (by omega)] at hback
          exact hback (by omega)
        · rfl

lemma coincide_self (l : List α) (i : ℕ) (block : List α) : Coincide l i i block := by
  intro k hk
  refine ⟨?_, ?_, ?_⟩
  · omega
  · intro _
    rw [Nat.add_sub_cancel_left]
  · omega

end Catter.Library.Patch
