import Mathlib.Data.List.TakeWhile
import Mathlib.Tactic

/-! Binary search for the first element of a list that a predicate rejects. -/

namespace Catter.Library.PartitionPoint

variable {α : Type}

-- The halving loop of `std::lower_bound`; `fuel` is at least `len`.
def search (less : α → Bool) (xs : List α) : ℕ → ℕ → ℕ → ℕ
  | 0, first, _ => first
  | fuel + 1, first, len =>
    if len = 0 then first
    else if (xs[first + len / 2]?).any less then
      search less xs fuel (first + len / 2 + 1) (len - len / 2 - 1)
    else search less xs fuel first (len / 2)

def lowerBound (less : α → Bool) (xs : List α) : ℕ := search less xs xs.length 0 xs.length

lemma search_partitioned (less : α → Bool) (ys zs : List α) (hy : ∀ y ∈ ys, less y = true)
    (hz : ∀ z ∈ zs, less z = false) (fuel first len : ℕ) (hf : len ≤ fuel)
    (hlow : first ≤ ys.length)
    (hhigh : ys.length ≤ first + len) (hlen : first + len ≤ (ys ++ zs).length) :
    search less (ys ++ zs) fuel first len = ys.length := by
  induction fuel generalizing first len with
  | zero =>
    rw [search]
    omega
  | succ fuel ih =>
    rw [search]
    by_cases h0 : len = 0
    · rw [if_pos h0]
      omega
    · have hmid : first + len / 2 < (ys ++ zs).length := by omega
      rw [if_neg h0, List.getElem?_eq_getElem hmid, Option.any_some]
      by_cases hlt : first + len / 2 < ys.length
      · rw [List.getElem_append_left hlt, if_pos (hy _ (List.getElem_mem hlt))]
        apply ih <;> omega
      · have hge : ys.length ≤ first + len / 2 := by omega
        rw [List.getElem_append_right hge, if_neg (by simp [hz _ (List.getElem_mem _)])]
        apply ih <;> omega

lemma lowerBound_partitioned (less : α → Bool) (ys zs : List α) (hy : ∀ y ∈ ys, less y = true)
    (hz : ∀ z ∈ zs, less z = false) : lowerBound less (ys ++ zs) = ys.length := by
  apply search_partitioned less ys zs hy hz <;> simp

/-! A list where no accepted element follows a rejected one. -/

lemma not_less_of_mem_dropWhile (less : α → Bool) (xs : List α)
    (h : xs.Pairwise fun x y => less y = true → less x = true) :
    ∀ z ∈ xs.dropWhile less, less z = false := by
  intro z hz
  cases hd : xs.dropWhile less with
  | nil => simp [hd] at hz
  | cons d ds =>
    have hhead : less d = false := by
      have hne : xs.dropWhile less ≠ [] := by simp [hd]
      simpa [hd] using List.head_dropWhile_not less hne
    have hsplit : xs.takeWhile less ++ xs.dropWhile less = xs := List.takeWhile_append_dropWhile
    rw [← hsplit, hd] at h
    have htail := (List.pairwise_append.mp h).2.1
    rcases List.mem_cons.mp (hd ▸ hz) with rfl | hmem
    · exact hhead
    · by_contra hne
      have hless := (List.pairwise_cons.mp htail).1 z hmem (by simpa using hne)
      simp [hhead] at hless

lemma lowerBound_eq_takeWhile (less : α → Bool) (xs : List α)
    (h : xs.Pairwise fun x y => less y = true → less x = true) :
    lowerBound less xs = (xs.takeWhile less).length := by
  have hbound := lowerBound_partitioned less (xs.takeWhile less) (xs.dropWhile less)
    (fun y hy => List.mem_takeWhile_imp hy) (not_less_of_mem_dropWhile less xs h)
  rwa [List.takeWhile_append_dropWhile] at hbound

lemma less_of_mem_take_lowerBound (less : α → Bool) (xs : List α)
    (h : xs.Pairwise fun x y => less y = true → less x = true) (x : α)
    (hx : x ∈ xs.take (lowerBound less xs)) : less x = true := by
  rw [lowerBound_eq_takeWhile less xs h, ← List.prefix_iff_eq_take.mp (List.takeWhile_prefix less)]
    at hx
  exact List.mem_takeWhile_imp hx

lemma drop_lowerBound (less : α → Bool) (xs : List α)
    (h : xs.Pairwise fun x y => less y = true → less x = true) :
    xs.drop (lowerBound less xs) = xs.filter fun x => !less x := by
  have hsplit : xs.takeWhile less ++ xs.dropWhile less = xs := List.takeWhile_append_dropWhile
  have htaken : (xs.takeWhile less).filter (fun x => !less x) = [] := by
    rw [List.filter_eq_nil_iff]
    intro y hy
    simp [List.mem_takeWhile_imp hy]
  have hleft : (xs.dropWhile less).filter (fun x => !less x) = xs.dropWhile less := by
    rw [List.filter_eq_self]
    intro z hz
    simp [not_less_of_mem_dropWhile less xs h z hz]
  rw [lowerBound_eq_takeWhile less xs h]
  calc xs.drop (xs.takeWhile less).length
    _ = (xs.takeWhile less ++ xs.dropWhile less).drop (xs.takeWhile less).length := by rw [hsplit]
    _ = xs.dropWhile less := List.drop_left
    _ = (xs.takeWhile less ++ xs.dropWhile less).filter (fun x => !less x) := by
      rw [List.filter_append, htaken, hleft, List.nil_append]
    _ = xs.filter fun x => !less x := by rw [hsplit]

lemma filter_drop_lowerBound (less p : α → Bool) (xs : List α)
    (h : xs.Pairwise fun x y => less y = true → less x = true) :
    (xs.drop (lowerBound less xs)).filter p =
      (xs.filter p).drop (lowerBound less (xs.filter p)) := by
  rw [drop_lowerBound less xs h, drop_lowerBound less _ (h.filter p), List.filter_filter,
    List.filter_filter]
  simp only [Bool.and_comm]

lemma pairwise_lt_of_not_lt {β γ : Type*} [LinearOrder γ] (key : β → γ) {xs : List β} (bound : γ)
    (h : xs.Pairwise fun x y => ¬ key y < key x) :
    xs.Pairwise fun x y => key y < bound → key x < bound := by
  apply h.imp
  intro x y hxy hy
  exact lt_of_le_of_lt (not_lt.mp hxy) hy

end Catter.Library.PartitionPoint
