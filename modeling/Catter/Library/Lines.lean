import Mathlib.Data.List.TakeWhile
import Mathlib.Tactic

/-! Lists cut at a delimiter: the part before its first occurrence, how far it
reaches, and the pieces between all occurrences. -/

namespace Catter.Library.Lines

variable {α : Type*} [DecidableEq α]

def upTo (d : α) (xs : List α) : List α := xs.takeWhile (· ≠ d)

/-- The length of what a reader uses up: the delimiter is consumed with the part before it. -/
def reach (d : α) (xs : List α) : ℕ := if d ∈ xs then (upTo d xs).length + 1 else xs.length

/-- A delimiter ends a piece, so none follows the last one. -/
def pieces (d : α) (xs : List α) : List (List α) :=
  if (xs.splitOn d).getLast? = some [] then (xs.splitOn d).dropLast else xs.splitOn d

lemma upTo_of_not_mem {d : α} {xs : List α} (h : d ∉ xs) : upTo d xs = xs := by
  apply List.takeWhile_eq_self_iff.mpr
  intro x hx
  have : x ≠ d := fun he => h (he ▸ hx)
  simpa using this

lemma upTo_append_of_not_mem {d : α} {xs : List α} (h : d ∉ xs) (ys : List α) :
    upTo d (xs ++ ys) = xs ++ upTo d ys := by
  apply List.takeWhile_append_of_pos
  intro x hx
  have : x ≠ d := fun he => h (he ▸ hx)
  simpa using this

lemma upTo_append_cons {d : α} {xs : List α} (h : d ∉ xs) (ys : List α) :
    upTo d (xs ++ d :: ys) = xs := by
  rw [upTo_append_of_not_mem h]
  simp [upTo]

lemma reach_append_cons {d : α} {xs : List α} (h : d ∉ xs) (ys : List α) :
    reach d (xs ++ d :: ys) = xs.length + 1 := by
  rw [reach, if_pos (by simp), upTo_append_cons h]

lemma reach_le_length (d : α) (xs : List α) : reach d xs ≤ xs.length := by
  by_cases h : d ∈ xs
  · obtain ⟨before, after, rfl, hbefore⟩ := List.eq_append_cons_of_mem h
    rw [reach_append_cons hbefore, List.length_append, List.length_cons]
    omega
  · rw [reach, if_neg h]

lemma reach_pos {d : α} {xs : List α} (hne : xs ≠ []) : 0 < reach d xs := by
  have := List.length_pos_iff.mpr hne
  rw [reach]
  split_ifs <;> omega

lemma reach_append_of_not_mem {d : α} {xs : List α} (h : d ∉ xs) (ys : List α) :
    reach d (xs ++ ys) = xs.length + reach d ys := by
  by_cases hd : d ∈ ys
  · rw [reach, reach, if_pos (List.mem_append_right _ hd), if_pos hd, upTo_append_of_not_mem h,
      List.length_append, Nat.add_assoc]
  · rw [reach, reach, if_neg (by simp [h, hd]), if_neg hd, List.length_append]

lemma upTo_of_mem_left {d : α} {xs : List α} (h : d ∈ xs) (ys : List α) :
    upTo d (xs ++ ys) = upTo d xs := by
  obtain ⟨before, after, rfl, hbefore⟩ := List.eq_append_cons_of_mem h
  rw [List.append_assoc, List.cons_append, upTo_append_cons hbefore, upTo_append_cons hbefore]

lemma reach_of_mem {d : α} {xs : List α} (h : d ∈ xs) :
    reach d xs = (upTo d xs).length + 1 := if_pos h

lemma reach_of_mem_left {d : α} {xs : List α} (h : d ∈ xs) (ys : List α) :
    reach d (xs ++ ys) = reach d xs := by
  rw [reach_of_mem (List.mem_append_left _ h), reach_of_mem h, upTo_of_mem_left h]

@[simp] lemma pieces_nil (d : α) : pieces d [] = [] := by
  simp [pieces]

lemma pieces_of_ne_nil {d : α} {xs : List α} (hne : xs ≠ []) :
    pieces d xs = upTo d xs :: pieces d (xs.drop (reach d xs)) := by
  by_cases h : d ∈ xs
  · obtain ⟨before, after, rfl, hbefore⟩ := List.eq_append_cons_of_mem h
    have hdrop : (before ++ d :: after).drop (before.length + 1) = after := by
      rw [← List.drop_drop, List.drop_left, List.drop_one, List.tail_cons]
    have hafter : after.splitOn d ≠ [] := List.splitOn_ne_nil d after
    rw [reach_append_cons hbefore, upTo_append_cons hbefore, hdrop, pieces, pieces,
      List.splitOn_append_cons_self_of_not_mem hbefore, List.getLast?_cons,
        List.dropLast_cons_of_ne_nil hafter]
    cases hlast : (after.splitOn d).getLast? with
    | none => exact absurd (List.getLast?_eq_none_iff.mp hlast) hafter
    | some last => by_cases hl : last = [] <;> simp [hl]
  · rw [reach, if_neg h, upTo_of_not_mem h, List.drop_length, pieces_nil, pieces,
      List.splitOn_eq_singleton h]
    simp [hne]

section Map

variable {β : Type*} [DecidableEq β] {f : α → β} (hf : Function.Injective f)

include hf

lemma upTo_map (d : α) (xs : List α) : upTo (f d) (xs.map f) = (upTo d xs).map f := by
  have hsame : (fun x => decide (x ≠ f d)) ∘ f = fun x => decide (x ≠ d) := by
    funext x
    simp [hf.eq_iff]
  rw [upTo, upTo, List.takeWhile_map, hsame]

lemma reach_map (d : α) (xs : List α) : reach (f d) (xs.map f) = reach d xs := by
  simp only [reach, upTo_map hf, List.length_map, List.mem_map_of_injective hf]

lemma pieces_map (d : α) (xs : List α) :
    pieces (f d) (xs.map f) = (pieces d xs).map (List.map f) := by
  induction hlength : xs.length using Nat.strong_induction_on generalizing xs with
  | _ length ih =>
    by_cases hne : xs = []
    · rw [hne, List.map_nil, pieces_nil, pieces_nil, List.map_nil]
    · have hpos := reach_pos (d := d) hne
      have hle := reach_le_length d xs
      have hmapped : xs.map f ≠ [] := by simpa using hne
      have hrest := ih (xs.drop (reach d xs)).length (by rw [List.length_drop]; omega) _ rfl
      rw [pieces_of_ne_nil hmapped, pieces_of_ne_nil hne, upTo_map hf,
        reach_map hf, ← List.map_drop, hrest,
        List.map_cons]

end Map

lemma find?_pieces {d : α} {q : List α → Bool} (hempty : q [] = false) (xs : List α) :
    (pieces d xs).find? q = (xs.splitOn d).find? q := by
  rw [pieces]
  split_ifs with hlast
  · have hsplit := List.dropLast_append_getLast? [] hlast
    conv_rhs => rw [← hsplit]
    rw [List.find?_append, List.find?_singleton, hempty]
    simp
  · rfl

end Catter.Library.Lines
