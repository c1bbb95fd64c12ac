import Mathlib.Data.List.Lex
import Mathlib.Order.WithBot

/-! The lexicographic order of words in which the end of a word comes after every
letter, so that a word precedes its own prefixes. -/

namespace Catter.Library.EndLast

variable {α : Type*} [LinearOrder α]

def endLast (xs : List α) : List (WithTop α) := xs.map WithTop.some ++ [⊤]

lemma endLast_cons_lt {x y : α} {xs ys : List α} :
    endLast (x :: xs) < endLast (y :: ys) ↔ x < y ∨ x = y ∧ endLast xs < endLast ys := by
  simp only [endLast, List.map_cons, List.cons_append, List.cons_lt_cons_iff, WithTop.coe_lt_coe,
    WithTop.coe_inj]

lemma endLast_cons_lt_nil (x : α) (xs : List α) : endLast (x :: xs) < endLast [] := by
  apply List.cons_lt_cons_iff.mpr
  exact Or.inl (WithTop.coe_lt_top x)

lemma not_endLast_nil_lt (ys : List α) : ¬ endLast [] < endLast ys := by
  cases ys with
  | nil => exact lt_irrefl _
  | cons y ys => exact not_lt_of_gt (endLast_cons_lt_nil y ys)

lemma not_endLast_lt_of_prefix {xs ys : List α} (h : xs <+: ys) : ¬ endLast xs < endLast ys := by
  induction xs generalizing ys with
  | nil => exact not_endLast_nil_lt ys
  | cons x xs ih =>
    obtain ⟨rest, rfl⟩ := h
    rw [List.cons_append, endLast_cons_lt]
    rintro (hlt | ⟨-, hlt⟩)
    · exact lt_irrefl x hlt
    · exact ih (List.prefix_append xs rest) hlt

lemma endLast_lt_of_longer {xs ys : List α} (h : xs <+: ys) (hlen : xs.length < ys.length) :
    endLast ys < endLast xs := by
  induction xs generalizing ys with
  | nil =>
    cases ys with
    | nil => simp at hlen
    | cons y ys => exact endLast_cons_lt_nil y ys
  | cons x xs ih =>
    obtain ⟨rest, rfl⟩ := h
    rw [List.cons_append, endLast_cons_lt]
    refine Or.inr ⟨rfl, ih (List.prefix_append xs rest) ?_⟩
    rw [List.cons_append, List.length_cons, List.length_cons] at hlen
    exact Nat.lt_of_succ_lt_succ hlen

end Catter.Library.EndLast
