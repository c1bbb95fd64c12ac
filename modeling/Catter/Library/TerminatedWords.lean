import Mathlib.Data.List.Infix
import Mathlib.Tactic

/-! Words that end with a mark, one after another, and a last mark behind them. -/

namespace Catter.Library.TerminatedWords

variable {α : Type} [DecidableEq α] (mark : α)

def scanWord : List α → Option (List α × List α)
  | [] => none
  | c :: cs => if c = mark then some ([], cs) else (scanWord cs).map fun scanned =>
    (c :: scanned.1, scanned.2)

structure Word (mark : α) where
  letters : List α
  ne_nil : letters ≠ []
  no_mark : mark ∉ letters

def terminated (words : List (Word mark)) : List α := words.flatMap fun w => w.letters ++ [mark]

def block (words : List (Word mark)) : List α := terminated mark words ++ [mark]

variable {mark}

lemma scanWord_word {w : List α} (h : mark ∉ w) (rest : List α) :
    scanWord mark (w ++ mark :: rest) = some (w, rest) := by
  induction w with
  | nil => rw [List.nil_append, scanWord, if_pos rfl]
  | cons c w ih =>
    rw [List.mem_cons, not_or] at h
    rw [List.cons_append, scanWord, if_neg (Ne.symm h.1), ih h.2]
    rfl

lemma scanWord_lt {cs w rest : List α} (h : scanWord mark cs = some (w, rest)) :
    rest.length < cs.length := by
  induction cs generalizing w with
  | nil => cases h
  | cons c cs ih =>
    rw [scanWord] at h
    split_ifs at h
    · obtain ⟨-, rfl⟩ := Prod.mk.inj (Option.some.inj h)
      exact Nat.lt_succ_self _
    · obtain ⟨⟨w', rest'⟩, hscan, hpair⟩ := Option.map_eq_some_iff.mp h
      obtain ⟨-, rfl⟩ := Prod.mk.inj hpair
      exact (ih hscan).trans (Nat.lt_succ_self _)

omit [DecidableEq α] in
lemma block_cons (w : Word mark) (words : List (Word mark)) :
    block mark (w :: words) = w.letters ++ mark :: block mark words := by
  simp [block, terminated]

omit [DecidableEq α] in
lemma terminated_append (words more : List (Word mark)) :
    terminated mark (words ++ more) = terminated mark words ++ terminated mark more :=
  List.flatMap_append

end Catter.Library.TerminatedWords
