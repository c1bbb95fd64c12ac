import Catter.Library.Lines

/-! A sequence with a cursor: it is read and overwritten at the cursor, and grows at its end. A
cursor that a reader has pushed against the end is stuck there for writers. -/

namespace Catter.Library

open Lines

@[ext]
structure Cursor (α : Type*) where
  content : List α
  pos : ℕ
  stuck : Bool
  within : pos ≤ content.length
  stuck_at_end : stuck = true → pos = content.length

namespace Cursor

variable {α : Type*}

def start (content : List α) : Cursor α :=
  ⟨content, 0, false, Nat.zero_le _, fun h => absurd h Bool.false_ne_true⟩

def finish (content : List α) : Cursor α := ⟨content, content.length, false, le_rfl, fun _ => rfl⟩

def rest (c : Cursor α) : List α := c.content.drop c.pos

def overwritten (c : Cursor α) (data : List α) : List α :=
  c.content.take c.pos ++ data ++ c.content.drop (c.pos + data.length)

lemma length_overwritten (c : Cursor α) (data : List α) :
    (c.overwritten data).length = max c.content.length (c.pos + data.length) := by
  have hwithin := c.within
  rw [overwritten, List.length_append, List.length_append, List.length_take, List.length_drop]
  omega

def write (data : List α) (c : Cursor α) : Cursor α :=
  if c.stuck then c
  else
    { content := c.overwritten data
      pos := c.pos + data.length
      stuck := false
      within := by rw [length_overwritten]; exact le_max_right _ _
      stuck_at_end := fun h => absurd h Bool.false_ne_true }

def append (data : List α) (c : Cursor α) : Cursor α := finish (c.content ++ data)

lemma length_rest (c : Cursor α) : c.pos + c.rest.length = c.content.length := by
  have hwithin := c.within
  rw [rest, List.length_drop]
  omega

def advance (c : Cursor α) (n : ℕ) (stuck : Bool) (hn : n ≤ c.rest.length)
    (h : stuck = true → n = c.rest.length) :
    Cursor α where
  content := c.content
  pos := c.pos + n
  stuck := stuck
  within := by
    have hrest := c.length_rest
    omega
  stuck_at_end hstuck := by
    have hrest := c.length_rest
    rw [h hstuck]
    exact hrest

-- Asking for more than there is pushes against the end.
def read (n : ℕ) (c : Cursor α) : List α × Cursor α :=
  if n = 0 then ([], c)
  else (c.rest.take n,
    c.advance (min n c.rest.length) (decide (c.rest.length < n)) (min_le_right _ _) (by
    intro hshort
    exact min_eq_right (of_decide_eq_true hshort).le))

lemma finish_write (content data : List α) :
    (finish content).write data = (finish content).append data := by
  have hfree : ¬ (finish content).stuck = true := Bool.false_ne_true
  rw [write, if_neg hfree]
  ext1
  · simp [overwritten, finish, append]
  · simp [finish, append]
  · rfl

lemma length_le_write (data : List α) (c : Cursor α) :
    c.content.length ≤ (c.write data).content.length := by
  rw [write]
  split_ifs
  · exact le_rfl
  · exact (le_max_left _ _).trans (length_overwritten c data).ge

lemma length_le_append (data : List α) (c : Cursor α) :
    c.content.length ≤ (c.append data).content.length := by
  rw [append, finish, List.length_append]
  exact Nat.le_add_right _ _

lemma read_fst (n : ℕ) (c : Cursor α) : (c.read n).1 = c.rest.take n := by
  rw [read]
  split_ifs with hn
  · rw [hn, List.take_zero]
  · rfl

@[simp] lemma read_content (n : ℕ) (c : Cursor α) : (c.read n).2.content = c.content := by
  rw [read]
  split_ifs <;> rfl

lemma read_pos (n : ℕ) (c : Cursor α) : (c.read n).2.pos = c.pos + (c.rest.take n).length := by
  rw [read, List.length_take]
  split_ifs with hn
  · rw [hn, Nat.zero_min, Nat.add_zero]
  · rfl

lemma read_stuck {n : ℕ} (hn : n ≠ 0) (c : Cursor α) :
    (c.read n).2.stuck = decide (c.rest.length < n) := by
  rw [read, if_neg hn]
  rfl

variable [DecidableEq α]

def readUntil (d : α) (c : Cursor α) : List α × Cursor α :=
  (upTo d c.rest, c.advance (reach d c.rest) (decide (d ∉ c.rest)) (reach_le_length _ _) (by
    intro hnone
    rw [reach, if_neg (of_decide_eq_true hnone)]))

lemma readUntil_fst (d : α) (c : Cursor α) : (c.readUntil d).1 = upTo d c.rest := rfl

@[simp] lemma readUntil_content (d : α) (c : Cursor α) :
    (c.readUntil d).2.content = c.content := rfl

lemma readUntil_pos (d : α) (c : Cursor α) : (c.readUntil d).2.pos = c.pos + reach d c.rest := rfl

lemma readUntil_stuck (d : α) (c : Cursor α) : (c.readUntil d).2.stuck = decide (d ∉ c.rest) := rfl

def readPieces (d : α) (c : Cursor α) : List (List α) × Cursor α :=
  (pieces d c.rest, finish c.content)

end Cursor

end Catter.Library
