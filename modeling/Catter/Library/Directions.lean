import Mathlib.Tactic

/-! Directions in a tree: to the parent, to a child, or nowhere. Above the root there
is nothing, so a step up from it stays there. -/

namespace Catter.Library.Directions

variable {N : Type}

inductive Move (N : Type)
  | stay
  | up
  | down (n : N)

/-- A node is the list of the names that lead to it from the root. -/
def Move.go (node : List N) : Move N → List N
  | .stay => node
  | .up => node.dropLast
  | .down n => node ++ [n]

def follow (node : List N) (moves : List (Move N)) : List N := moves.foldl Move.go node

@[ext]
structure Way (N : Type) where
  ups : ℕ
  downs : List N

namespace Way

def start : Way N := ⟨0, []⟩

def extend (way : Way N) : Move N → Way N
  | .stay => way
  | .up => if way.downs.isEmpty then ⟨way.ups + 1, []⟩ else ⟨way.ups, way.downs.dropLast⟩
  | .down n => ⟨way.ups, way.downs ++ [n]⟩

def go (node : List N) (way : Way N) : List N := node.take (node.length - way.ups) ++ way.downs

def moves (way : Way N) : List (Move N) := List.replicate way.ups .up ++ way.downs.map .down

end Way

def reduce (moves : List (Move N)) : Way N := moves.foldl Way.extend .start

variable {node : List N} {m m' : List (Move N)} {way way' : Way N}

@[simp] lemma follow_nil : follow node [] = node := rfl

lemma follow_append : follow node (m ++ m') = follow (follow node m) m' := List.foldl_append

lemma follow_downs (names : List N) : follow node (names.map .down) = node ++ names := by
  induction names generalizing node with
  | nil => simp
  | cons n names ih =>
    have hstep : follow node ((n :: names).map .down) = follow (node ++ [n]) (names.map .down) :=
      rfl
    rw [hstep, ih, List.append_assoc, List.singleton_append]

lemma follow_ups (k : ℕ) : follow node (List.replicate k .up) = node.take (node.length - k) := by
  induction k generalizing node with
  | zero => simp
  | succ k ih =>
    have hstep : follow node (List.replicate (k + 1) .up) =
      follow node.dropLast (List.replicate k .up) := rfl
    rw [hstep, ih, List.dropLast_eq_take, List.take_take, List.length_take]
    congr 1
    omega

lemma follow_moves (way : Way N) : follow node way.moves = way.go node := by
  rw [Way.moves, follow_append, follow_ups, follow_downs, Way.go]

lemma go_extend (move : Move N) : (way.extend move).go node = move.go (way.go node) := by
  cases move with
  | stay => rfl
  | up =>
    by_cases hdowns : way.downs = []
    · simp only [Way.extend, hdowns, List.isEmpty_nil, if_true, Way.go, List.append_nil, Move.go,
        List.dropLast_eq_take, List.take_take, List.length_take]
      congr 1
      omega
    · simp only [Way.extend, List.isEmpty_iff, hdowns, if_false, Way.go, Move.go]
      rw [List.dropLast_append_of_ne_nil hdowns]
  | down n => simp [Way.extend, Way.go, Move.go]

lemma go_foldl (moves : List (Move N)) :
    (moves.foldl Way.extend way).go node = follow (way.go node) moves := by
  induction moves generalizing way with
  | nil => rfl
  | cons move moves ih => rw [List.foldl_cons, ih, go_extend]; rfl

theorem go_reduce (moves : List (Move N)) : (reduce moves).go node = follow node moves := by
  rw [reduce, go_foldl]
  simp [Way.go, Way.start]

lemma go_root : way.go [] = way.downs := by simp [Way.go]

lemma go_injective [Nonempty N] (h : ∀ node, way.go node = way'.go node) : way = way' := by
  have hdowns : way.downs = way'.downs := by rw [← go_root, ← go_root, h]
  let n : N := Classical.arbitrary N
  have hlength := congrArg List.length (h (List.replicate (way.ups + way'.ups) n))
  simp only [Way.go, hdowns, List.length_append, List.length_take, List.length_replicate] at hlength
  apply Way.ext
  · omega
  · exact hdowns

end Catter.Library.Directions
