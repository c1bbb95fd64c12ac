import Catter.Library.Lines
import Catter.Text

/-! `Splitter`: the entries of a search path, one iterator step after another. -/

namespace Catter.Hook

open Text Library.Lines

def pathSeparator : UInt8 := 58

namespace Splitter

-- The two pointers into the path; both are null behind the last entry.
abbrev Iterator := Option (ℕ × ℕ)

def scan : Str → ℕ → ℕ
  | [], it => it
  | c :: cs, it => if c ≠ pathSeparator then scan cs (it + 1) else it

variable (path : Str)

def nextPathSeparator (current : ℕ) : ℕ := scan (path.drop current) current

def begin_ : Iterator := if path.length = 0 then none else some (0, nextPathSeparator path 0)

def next (current : ℕ) : Iterator :=
  if current = path.length then none
  else if current + 1 = path.length then none
  else some (current + 1, nextPathSeparator path (current + 1))

def deref (begin_ end_ : ℕ) : Str := (path.drop begin_).take (end_ - begin_)

inductive At : Iterator → Str → Prop
  | atEnd : At none []
  | entry {begin_ : ℕ} (hlt : begin_ < path.length) :
      At (some (begin_, nextPathSeparator path begin_)) (path.drop begin_)

lemma scan_eq (cs : Str) (it : ℕ) : scan cs it = it + (upTo pathSeparator cs).length := by
  induction cs generalizing it with
  | nil => rfl
  | cons c cs ih =>
    rw [scan]
    by_cases hc : c = pathSeparator
    · simp [hc, upTo]
    · have hup : upTo pathSeparator (c :: cs) = c :: upTo pathSeparator cs :=
        List.takeWhile_cons_of_pos (by simpa using hc)
      rw [if_pos hc, ih, hup, List.length_cons]
      omega

lemma at_begin : At path (begin_ path) path := by
  rw [begin_]
  split_ifs with hempty
  · obtain rfl := List.eq_nil_of_length_eq_zero hempty
    exact At.atEnd
  · exact At.entry (Nat.pos_of_ne_zero hempty)

variable {path}

lemma deref_eq {begin_ : ℕ} :
    deref path begin_ (nextPathSeparator path begin_) = upTo pathSeparator (path.drop begin_) := by
  rw [deref, nextPathSeparator, scan_eq, Nat.add_sub_cancel_left]
  exact (List.prefix_iff_eq_take.mp (List.takeWhile_prefix _)).symm

lemma at_next {begin_ : ℕ} (hlt : begin_ < path.length) :
    At path (next path (nextPathSeparator path begin_))
      ((path.drop begin_).drop (reach pathSeparator (path.drop begin_))) := by
  rw [List.drop_drop, next, nextPathSeparator, scan_eq]
  have hlength : (path.drop begin_).length = path.length - begin_ := List.length_drop
  by_cases hmem : pathSeparator ∈ path.drop begin_
  · have hle := reach_le_length pathSeparator (path.drop begin_)
    rw [reach_of_mem hmem] at hle ⊢
    rw [if_neg (by omega)]
    split_ifs with hlast
    · rw [List.drop_eq_nil_of_le (by omega)]
      exact At.atEnd
    · exact At.entry (by omega)
  · rw [upTo_of_not_mem hmem, reach, if_neg hmem, if_pos (by omega),
      List.drop_eq_nil_of_le (by omega)]
    exact At.atEnd

end Splitter

end Catter.Hook
