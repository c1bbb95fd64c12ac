import Catter.Library.Region
import Catter.Text

/-! The byte buffer in which the hook keeps its strings. Addresses are offsets from the
beginning of the builder's area; the memory behind the area is part of the model. -/

namespace Catter.Hook

open Text Library.Region

abbrev Memory := ℕ → UInt8

-- A text without NUL, as a `const char*` points to one.
@[ext]
structure CString where
  bytes : Str
  no_nul : 0 ∉ bytes := by decide

def CString.stored (s : CString) : Str := s.bytes ++ [0]

-- `array::copy`: it writes as long as there is room, also when the end is not reached.
def copy : Str → Memory → ℕ → ℕ → Memory × Option ℕ
  | [], mem, dst, _ => (mem, some dst)
  | c :: src, mem, dst, dstEnd =>
    if dst = dstEnd then (mem, none) else copy src (Function.update mem dst c) (dst + 1) dstEnd

structure Buffer where
  top : ℕ
  end_ : ℕ

namespace Buffer

variable (b : Buffer)

-- The address of the stored text is the old top.
def store (input : Option CString) (mem : Memory) : Memory × Buffer × Option ℕ :=
  match input with
  | none => (mem, b, none)
  | some s =>
    match copy s.stored mem b.top b.end_ with
    | (mem, some top) => (mem, { b with top }, some b.top)
    | (mem, none) => (mem, b, none)

def push (input : Option CString) (mem : Memory) : Memory × Buffer × Bool :=
  match input with
  | none => (mem, b, false)
  | some s =>
    match copy s.bytes mem b.top b.end_ with
    | (mem, some top) => (mem, { b with top }, true)
    | (mem, none) => (mem, b, false)

end Buffer

lemma copy_fits (src : Str) (mem : Memory) (dst dstEnd : ℕ) (h : dst + src.length ≤ dstEnd) :
    ∃ mem', copy src mem dst dstEnd = (mem', some (dst + src.length)) ∧ Holds mem' dst src ∧
      SameOutside dst (dst + src.length) mem mem' := by
  induction src generalizing mem dst with
  | nil => exact ⟨mem, rfl, holds_nil mem dst, SameOutside.refl _ _ _⟩
  | cons c src ih =>
    rw [List.length_cons] at h
    obtain ⟨mem', hcopy, hholds, hsame⟩ := ih (Function.update mem dst c) (dst + 1) (by omega)
    refine ⟨mem', ?_, holds_cons.mpr ⟨?_, hholds⟩, ?_⟩
    · rw [copy, if_neg (by omega), hcopy, List.length_cons, Nat.add_assoc, Nat.add_comm 1]
    · rw [hsame dst (by omega), Function.update_self]
    · rw [List.length_cons]
      apply SameOutside.trans (sameOutside_update mem c le_rfl (by omega))
      apply hsame.mono
      · omega
      · omega

lemma copy_overflows (src : Str) (mem : Memory) (dst dstEnd : ℕ) (hle : dst ≤ dstEnd)
    (h : dstEnd < dst + src.length) :
    ∃ mem', copy src mem dst dstEnd = (mem', none) ∧ SameOutside dst dstEnd mem mem' := by
  induction src generalizing mem dst with
  | nil =>
    simp only [List.length_nil] at h
    omega
  | cons c src ih =>
    rw [List.length_cons] at h
    by_cases hend : dst = dstEnd
    · exact ⟨mem, by rw [copy, if_pos hend], SameOutside.refl _ _ _⟩
    · obtain ⟨mem', hcopy, hsame⟩ := ih (Function.update mem dst c) (dst + 1) (by omega) (by omega)
      refine ⟨mem', by rw [copy, if_neg hend, hcopy], ?_⟩
      apply SameOutside.trans (sameOutside_update mem c le_rfl (by omega))
      apply hsame.mono
      · omega
      · exact le_rfl

namespace Buffer

variable {b : Buffer}

lemma store_fits (s : CString) (mem : Memory) (h : b.top + s.stored.length ≤ b.end_) :
    ∃ mem', b.store (some s) mem = (mem', { b with top := b.top + s.stored.length }, some b.top) ∧
      Holds mem' b.top s.stored ∧ SameOutside b.top (b.top + s.stored.length) mem mem' := by
  obtain ⟨mem', hcopy, hholds, hsame⟩ := copy_fits s.stored mem b.top b.end_ h
  exact ⟨mem', by rw [store, hcopy], hholds, hsame⟩

lemma store_overflows (s : CString) (mem : Memory) (hle : b.top ≤ b.end_)
    (h : b.end_ < b.top + s.stored.length) :
    ∃ mem', b.store (some s) mem = (mem', b, none) ∧ SameOutside b.top b.end_ mem mem' := by
  obtain ⟨mem', hcopy, hsame⟩ := copy_overflows s.stored mem b.top b.end_ hle h
  exact ⟨mem', by rw [store, hcopy], hsame⟩

lemma push_fits (s : CString) (mem : Memory) (h : b.top + s.bytes.length ≤ b.end_) :
    ∃ mem', b.push (some s) mem = (mem', { b with top := b.top + s.bytes.length }, true) ∧
      Holds mem' b.top s.bytes ∧ SameOutside b.top (b.top + s.bytes.length) mem mem' := by
  obtain ⟨mem', hcopy, hholds, hsame⟩ := copy_fits s.bytes mem b.top b.end_ h
  exact ⟨mem', by rw [push, hcopy], hholds, hsame⟩

lemma push_overflows (s : CString) (mem : Memory) (hle : b.top ≤ b.end_)
    (h : b.end_ < b.top + s.bytes.length) :
    ∃ mem', b.push (some s) mem = (mem', b, false) ∧ SameOutside b.top b.end_ mem mem' := by
  obtain ⟨mem', hcopy, hsame⟩ := copy_overflows s.bytes mem b.top b.end_ hle h
  exact ⟨mem', by rw [push, hcopy], hsame⟩

end Buffer

end Catter.Hook
