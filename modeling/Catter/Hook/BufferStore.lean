import Catter.Hook.Buffer

/-! The buffer under any sequence of calls: what has been stored stays readable, and
nothing outside the buffer is written. -/

namespace Catter.Hook

open Text Library.Region

-- `array::copy` with its input in the same memory, read octet by octet.
def copyFrom : ℕ → Memory → ℕ → ℕ → ℕ → Memory × Option ℕ
  | 0, mem, _, dst, _ => (mem, some dst)
  | n + 1, mem, src, dst, dstEnd =>
    if dst = dstEnd then (mem, none)
    else copyFrom n (Function.update mem dst (mem src)) (src + 1) (dst + 1) dstEnd

lemma copyFrom_eq_copy {text : Str} {mem : Memory} {src dst dstEnd : ℕ} (hle : dst ≤ dstEnd)
    (hheld : Holds mem src text) (hout : src + text.length ≤ dst ∨ dstEnd ≤ src) :
    copyFrom text.length mem src dst dstEnd = copy text mem dst dstEnd := by
  induction text generalizing mem src dst with
  | nil => rfl
  | cons c text ih =>
    obtain ⟨hc, hrest⟩ := holds_cons.mp hheld
    rw [List.length_cons] at hout
    rw [List.length_cons, copyFrom, copy, hc]
    by_cases hend : dst = dstEnd
    · rw [if_pos hend, if_pos hend]
    · rw [if_neg hend, if_neg hend]
      apply ih
      · omega
      · apply hrest.frame (sameOutside_update mem c le_rfl (Nat.lt_succ_self dst))
        omega
      · omega

namespace Buffer

inductive Call
  | store (input : Option CString)
  | push (input : Option CString)

def Call.octets : Call → Option Str
  | .store input => input.map CString.stored
  | .push input => input.map CString.bytes

def Call.perform (mem : Memory) (b : Buffer) : Call → Bool × Memory × Buffer
  | .store input =>
    let (mem, b, address) := b.store input mem
    (address.isSome, mem, b)
  | .push input =>
    let (mem, b, pushed) := b.push input mem
    (pushed, mem, b)

def performAll (mem : Memory) (b : Buffer) : List Call → Memory × Buffer
  | [] => (mem, b)
  | call :: calls =>
    let (_, mem, b) := call.perform mem b
    performAll mem b calls

structure Keeps (start size : ℕ) (mem : Memory) (calls : List Call) : Prop where
  in_range : SameOutside start (start + size) mem (performAll mem ⟨start, start + size⟩ calls).1
  succeeds : ∀ mem' b (call : Call), performAll mem ⟨start, start + size⟩ calls = (mem', b) →
    ((call.perform mem' b).1 = true ↔ ∃ octets ∈ call.octets, octets.length ≤ start + size - b.top)
  failed : ∀ mem' b (call : Call), performAll mem ⟨start, start + size⟩ calls = (mem', b) →
    (call.perform mem' b).1 = false → (call.perform mem' b).2.2 = b
  readable : ∀ mem' b s address later, performAll mem ⟨start, start + size⟩ calls = (mem', b) →
    (b.store (some s) mem').2.2 = some address →
    Holds (performAll mem' b (.store (some s) :: later)).1 address s.stored
  -- A pointer to a text in the same memory, such as one stored earlier, gives what the text gives.
  in_memory : ∀ mem' b (s : CString) src, performAll mem ⟨start, start + size⟩ calls = (mem', b) →
    Holds mem' src s.stored → src + s.stored.length ≤ b.top ∨ b.end_ ≤ src →
    copyFrom s.stored.length mem' src b.top b.end_ = copy s.stored mem' b.top b.end_ ∧
      copyFrom s.bytes.length mem' src b.top b.end_ = copy s.bytes mem' b.top b.end_

section Step

variable {b : Buffer} (mem : Memory) (hle : b.top ≤ b.end_) (call : Call)

include hle

lemma perform_cases :
    (∃ octets mem', octets ∈ call.octets ∧ b.top + octets.length ≤ b.end_ ∧
      call.perform mem b = (true, mem', { b with top := b.top + octets.length }) ∧
      Holds mem' b.top octets ∧ SameOutside b.top (b.top + octets.length) mem mem') ∨
    ∃ mem', (∀ octets ∈ call.octets, b.end_ < b.top + octets.length) ∧
      call.perform mem b = (false, mem', b) ∧ SameOutside b.top b.end_ mem mem' := by
  cases call with
  | store input =>
    cases input with
    | none => exact Or.inr ⟨mem, by simp [Call.octets], rfl, SameOutside.refl _ _ _⟩
    | some s =>
      by_cases hfits : b.top + s.stored.length ≤ b.end_
      · obtain ⟨mem', hstore, hholds, hsame⟩ := store_fits s mem hfits
        exact Or.inl ⟨s.stored, mem', rfl, hfits, by rw [Call.perform, hstore]; rfl, hholds, hsame⟩
      · obtain ⟨mem', hstore, hsame⟩ := store_overflows s mem hle (by omega)
        refine Or.inr ⟨mem', ?_, by rw [Call.perform, hstore]; rfl, hsame⟩
        intro octets hoctets
        obtain rfl := Option.some.inj hoctets
        omega
  | push input =>
    cases input with
    | none => exact Or.inr ⟨mem, by simp [Call.octets], rfl, SameOutside.refl _ _ _⟩
    | some s =>
      by_cases hfits : b.top + s.bytes.length ≤ b.end_
      · obtain ⟨mem', hpush, hholds, hsame⟩ := push_fits s mem hfits
        exact Or.inl ⟨s.bytes, mem', rfl, hfits, by rw [Call.perform, hpush], hholds, hsame⟩
      · obtain ⟨mem', hpush, hsame⟩ := push_overflows s mem hle (by omega)
        refine Or.inr ⟨mem', ?_, by rw [Call.perform, hpush], hsame⟩
        intro octets hoctets
        obtain rfl := Option.some.inj hoctets
        omega

lemma succeeds_iff :
    (call.perform mem b).1 = true ↔ ∃ octets ∈ call.octets, octets.length ≤ b.end_ - b.top := by
  obtain ⟨octets, mem', hoctets, hfits, hrun, -, -⟩ | ⟨mem', hfits, hrun, -⟩ :=
    perform_cases mem hle call
  · rw [hrun]
    exact iff_of_true rfl ⟨octets, hoctets, by omega⟩
  · rw [hrun]
    apply iff_of_false
    · simp
    · rintro ⟨octets, hoctets, hroom⟩
      have hover := hfits octets hoctets
      omega

lemma failed_unchanged (hfailed : (call.perform mem b).1 = false) :
    (call.perform mem b).2.2 = b := by
  obtain ⟨octets, mem', -, -, hrun, -, -⟩ | ⟨mem', -, hrun, -⟩ := perform_cases mem hle call
  · rw [hrun] at hfailed
    cases hfailed
  · rw [hrun]

lemma perform_frame :
    (call.perform mem b).2.2.end_ = b.end_ ∧ b.top ≤ (call.perform mem b).2.2.top ∧
      (call.perform mem b).2.2.top ≤ b.end_ ∧
        SameOutside b.top b.end_ mem (call.perform mem b).2.1 := by
  obtain ⟨octets, mem', -, hfits, hrun, -, hsame⟩ | ⟨mem', -, hrun, hsame⟩ :=
    perform_cases mem hle call
  · rw [hrun]
    exact ⟨rfl, Nat.le_add_right _ _, hfits, hsame.mono le_rfl hfits⟩
  · rw [hrun]
    exact ⟨rfl, le_rfl, hle, hsame⟩

end Step

lemma performAll_frame {b : Buffer} (mem : Memory) (hle : b.top ≤ b.end_) (calls : List Call) :
    (performAll mem b calls).2.end_ = b.end_ ∧ b.top ≤ (performAll mem b calls).2.top ∧
      (performAll mem b calls).2.top ≤ b.end_ ∧
        SameOutside b.top b.end_ mem (performAll mem b calls).1 := by
  induction calls generalizing mem b with
  | nil => exact ⟨rfl, le_rfl, hle, SameOutside.refl _ _ _⟩
  | cons call calls ih =>
    obtain ⟨hend, hrise, htop, hsame⟩ := perform_frame mem hle call
    obtain ⟨hend', hrise', htop', hsame'⟩ := ih (call.perform mem b).2.1 (hend ▸ htop)
    rw [hend] at hend' htop' hsame'
    exact ⟨hend', hrise.trans hrise', htop', hsame.trans (hsame'.mono hrise le_rfl)⟩

lemma store_readable {b : Buffer} {mem : Memory} {s : CString} {address : ℕ} (hle : b.top ≤ b.end_)
    (h : (b.store (some s) mem).2.2 = some address) (later : List Call) :
    Holds (performAll mem b (.store (some s) :: later)).1 address s.stored := by
  by_cases hfits : b.top + s.stored.length ≤ b.end_
  · obtain ⟨mem', hstore, hholds, -⟩ := store_fits s mem hfits
    have hperform : Call.perform mem b (.store (some s)) =
        (true, mem', { b with top := b.top + s.stored.length }) := by
      rw [Call.perform, hstore]
      rfl
    rw [hstore] at h
    obtain rfl := Option.some.inj h
    obtain ⟨-, -, -, hsame⟩ :=
      performAll_frame (b := { b with top := b.top + s.stored.length }) mem' hfits later
    rw [performAll, hperform]
    exact hholds.frame hsame (Or.inl le_rfl)
  · obtain ⟨mem', hstore, -⟩ := store_overflows s mem hle (by omega)
    rw [hstore] at h
    cases h

theorem buffer_keeps (start size : ℕ) (mem : Memory) (calls : List Call) :
    Keeps start size mem calls := by
  have hframe := performAll_frame (b := ⟨start, start + size⟩) mem
    (Nat.le_add_right start size) calls
  have hreached : ∀ mem' b, performAll mem ⟨start, start + size⟩ calls = (mem', b) →
      b.end_ = start + size ∧ b.top ≤ b.end_ := by
    intro mem' b hrun
    rw [hrun] at hframe
    obtain ⟨hend, -, htop, -⟩ := hframe
    exact ⟨hend, hend.symm ▸ htop⟩
  constructor
  · exact hframe.2.2.2
  · intro mem' b call hrun
    obtain ⟨hend, hle⟩ := hreached mem' b hrun
    rw [← hend]
    exact succeeds_iff mem' hle call
  · intro mem' b call hrun
    exact failed_unchanged mem' (hreached mem' b hrun).2 call
  · intro mem' b s address later hrun
    exact fun h => store_readable (hreached mem' b hrun).2 h later
  · intro mem' b s src hrun hheld hout
    obtain ⟨-, hle⟩ := hreached mem' b hrun
    refine ⟨copyFrom_eq_copy hle hheld hout, copyFrom_eq_copy hle (holds_append.mp hheld).1 ?_⟩
    rw [CString.stored, List.length_append] at hout
    exact hout.imp_left fun h => le_trans (by omega) h

end Buffer

end Catter.Hook
