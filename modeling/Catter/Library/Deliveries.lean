import Catter.Library.ExactReads

/-! Decoders whose octets come in pieces: what a decoder still needs, before and
after a part of it has come. -/

namespace Catter.Library.ExactReads

variable {α β : Type}

lemma runBuffer_append {d : Decoder α} {bs rest : List UInt8} {a : α}
    (h : d.runBuffer bs = some (a, rest))
    (cs : List UInt8) : d.runBuffer (bs ++ cs) = some (a, rest ++ cs) := by
  induction d generalizing bs with
  | done b =>
    simp only [runBuffer_done, Option.some.injEq, Prod.mk.injEq] at h
    obtain ⟨rfl, rfl⟩ := h
    rfl
  | read n next ih =>
    by_cases hn : n ≤ bs.length
    · have hlen : n ≤ (bs ++ cs).length := by
        rw [List.length_append]
        omega
      rw [Decoder.runBuffer, if_pos hn] at h
      rw [Decoder.runBuffer, if_pos hlen, List.take_append_of_le_length hn,
        List.drop_append_of_le_length hn]
      exact ih _ h
    · simp [Decoder.runBuffer, hn] at h

lemma readsNothing_append {d : Decoder α} {bs rest : List UInt8} {a : α}
    (h : d.runBuffer bs = some (a, rest))
    (cs : List UInt8) : d.ReadsNothing (bs ++ cs) ↔ d.ReadsNothing bs := by
  induction d generalizing bs with
  | done b => exact Iff.rfl
  | read n next ih =>
    by_cases hn : n ≤ bs.length
    · have hlen : n ≤ (bs ++ cs).length := by
        rw [List.length_append]
        omega
      rw [Decoder.runBuffer, if_pos hn] at h
      simp only [Decoder.ReadsNothing, hn, hlen, true_and, List.take_append_of_le_length hn,
        List.drop_append_of_le_length hn, ih _ h]
    · simp [Decoder.runBuffer, hn] at h

/-- `bs` is what `d` needs to come to `a`: not an octet more, and no read of length zero. -/
structure Expects (d : Decoder α) (bs : List UInt8) (a : α) : Prop where
  run : d.runBuffer bs = some (a, [])
  reads : ¬ d.ReadsNothing bs

lemma expects_done_iff {a b : α} {bs : List UInt8} : Expects (.done b) bs a ↔ b = a ∧ bs = [] := by
  constructor
  · intro h
    simpa using h.run
  · rintro ⟨rfl, rfl⟩
    exact ⟨rfl, fun h => h⟩

lemma Lawful.expects {P : α → Prop} {encode : α → List UInt8} {d : Decoder α}
    (h : Lawful P encode d) {a : α}
    (ha : P a) (hreads : ¬ d.ReadsNothing (encode a)) : Expects d (encode a) a := by
  refine ⟨?_, hreads⟩
  have hd := h.decode_encode a [] ha
  rwa [List.append_nil] at hd

namespace Expects

variable {d : Decoder α} {bs xs ys : List UInt8} {a : α}

lemma bind {f : α → Decoder β} {cs : List UInt8} {b : β} (h : Expects d bs a)
    (hf : Expects (f a) cs b) :
    Expects (d.bind f) (bs ++ cs) b := by
  have hrun := runBuffer_append h.run cs
  rw [List.nil_append] at hrun
  refine ⟨?_, ?_⟩
  · rw [runBuffer_bind, hrun]
    exact hf.run
  · rw [readsNothing_bind, readsNothing_append h.run]
    rintro (hd | ⟨a', rest, hrun', hreads⟩)
    · exact h.reads hd
    · rw [hrun, Option.some.injEq, Prod.mk.injEq] at hrun'
      obtain ⟨rfl, rfl⟩ := hrun'
      exact hf.reads hreads

variable {n : ℕ} {next : List UInt8 → Decoder α}

lemma read_pos (h : Expects (.read n next) bs a) : 0 < n := by
  rcases Nat.eq_zero_or_pos n with rfl | hn
  · exact absurd (Or.inl rfl) h.reads
  · exact hn

lemma read_le (h : Expects (.read n next) bs a) : n ≤ bs.length := by
  by_contra hn
  have hrun := h.run
  simp [Decoder.runBuffer, hn] at hrun

lemma complete (h : Expects (.read n next) (xs ++ ys) a) (hlen : xs.length = n) :
    Expects (next xs) ys a := by
  refine ⟨?_, fun hreads => h.reads (Or.inr ⟨?_, ?_⟩)⟩
  · rw [← runBuffer_read n next xs ys hlen]
    exact h.run
  · rw [List.length_append]
    omega
  · rwa [← hlen, List.take_left, List.drop_left]

lemma partly (h : Expects (.read n next) (xs ++ ys) a) (hlt : xs.length < n) :
    Expects (.read (n - xs.length) fun bs => next (xs ++ bs)) ys a := by
  have hle := h.read_le
  rw [List.length_append] at hle
  have hrest : n - xs.length ≤ ys.length := by omega
  have htake : (xs ++ ys).take n = xs ++ ys.take (n - xs.length) := by
    rw [List.take_append, List.take_of_length_le hlt.le]
  have hdrop : (xs ++ ys).drop n = ys.drop (n - xs.length) := by
    rw [List.drop_append, List.drop_eq_nil_of_le hlt.le, List.nil_append]
  have hboth : n ≤ (xs ++ ys).length := by
    rw [List.length_append]
    omega
  have hrun := h.run
  have hreads := h.reads
  rw [Decoder.runBuffer, if_pos hboth, htake, hdrop] at hrun
  simp only [Decoder.ReadsNothing, htake, hdrop, not_or, not_and] at hreads
  refine ⟨?_, ?_⟩
  · rwa [Decoder.runBuffer, if_pos hrest]
  · rintro (hzero | ⟨-, hnothing⟩)
    · omega
    · exact hreads.2 hboth hnothing

end Expects

end Catter.Library.ExactReads
