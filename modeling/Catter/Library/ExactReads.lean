import Mathlib.Tactic

/-! Decoders as programs that ask their reader for exactly `n` octets at a time,
the codecs they invert, and the reads of length zero that they make. -/

namespace Catter.Library.ExactReads

inductive Decoder (α : Type) : Type
  | done (a : α)
  | read (n : ℕ) (next : List UInt8 → Decoder α)

variable {α β : Type}

def Decoder.bind : Decoder α → (α → Decoder β) → Decoder β
  | .done a, f => f a
  | .read n next, f => .read n fun bs => (next bs).bind f

instance : Monad Decoder where
  pure := .done
  bind := Decoder.bind

@[simp] lemma pure_eq (a : α) : (pure a : Decoder α) = .done a := rfl

@[simp] lemma bind_eq (d : Decoder α) (f : α → Decoder β) : d >>= f = d.bind f := rfl

@[simp] lemma done_bind (a : α) (f : α → Decoder β) : (Decoder.done a).bind f = f a := rfl

@[simp] lemma read_bind (n : ℕ) (next : List UInt8 → Decoder α) (f : α → Decoder β) :
    (Decoder.read n next).bind f = .read n fun bs => (next bs).bind f := rfl

def Decoder.replicate (d : Decoder α) : ℕ → Decoder (List α)
  | 0 => pure []
  | n + 1 => do
    let a ← d
    let as ← d.replicate n
    pure (a :: as)

def Decoder.runBuffer : Decoder α → List UInt8 → Option (α × List UInt8)
  | .done a, bs => some (a, bs)
  | .read n next, bs =>
    if n ≤ bs.length then (next (bs.take n)).runBuffer (bs.drop n) else none

def Decoder.ReadsNothing : Decoder α → List UInt8 → Prop
  | .done _, _ => False
  | .read n next, bs => n = 0 ∨ n ≤ bs.length ∧ (next (bs.take n)).ReadsNothing (bs.drop n)

@[simp] lemma runBuffer_done (a : α) (bs : List UInt8) :
    (Decoder.done a).runBuffer bs = some (a, bs) := rfl

lemma runBuffer_bind (d : Decoder α) (f : α → Decoder β) (bs : List UInt8) :
    (d.bind f).runBuffer bs = (d.runBuffer bs).bind fun p => (f p.1).runBuffer p.2 := by
  induction d generalizing bs with
  | done a => rfl
  | read n next ih =>
    by_cases hn : n ≤ bs.length
    · simp [Decoder.bind, Decoder.runBuffer, hn, ih]
    · simp [Decoder.bind, Decoder.runBuffer, hn]

lemma runBuffer_read (n : ℕ) (next : List UInt8 → Decoder α) (xs rest : List UInt8)
    (h : xs.length = n) :
    (Decoder.read n next).runBuffer (xs ++ rest) = (next xs).runBuffer rest := by
  subst h
  simp [Decoder.runBuffer]

lemma readsNothing_bind (d : Decoder α) (f : α → Decoder β) (bs : List UInt8) :
    (d.bind f).ReadsNothing bs ↔
      d.ReadsNothing bs ∨ ∃ a rest, d.runBuffer bs = some (a, rest) ∧ (f a).ReadsNothing rest := by
  induction d generalizing bs with
  | done a => simp [Decoder.bind, Decoder.runBuffer, Decoder.ReadsNothing]
  | read n next ih =>
    by_cases hn : n ≤ bs.length
    · simp only [Decoder.bind, Decoder.ReadsNothing, Decoder.runBuffer, hn, ih, true_and, if_true]
      tauto
    · simp [Decoder.bind, Decoder.ReadsNothing, Decoder.runBuffer, hn]

/-- `d` inverts `encode` on `domain` whatever follows, and accepts encodings only. -/
structure Lawful (domain : α → Prop) (encode : α → List UInt8) (d : Decoder α) : Prop where
  decode_encode : ∀ a rest, domain a → d.runBuffer (encode a ++ rest) = some (a, rest)
  encode_decode : ∀ bs a rest, d.runBuffer bs = some (a, rest) → domain a ∧ bs = encode a ++ rest

namespace Lawful

variable {P Q : α → Prop} {encode : α → List UInt8} {d : Decoder α}

lemma congr {encode' : α → List UInt8} (h : Lawful P encode d) (hp : ∀ a, P a ↔ Q a)
    (he : ∀ a, P a → encode a = encode' a) : Lawful Q encode' d where
  decode_encode a rest ha := by
    have hpa := (hp a).mpr ha
    rw [← he a hpa]
    exact h.decode_encode a rest hpa
  encode_decode bs a rest ha := by
    obtain ⟨hd, hbs⟩ := h.encode_decode bs a rest ha
    exact ⟨(hp a).mp hd, by rw [hbs, he a hd]⟩

lemma done (a : α) : Lawful (fun b => b = a) (fun _ => []) (.done a) where
  decode_encode b rest hb := by simp [hb]
  encode_decode bs b rest hb := by
    obtain ⟨rfl, rfl⟩ : a = b ∧ bs = rest := by simpa using hb
    simp

lemma bind {S : α → β → Prop} {encodeRest : β → List UInt8} {f : α → Decoder β} (proj : β → α)
    (h : Lawful P encode d) (hf : ∀ a, P a → Lawful (S a) encodeRest (f a))
    (hproj : ∀ a b, S a b → proj b = a) :
    Lawful (fun b => P (proj b) ∧ S (proj b) b)
      (fun b => encode (proj b) ++ encodeRest b) (d.bind f) where
  decode_encode b rest hb := by
    have hd := h.decode_encode (proj b) (encodeRest b ++ rest) hb.1
    have hr := (hf _ hb.1).decode_encode b rest hb.2
    simpa [runBuffer_bind, hd] using hr
  encode_decode bs b rest hb := by
    rw [runBuffer_bind, Option.bind_eq_some_iff] at hb
    obtain ⟨⟨a, mid⟩, hd, hr⟩ := hb
    obtain ⟨ha, rfl⟩ := h.encode_decode bs a mid hd
    obtain ⟨hs, rfl⟩ := (hf a ha).encode_decode mid b rest hr
    obtain rfl := hproj a b hs
    exact ⟨⟨ha, hs⟩, by simp⟩

lemma word {decode : List UInt8 → α} (width : ℕ) (hlen : ∀ a, (encode a).length = width)
    (hde : ∀ a, P a → decode (encode a) = a)
    (hed : ∀ bs, bs.length = width → P (decode bs) ∧ encode (decode bs) = bs) :
    Lawful P encode (.read width fun bs => .done (decode bs)) where
  decode_encode a rest ha := by rw [runBuffer_read _ _ _ _ (hlen a), hde a ha, runBuffer_done]
  encode_decode bs a rest ha := by
    by_cases hn : width ≤ bs.length
    · obtain ⟨rfl, rfl⟩ : decode (bs.take width) = a ∧ bs.drop width = rest := by
        simpa [Decoder.runBuffer, hn] using ha
      obtain ⟨hp, he⟩ := hed (bs.take width) (by simpa using hn)
      exact ⟨hp, by rw [he, List.take_append_drop]⟩
    · simp [Decoder.runBuffer, hn] at ha

lemma raw (n : ℕ) : Lawful (fun bs => bs.length = n) id (.read n .done) where
  decode_encode bs rest hb := by rw [id, runBuffer_read _ _ _ _ hb, runBuffer_done]
  encode_decode bs xs rest hx := by
    by_cases hn : n ≤ bs.length
    · obtain ⟨rfl, rfl⟩ : bs.take n = xs ∧ bs.drop n = rest := by
        simpa [Decoder.runBuffer, hn] using hx
      simpa using hn
    · simp [Decoder.runBuffer, hn] at hx

lemma replicate (h : Lawful P encode d) (n : ℕ) :
    Lawful (fun as => as.length = n ∧ ∀ a ∈ as, P a)
      (fun as => as.flatMap encode) (d.replicate n) := by
  induction n with
  | zero =>
    refine (done ([] : List α)).congr (fun as => ⟨?_, ?_⟩) (by simp)
    · rintro rfl
      simp
    · exact fun h => List.eq_nil_of_length_eq_zero h.1
  | succ n ih =>
    refine ⟨fun as rest has => ?_, fun bs as rest has => ?_⟩
    · obtain ⟨a, as, rfl⟩ := List.exists_cons_of_length_eq_add_one has.1
      have ha := h.decode_encode a (as.flatMap encode ++ rest) (has.2 a (by simp))
      have hr := ih.decode_encode as rest ⟨by simpa using has.1, fun b hb => has.2 b (by simp [hb])⟩
      simp [Decoder.replicate, runBuffer_bind, ha, hr]
    · simp only [Decoder.replicate, bind_eq, pure_eq, runBuffer_bind, Option.bind_eq_some_iff,
        runBuffer_done, Option.some.injEq, Prod.mk.injEq] at has
      obtain ⟨⟨a, mid⟩, ha, ⟨as', last⟩, hr, rfl, rfl⟩ := has
      obtain ⟨hpa, rfl⟩ := h.encode_decode bs a mid ha
      obtain ⟨⟨hlen, hall⟩, rfl⟩ := ih.encode_decode mid as' last hr
      exact ⟨⟨by simp [hlen], by simpa using ⟨hpa, hall⟩⟩, by simp⟩

lemma map {f : α → β} {encode' : β → List UInt8} (h : Lawful P encode d)
    (he : ∀ a, encode' (f a) = encode a) :
    Lawful (fun b => ∃ a, P a ∧ f a = b) encode' (d.bind fun a => .done (f a)) where
  decode_encode b rest hb := by
    obtain ⟨a, ha, rfl⟩ := hb
    simp [runBuffer_bind, he, h.decode_encode a rest ha]
  encode_decode bs b rest hb := by
    simp only [runBuffer_bind, Option.bind_eq_some_iff, runBuffer_done, Option.some.injEq,
      Prod.mk.injEq] at hb
    obtain ⟨⟨a, last⟩, hd, rfl, rfl⟩ := hb
    obtain ⟨ha, rfl⟩ := h.encode_decode bs a last hd
    exact ⟨⟨a, ha, rfl⟩, by rw [he]⟩

lemma no_strict_prefix (h : Lawful P encode d) {a : α} (ha : P a) {xs ys : List UInt8}
    (hsplit : xs ++ ys = encode a) (hne : ys ≠ []) : d.runBuffer xs = none := by
  by_contra hsome
  obtain ⟨⟨b, rest⟩, hb⟩ := Option.ne_none_iff_exists'.mp hsome
  obtain ⟨hpb, hxs⟩ := h.encode_decode xs b rest hb
  have hdb := h.decode_encode b (rest ++ ys) hpb
  have hda := h.decode_encode a [] ha
  rw [List.append_nil, ← hsplit, hxs, List.append_assoc, hdb] at hda
  simp [hne] at hda

lemma flatMap_injective (h : Lawful P encode d) (hne : ∀ a, encode a ≠ []) (as bs : List α)
    (ha : ∀ a ∈ as, P a) (hb : ∀ b ∈ bs, P b) (heq : as.flatMap encode = bs.flatMap encode) :
    as = bs := by
  induction as generalizing bs with
  | nil =>
    cases bs with
    | nil => rfl
    | cons b bs => simp [hne] at heq
  | cons a as ih =>
    cases bs with
    | nil => simp [hne] at heq
    | cons b bs =>
      have hda := h.decode_encode a (as.flatMap encode) (ha a (by simp))
      have hdb := h.decode_encode b (bs.flatMap encode) (hb b (by simp))
      rw [List.flatMap_cons, List.flatMap_cons] at heq
      rw [heq, hdb] at hda
      obtain ⟨rfl, hrest⟩ : b = a ∧ bs.flatMap encode = as.flatMap encode := by simpa using hda
      rw [ih bs (fun c hc => ha c (by simp [hc])) (fun c hc => hb c (by simp [hc])) hrest.symm]

lemma readsNothing_bind (h : Lawful P encode d) (f : α → Decoder β) {a : α} (ha : P a)
    (rest : List UInt8) :
    (d.bind f).ReadsNothing (encode a ++ rest) ↔
      d.ReadsNothing (encode a ++ rest) ∨ (f a).ReadsNothing rest := by
  simp [ExactReads.readsNothing_bind, h.decode_encode a rest ha]

lemma readsNothing_replicate (h : Lawful P encode d) {E : α → Prop}
    (he : ∀ a rest, P a → (d.ReadsNothing (encode a ++ rest) ↔ E a)) (as : List α)
    (has : ∀ a ∈ as, P a) (rest : List UInt8) :
    (d.replicate as.length).ReadsNothing (as.flatMap encode ++ rest) ↔ ∃ a ∈ as, E a := by
  induction as with
  | nil => simp [Decoder.replicate, Decoder.ReadsNothing]
  | cons a as ih =>
    have ha := has a (by simp)
    have hall : ∀ b ∈ as, P b := fun b hb => has b (by simp [hb])
    have hr := (h.replicate as.length).decode_encode as rest ⟨rfl, hall⟩
    simp only [List.length_cons, Decoder.replicate, List.flatMap_cons, List.append_assoc,
      bind_eq, pure_eq]
    rw [h.readsNothing_bind _ ha, he a _ ha, ExactReads.readsNothing_bind, ih hall, hr]
    simp [Decoder.ReadsNothing]

end Lawful

/-! A reader that serves a decoder from a state which holds the octets still to come. -/

section Readers

variable {σ ε : Type} (read : ℕ → σ → Except ε (List UInt8 × σ))

def Decoder.runReader : Decoder α → σ → Except ε (α × σ)
  | .done a, s => .ok (a, s)
  | .read n next, s =>
    match read n s with
    | .ok (bs, s') => (next bs).runReader s'
    | .error e => .error e

/-- `read` hands out as many octets as it is asked for, and fails on a read of length zero. They are
the next of those to come if it took so many, which it does unless something comes between: nothing
does in the first `k` octets of a state that is `quiet k`. -/
structure Hands (ready : σ → Prop) (octets : σ → List UInt8) (quiet : ℕ → σ → Prop) : Prop where
  taken : ∀ n s bs s', ready s → read n s = .ok (bs, s') →
    0 < n ∧ bs.length = n ∧ ready s' ∧ ∃ got, octets s = got ++ octets s' ∧ got.length ≤ n ∧
      (got.length = n → bs = got ∧ ∀ k, quiet k s' → quiet (n + k) s)
  serves : ∀ n k s, ready s → 0 < n → n ≤ (octets s).length → quiet (n + k) s →
    ∃ s', read n s = .ok ((octets s).take n, s') ∧ ready s' ∧ octets s' = (octets s).drop n ∧
      quiet k s'
  zero : ∀ s, quiet 0 s

namespace Hands

variable {read} {ready : σ → Prop} {octets : σ → List UInt8} {quiet : ℕ → σ → Prop}

lemma handed (h : Hands read ready octets quiet) {d : Decoder α} {a : α} {s s' : σ} (hs : ready s)
    (hrun : d.runReader read s = .ok (a, s')) :
    ∃ bs, d.runBuffer bs = some (a, []) ∧ ¬ d.ReadsNothing bs ∧
      (octets s).length ≤ bs.length + (octets s').length ∧
      ((octets s).length = bs.length + (octets s').length → octets s = bs ++ octets s' ∧
        quiet bs.length s) := by
  induction d generalizing s with
  | done b =>
    cases hrun
    exact ⟨[], rfl, fun hnothing => hnothing, by simp, fun _ => ⟨rfl, h.zero _⟩⟩
  | read n next ih =>
    rw [Decoder.runReader] at hrun
    cases hread : read n s with
    | error e =>
      rw [hread] at hrun
      cases hrun
    | ok p =>
      obtain ⟨bs, s₁⟩ := p
      rw [hread] at hrun
      obtain ⟨hpos, hlen, hs₁, got, hgot, hle, hfull⟩ := h.taken n _ bs s₁ hs hread
      obtain ⟨cs, hbuffer, hreads, hshort, hexact⟩ := ih bs hs₁ hrun
      have hcount := congrArg List.length hgot
      rw [List.length_append] at hcount
      refine ⟨bs ++ cs, ?_, ?_, ?_, ?_⟩
      · rwa [runBuffer_read n next bs cs hlen]
      · rintro (hzero | ⟨-, hnothing⟩)
        · omega
        · rw [← hlen, List.take_left, List.drop_left] at hnothing
          exact hreads hnothing
      · rw [List.length_append]
        omega
      · intro hall
        rw [List.length_append] at hall
        obtain ⟨rfl, hquiet⟩ := hfull (by omega)
        obtain ⟨hrest, hquiet'⟩ := hexact (by omega)
        rw [List.length_append, hlen]
        exact ⟨by rw [hgot, hrest, List.append_assoc], hquiet _ hquiet'⟩

lemma run (h : Hands read ready octets quiet) {d : Decoder α} {s : σ} (hs : ready s) {a : α}
    {bs rest : List UInt8}
    (hbuffer : d.runBuffer bs = some (a, [])) (hreads : ¬ d.ReadsNothing bs)
    (hoctets : octets s = bs ++ rest)
    (hquiet : quiet bs.length s) : ∃ s', d.runReader read s = .ok (a, s') ∧ octets s' = rest := by
  induction d generalizing s bs with
  | done b =>
    simp only [runBuffer_done, Option.some.injEq, Prod.mk.injEq] at hbuffer
    obtain ⟨rfl, rfl⟩ := hbuffer
    exact ⟨s, rfl, hoctets⟩
  | read n next ih =>
    by_cases hn : n ≤ bs.length
    · rw [Decoder.runBuffer, if_pos hn] at hbuffer
      simp only [Decoder.ReadsNothing, hn, true_and, not_or] at hreads
      have hsplit : bs.length = n + (bs.drop n).length := by
        rw [List.length_drop]
        omega
      have hlen : n ≤ (octets s).length := by
        rw [hoctets, List.length_append]
        omega
      obtain ⟨s₁, hread, hs₁, hleft, hquiet₁⟩ := h.serves n _ _ hs (by omega) hlen (hsplit ▸ hquiet)
      rw [hoctets, List.take_append_of_le_length hn] at hread
      rw [hoctets, List.drop_append_of_le_length hn] at hleft
      obtain ⟨s', hrun, hrest⟩ := ih _ hs₁ hbuffer hreads.2 hleft hquiet₁
      exact ⟨s', by rw [Decoder.runReader, hread]; exact hrun, hrest⟩
    · simp [Decoder.runBuffer, hn] at hbuffer

/-- From a reader that can be disturbed a value and the rest come as from one buffer just where no
read has the length zero and nothing comes before the encoding is through. -/
lemma runReader_ok_iff (h : Hands read ready octets quiet) {P : α → Prop} {encode : α → List UInt8}
    {d : Decoder α}
    (hd : Lawful P encode d) {s : σ} (hs : ready s) {a : α} (ha : P a) {rest : List UInt8}
    (hoctets : octets s = encode a ++ rest) :
    (∃ s', d.runReader read s = .ok (a, s') ∧ octets s' = rest) ↔
      ¬ d.ReadsNothing (encode a) ∧ quiet (encode a).length s := by
  constructor
  · rintro ⟨s', hrun, hrest⟩
    obtain ⟨bs, hbuffer, hreads, -, hexact⟩ := h.handed hs hrun
    obtain ⟨-, hencode⟩ := hd.encode_decode bs a [] hbuffer
    rw [List.append_nil] at hencode
    rw [hencode] at hreads hexact
    have hall : (octets s).length = (encode a).length + (octets s').length := by
      rw [hoctets, hrest, List.length_append]
    exact ⟨hreads, (hexact hall).2⟩
  · rintro ⟨hreads, hquiet⟩
    have hbuffer := hd.decode_encode a [] ha
    rw [List.append_nil] at hbuffer
    exact h.run hs hbuffer hreads hoctets hquiet

end Hands

end Readers

end Catter.Library.ExactReads
