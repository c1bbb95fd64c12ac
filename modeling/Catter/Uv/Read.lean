import Catter.Library.ExactReads

/-! `uv::async::read`: a read awaiter fed by the callbacks of a libuv stream. -/

namespace Catter.Uv

open Library.ExactReads

inductive Event
  | data (chunk : List UInt8)
  | again
  | failed (nread : ℤ)
deriving DecidableEq

def enobufs : ℤ := -105

/-- What libuv hands to the read callback for one event when the alloc callback
offered `offered` octets: `nread`, the octets, and what stays in the pipe. -/
def callback (offered : ℕ) (ev : Event) : ℤ × List UInt8 × List Event :=
  if offered = 0 then (enobufs, [], [ev])
  else match ev with
    | .data chunk =>
      let octets := chunk.take offered
      (octets.length, octets, if chunk.length ≤ offered then [] else [.data (chunk.drop offered)])
    | .again => (0, [], [])
    | .failed nread => (nread, [], [])

-- `received` is what stands in the buffer before `dst`.
structure Read where
  received : List UInt8
  remaining : ℕ
  result : ℤ
deriving DecidableEq

namespace Read

def start (len : ℕ) : Read := ⟨[], len, 0⟩

def allocCb (r : Read) : ℕ := r.remaining

-- The second component tells whether the coroutine is resumed.
def readCb (r : Read) (nread : ℤ) (octets : List UInt8) : Read × Bool :=
  if 0 < nread then
    let next : Read := ⟨r.received ++ octets, r.remaining - nread.toNat, r.result + nread⟩
    (next, next.remaining == 0)
  else ({ r with result := nread }, true)

-- `none`: the events ran out and the coroutine is still suspended.
def await (r : Read) : List Event → Option (Read × List Event)
  | [] => none
  | ev :: events =>
    let (nread, octets, left) := callback r.allocCb ev
    let (next, resumed) := r.readCb nread octets
    -- a chunk that does not complete the read is used up
    if resumed then some (next, left ++ events) else next.await events

end Read

inductive Fault
  | suspended
  | threw (code : ℤ)
deriving DecidableEq

/-- The readers of `accept` and of `rpc_handler`: a negative result is thrown. What no callback has
filled is what was there before, `stale`, for which any octets may stand: a number that is read into
is not initialised. -/
def reader (stale : List Event → ℕ → UInt8) (len : ℕ) (events : List Event) :
    Except Fault (List UInt8 × List Event) :=
  match (Read.start len).await events with
  | none => .error .suspended
  | some (r, left) =>
    if r.result < 0 then .error (.threw r.result)
    else .ok (r.received ++ (List.range' r.received.length (len - r.received.length)).map
      (stale events), left)

def Event.octets : Event → List UInt8
  | .data chunk => chunk
  | .again | .failed _ => []

def octets (events : List Event) : List UInt8 := events.flatMap Event.octets

/-- What a pipe brings as long as nothing fails: octets, and wakeups without any. -/
def Event.Calm (ev : Event) : Prop := ev = .again ∨ ∃ chunk, ev = .data chunk ∧ chunk ≠ []

def Calm (events : List Event) : Prop := ∀ ev ∈ events, ev.Calm

def Undisturbed : ℕ → List Event → Prop
  | 0, _ => True
  | _ + 1, [] => True
  | n + 1, .data chunk :: events => Undisturbed (n + 1 - chunk.length) events
  | _ + 1, .again :: _ => False
  | _ + 1, .failed _ :: _ => False

lemma undisturbed_zero (events : List Event) : Undisturbed 0 events := by
  rw [Undisturbed]
  trivial

lemma undisturbed_data (n : ℕ) (chunk : List UInt8) (events : List Event) :
    Undisturbed n (.data chunk :: events) ↔ Undisturbed (n - chunk.length) events := by
  cases n with
  | zero => simp only [Nat.zero_sub, undisturbed_zero]
  | succ n => exact Iff.rfl

lemma readCb_data (r : Read) (chunk : List UInt8) (hne : chunk ≠ []) :
    r.readCb chunk.length chunk =
      (⟨r.received ++ chunk, r.remaining - chunk.length, r.result + chunk.length⟩,
        r.remaining - chunk.length == 0) := by
  have hpos : 0 < chunk.length := List.length_pos_iff.mpr hne
  simp [Read.readCb, hpos]

lemma await_step (r : Read) (chunk : List UInt8) (events : List Event) (hne : chunk ≠ [])
    (hr : 0 < r.remaining) :
    r.await (.data chunk :: events) =
      if r.remaining ≤ chunk.length then
        some (⟨r.received ++ chunk.take r.remaining, 0, r.result + r.remaining⟩,
          (if chunk.length ≤ r.remaining then [] else [.data (chunk.drop r.remaining)]) ++ events)
      else Read.await ⟨r.received ++ chunk, r.remaining - chunk.length, r.result + chunk.length⟩
        events := by
  have h0 : r.remaining ≠ 0 := by omega
  have htake : chunk.take r.remaining ≠ [] := by simp [h0, hne]
  rw [Read.await]
  simp only [callback, Read.allocCb, h0, if_false, readCb_data r _ htake]
  by_cases hle : r.remaining ≤ chunk.length
  · simp [hle, List.length_take]
    rfl
  · have hall : chunk.take r.remaining = chunk := List.take_of_length_le (by omega)
    have hwait : r.remaining - chunk.length ≠ 0 := by omega
    simp [hall, hle, hwait]

lemma await_again (r : Read) (events : List Event) (hr : 0 < r.remaining) :
    r.await (.again :: events) = some ({ r with result := 0 }, events) := by
  simp [Read.await, callback, Read.allocCb, hr.ne', Read.readCb]

lemma octets_left (chunk : List UInt8) (n : ℕ) (events : List Event) :
    octets ((if chunk.length ≤ n then [] else [.data (chunk.drop n)]) ++ events) =
      chunk.drop n ++ octets events := by
  split_ifs with hle
  · rw [List.drop_eq_nil_of_le hle]
    rfl
  · rfl

lemma calm_left {chunk : List UInt8} {events : List Event} (n : ℕ) (h : Calm events) :
    Calm ((if chunk.length ≤ n then [] else [.data (chunk.drop n)]) ++ events) := by
  intro ev hev
  split_ifs at hev with hle
  · exact h ev hev
  · rcases List.mem_cons.mp hev with rfl | hev
    · refine Or.inr ⟨_, rfl, List.ne_nil_of_length_pos ?_⟩
      rw [List.length_drop]
      omega
    · exact h ev hev

lemma undisturbed_left (chunk : List UInt8) (n k : ℕ) (events : List Event)
    (hle : n ≤ chunk.length) :
    Undisturbed k ((if chunk.length ≤ n then [] else [.data (chunk.drop n)]) ++ events) ↔
      Undisturbed (n + k) (.data chunk :: events) := by
  rw [undisturbed_data]
  split_ifs with hall
  · rw [show n + k - chunk.length = k by omega, List.nil_append]
  · rw [List.singleton_append, undisturbed_data, List.length_drop, show n + k - chunk.length =
      k - (chunk.length - n) by omega]

lemma await_taken {r r' : Read} {events left : List Event} (hc : Calm events) (hr : 0 < r.remaining)
    (h : r.await events = some (r', left)) :
    Calm left ∧ ∃ got, octets events = got ++ octets left ∧ r'.received = r.received ++ got ∧
      got.length ≤ r.remaining ∧
      (got.length = r.remaining → ∀ k, Undisturbed k left →
        Undisturbed (r.remaining + k) events) := by
  induction events generalizing r with
  | nil => cases h
  | cons ev events ih =>
    have hrest : Calm events := fun e he => hc e (List.mem_cons_of_mem _ he)
    rcases hc ev List.mem_cons_self with rfl | ⟨chunk, rfl, hne⟩
    · rw [await_again r events hr, Option.some.injEq, Prod.mk.injEq] at h
      obtain ⟨rfl, rfl⟩ := h
      refine ⟨hrest, [], rfl, (List.append_nil _).symm, Nat.zero_le _, ?_⟩
      intro hfull
      exact absurd hfull hr.ne
    · have ho : octets (.data chunk :: events) = chunk ++ octets events := rfl
      rw [await_step r chunk events hne hr] at h
      by_cases hle : r.remaining ≤ chunk.length
      · rw [if_pos hle, Option.some.injEq, Prod.mk.injEq] at h
        obtain ⟨rfl, rfl⟩ := h
        refine ⟨calm_left _ hrest, chunk.take r.remaining, ?_, rfl, ?_, ?_⟩
        · rw [ho, octets_left, ← List.append_assoc, List.take_append_drop]
        · exact List.length_take_le _ _
        · exact fun _ k hk => (undisturbed_left chunk _ k events hle).mp hk
      · rw [if_neg hle] at h
        obtain ⟨hcalm, got, hgot, hreceived, hlen, hquiet⟩ := ih hrest (by simp only; omega) h
        simp only at hreceived hlen hquiet
        refine ⟨hcalm, chunk ++ got, ?_, ?_, ?_, ?_⟩
        · rw [ho, hgot, List.append_assoc]
        · rw [hreceived, List.append_assoc]
        · rw [List.length_append]
          omega
        · intro hfull k hk
          rw [List.length_append] at hfull
          rw [undisturbed_data, show r.remaining + k - chunk.length =
            r.remaining - chunk.length + k by omega]
          exact hquiet (by omega) k hk

lemma await_undisturbed {r : Read} {events : List Event} {k : ℕ} (hc : Calm events)
    (hr : 0 < r.remaining)
    (hlen : r.remaining ≤ (octets events).length) (hq : Undisturbed (r.remaining + k) events) :
    ∃ left, r.await events =
      some (⟨r.received ++ (octets events).take r.remaining, 0, r.result + r.remaining⟩, left) ∧
      Calm left ∧ octets left = (octets events).drop r.remaining ∧ Undisturbed k left := by
  induction events generalizing r with
  | nil => exact absurd hlen (by simp [octets]; omega)
  | cons ev events ih =>
    have hrest : Calm events := fun e he => hc e (List.mem_cons_of_mem _ he)
    rcases hc ev List.mem_cons_self with rfl | ⟨chunk, rfl, hne⟩
    · obtain ⟨n, hn⟩ := Nat.exists_eq_add_one_of_ne_zero (by omega : r.remaining + k ≠ 0)
      rw [hn] at hq
      exact hq.elim
    · have ho : octets (.data chunk :: events) = chunk ++ octets events := rfl
      rw [await_step r chunk events hne hr, ho]
      by_cases hle : r.remaining ≤ chunk.length
      · rw [if_pos hle, List.take_append_of_le_length hle, List.drop_append_of_le_length hle]
        exact ⟨_, rfl, calm_left _ hrest, octets_left _ _ _,
          (undisturbed_left chunk _ k events hle).mpr hq⟩
      · rw [ho, List.length_append] at hlen
        rw [undisturbed_data, show r.remaining + k - chunk.length =
          r.remaining - chunk.length + k by omega] at hq
        obtain ⟨left, hawait, hcalm, hleft, hquiet⟩ :=
          ih (r := ⟨r.received ++ chunk, r.remaining - chunk.length, r.result + chunk.length⟩) hrest
            (by simp only; omega) (by simp only; omega) hq
        simp only at hawait hleft
        have hresult : r.result + chunk.length + ((r.remaining - chunk.length : ℕ) : ℤ) =
            r.result + r.remaining := by
          omega
        rw [if_neg hle, hawait, hresult, List.append_assoc]
        refine ⟨left, ?_, hcalm, ?_, hquiet⟩
        · rw [List.take_append, List.take_of_length_le (by omega : chunk.length ≤ r.remaining)]
        · rw [hleft, List.drop_append,
            List.drop_eq_nil_of_le (by omega : chunk.length ≤ r.remaining),
            List.nil_append]

lemma reader_hands (stale : List Event → ℕ → UInt8) :
    Hands (reader stale) Calm octets Undisturbed where
  taken n events bs left hc hread := by
    rcases Nat.eq_zero_or_pos n with rfl | hn
    · cases events with
      | nil => simp [reader, Read.await] at hread
      | cons ev events =>
        simp [reader, Read.await, Read.start, Read.allocCb, callback, Read.readCb, enobufs] at hread
    · rw [reader] at hread
      cases hawait : (Read.start n).await events with
      | none =>
        rw [hawait] at hread
        cases hread
      | some p =>
        obtain ⟨r, left'⟩ := p
        obtain ⟨hcalm, got, hgot, hreceived, hlen, hquiet⟩ := await_taken hc hn hawait
        rw [Read.start, List.nil_append] at hreceived
        simp only [Read.start] at hlen hquiet
        simp only [hawait, hreceived] at hread
        split_ifs at hread
        cases hread
        refine ⟨hn, ?_, hcalm, got, hgot, hlen, ?_⟩
        · rw [List.length_append, List.length_map, List.length_range']
          omega
        · intro hfull
          refine ⟨?_, hquiet hfull⟩
          rw [hfull, Nat.sub_self]
          exact List.append_nil got
  serves n k events hc hn hlen hq := by
    obtain ⟨left, hawait, hcalm, hleft, hquiet⟩ := await_undisturbed (r := .start n) hc hn hlen hq
    simp only [Read.start] at hawait hleft
    refine ⟨left, ?_, hcalm, hleft, hquiet⟩
    simp [reader, Read.start, hawait, hlen]
  zero := undisturbed_zero

end Catter.Uv
