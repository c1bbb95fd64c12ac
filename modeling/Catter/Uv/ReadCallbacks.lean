import Catter.Library.Runs
import Catter.Uv.Read

/-! One read awaiter over all the callbacks that libuv makes, from `uv_read_start` to the
resumption of the coroutine. -/

namespace Catter.Uv

open Library.Runs

inductive Callback
  | filled (octets : List UInt8)
  | nothing
  | failed (nread : ℤ)
deriving DecidableEq

namespace Callback

def nread : Callback → ℤ
  | filled octets => octets.length
  | nothing => 0
  | failed nread => nread

def octets : Callback → List UInt8
  | filled octets => octets
  | nothing | failed _ => []

-- libuv fills a part of what the alloc callback offered; errors and the end are negative.
def allowed (offered : ℕ) : Callback → Bool
  | filled octets => 0 < octets.length && octets.length ≤ offered
  | nothing => true
  | failed nread => nread < 0

end Callback

def streamed (cbs : List Callback) : List UInt8 := cbs.flatMap Callback.octets

structure Awaiting where
  read : Read
  reading : Bool
  resumed : List ℤ
deriving DecidableEq

namespace Awaiting

def start (len : ℕ) : Awaiting := ⟨Read.start len, true, []⟩

-- `uv_read_stop` goes with each resumption, and no callback follows it.
def step (w : Awaiting) (cb : Callback) : Option Awaiting :=
  if w.reading && cb.allowed w.read.allocCb then
    let (read, resumes) := w.read.readCb cb.nread cb.octets
    some { read, reading := !resumes, resumed := if resumes then w.resumed ++ [read.result]
      else w.resumed }
  else none

def AllFilled (cbs : List Callback) : Prop := ∀ cb ∈ cbs, ∃ octets, cb = .filled octets

-- `dst` is `read.received`.
inductive Agrees (len : ℕ) : List Callback → Awaiting → Prop
  | reading {cbs : List Callback} (hfilled : AllFilled cbs) {remaining : ℕ} (hpos : 0 < remaining)
      (hlen : (streamed cbs).length + remaining = len) :
      Agrees len cbs ⟨⟨streamed cbs, remaining, (streamed cbs).length⟩, true, []⟩
  | full {cbs : List Callback} (hfilled : AllFilled cbs) (hlen : (streamed cbs).length = len) :
      Agrees len cbs ⟨⟨streamed cbs, 0, len⟩, false, [(len : ℤ)]⟩
  | stopped {cbs : List Callback} (hfilled : AllFilled cbs) {cb : Callback}
      (hcb : cb = .nothing ∨ ∃ n < 0, cb = .failed n)
      {remaining : ℕ} (hpos : 0 < remaining) (hlen : (streamed cbs).length + remaining = len) :
      Agrees len (cbs ++ [cb]) ⟨⟨streamed cbs, remaining, cb.nread⟩, false, [cb.nread]⟩

lemma streamed_concat (cbs : List Callback) (cb : Callback) :
    streamed (cbs ++ [cb]) = streamed cbs ++ cb.octets := by
  simp [streamed]

lemma AllFilled.concat {cbs : List Callback} (h : AllFilled cbs) (octets : List UInt8) :
    AllFilled (cbs ++ [.filled octets]) := by
  intro cb hcb
  rcases List.mem_append.mp hcb with hcb | hcb
  · exact h cb hcb
  · exact ⟨octets, List.mem_singleton.mp hcb⟩

lemma AllFilled.nothing_notMem {cbs : List Callback} (h : AllFilled cbs) : .nothing ∉ cbs := by
  intro hmem
  obtain ⟨octets, hoctets⟩ := h _ hmem
  cases hoctets

lemma AllFilled.failed_notMem {cbs : List Callback} (h : AllFilled cbs) (n : ℤ) :
    .failed n ∉ cbs := by
  intro hmem
  obtain ⟨octets, hoctets⟩ := h _ hmem
  cases hoctets

lemma step_filled {r : Read} {octets : List UInt8} (hne : octets ≠ [])
    (hle : octets.length ≤ r.remaining) :
    step ⟨r, true, []⟩ (.filled octets) =
      some ⟨⟨r.received ++ octets, r.remaining - octets.length, r.result + octets.length⟩,
        r.remaining - octets.length != 0,
        if r.remaining - octets.length = 0 then [r.result + octets.length] else []⟩ := by
  have hpos : 0 < octets.length := List.length_pos_iff.mpr hne
  have hallowed : (Callback.filled octets).allowed r.allocCb = true := by
    simp [Callback.allowed, Read.allocCb, hpos, hle]
  rw [step, hallowed]
  simp only [Callback.nread, Callback.octets, readCb_data r octets hne, Bool.and_self, if_true,
    beq_iff_eq,
    List.nil_append]
  rfl

lemma step_stops {r : Read} {cb : Callback} (hcb : cb = .nothing ∨ ∃ n < 0, cb = .failed n) :
    step ⟨r, true, []⟩ cb = some ⟨{ r with result := cb.nread }, false, [cb.nread]⟩ := by
  rcases hcb with rfl | ⟨n, hn, rfl⟩
  · rfl
  · have hneg : ¬ 0 < n := by omega
    simp [step, Callback.allowed, Callback.nread, Read.readCb, hn, hneg]

lemma allowed_of_step {w w' : Awaiting} {cb : Callback} (h : w.step cb = some w') :
    w.reading = true ∧ cb.allowed w.read.allocCb = true := by
  rw [step, Option.ite_none_right_eq_some, Bool.and_eq_true] at h
  exact h.1

lemma agrees_filled {len remaining : ℕ} {cbs : List Callback} {octets : List UInt8}
    (hfilled : AllFilled cbs)
    (hne : octets ≠ []) (hle : octets.length ≤ remaining)
    (hlen : (streamed cbs).length + remaining = len)
    {w : Awaiting} (hstep : step ⟨⟨streamed cbs, remaining, (streamed cbs).length⟩, true, []⟩
      (.filled octets) = some w) :
    Agrees len (cbs ++ [.filled octets]) w := by
  rw [step_filled hne hle, Option.some.injEq] at hstep
  subst hstep
  have hall := hfilled.concat octets
  have hstreamed : streamed (cbs ++ [.filled octets]) = streamed cbs ++ octets :=
    streamed_concat cbs _
  have hlength := congrArg List.length hstreamed
  rw [List.length_append] at hlength
  have hresult : ((streamed cbs).length : ℤ) + octets.length =
      (streamed (cbs ++ [.filled octets])).length := by
    rw [hlength, Nat.cast_add]
  rcases hle.eq_or_lt with heq | hlt
  · have hfull : (streamed (cbs ++ [.filled octets])).length = len := by omega
    simp only [heq, Nat.sub_self, bne_self_eq_false, if_true] at hresult ⊢
    rw [hresult, hfull, ← hstreamed]
    exact Agrees.full hall hfull
  · have hpos : 0 < remaining - octets.length := by omega
    have hreading : (remaining - octets.length != 0) = true := bne_iff_ne.mpr hpos.ne'
    simp only [hresult, hpos.ne', hreading, if_false, ← hstreamed]
    exact Agrees.reading hall hpos (by omega)

lemma agrees_step {len : ℕ} {cbs : List Callback} {w w' : Awaiting} {cb : Callback}
    (h : Agrees len cbs w)
    (hstep : w.step cb = some w') : Agrees len (cbs ++ [cb]) w' := by
  obtain ⟨hreading, hallowed⟩ := allowed_of_step hstep
  cases h with
  | full hfilled hlen => exact absurd hreading Bool.false_ne_true
  | stopped hfilled hcb hpos hlen => exact absurd hreading Bool.false_ne_true
  | reading hfilled hpos hlen =>
    cases cb with
    | nothing =>
      rw [step_stops (Or.inl rfl), Option.some.injEq] at hstep
      subst hstep
      exact Agrees.stopped hfilled (Or.inl rfl) hpos hlen
    | failed n =>
      have hn : n < 0 := of_decide_eq_true hallowed
      rw [step_stops (Or.inr ⟨n, hn, rfl⟩), Option.some.injEq] at hstep
      subst hstep
      exact Agrees.stopped hfilled (Or.inr ⟨n, hn, rfl⟩) hpos hlen
    | filled octets =>
      rw [Callback.allowed, Bool.and_eq_true, decide_eq_true_eq, decide_eq_true_eq,
        List.length_pos_iff] at hallowed
      exact agrees_filled hfilled hallowed.1 hallowed.2 hlen hstep

lemma run_agrees {len : ℕ} (hlen : 1 ≤ len) {cbs : List Callback} {w : Awaiting}
    (h : run step (start len) cbs = some w) : Agrees len cbs w := by
  apply run_induction ?_ (fun cbs w cb w' _ hw hstep => agrees_step hw hstep) h
  apply Agrees.reading
  · intro cb hcb
    exact absurd hcb List.not_mem_nil
  · exact hlen
  · exact Nat.zero_add len

structure Sound (len : ℕ) (cbs : List Callback) (w : Awaiting) : Prop where
  atMostOnce : w.resumed.length ≤ 1
  resumes : (len ≤ (streamed cbs).length ∨ ∃ n, .failed n ∈ cbs) → w.resumed.length = 1
  full : ∀ result ∈ w.resumed, 0 ≤ result → result = len ∧ w.read.received.length = len ∧
    w.read.received = streamed cbs
  failed : ∀ n, .failed n ∈ cbs → w.resumed = [n]

lemma Agrees.not_sound {len : ℕ} {cbs : List Callback} {w : Awaiting} (h : Agrees len cbs w)
    (hnothing : .nothing ∈ cbs) :
    ¬ Sound len cbs w := by
  intro hsound
  cases h with
  | reading hfilled hpos hlen => exact hfilled.nothing_notMem hnothing
  | full hfilled hlen => exact hfilled.nothing_notMem hnothing
  | stopped hfilled hcb hpos hlen =>
    rcases hcb with rfl | ⟨n, hn, rfl⟩
    · have hfull := (hsound.full 0 (List.mem_singleton.mpr rfl) le_rfl).1
      omega
    · rcases List.mem_append.mp hnothing with hmem | hmem
      · exact hfilled.nothing_notMem hmem
      · cases List.mem_singleton.mp hmem

lemma Agrees.sound {len : ℕ} {cbs : List Callback} {w : Awaiting} (h : Agrees len cbs w)
    (hnothing : .nothing ∉ cbs) :
    Sound len cbs w := by
  cases h with
  | reading hfilled hpos hlen =>
    refine ⟨Nat.zero_le _, ?_, fun result hresult => absurd hresult List.not_mem_nil, ?_⟩
    · rintro (hfull | ⟨n, hn⟩)
      · omega
      · exact absurd hn (hfilled.failed_notMem n)
    · exact fun n hn => absurd hn (hfilled.failed_notMem n)
  | full hfilled hlen =>
    refine ⟨le_rfl, fun _ => rfl, ?_, fun n hn => absurd hn (hfilled.failed_notMem n)⟩
    intro result hresult _
    exact ⟨List.mem_singleton.mp hresult, hlen, rfl⟩
  | stopped hfilled hcb hpos hlen =>
    rcases hcb with rfl | ⟨n, hn, rfl⟩
    · exact absurd (List.mem_append_right _ (List.mem_singleton.mpr rfl)) hnothing
    · refine ⟨le_rfl, fun _ => rfl, ?_, ?_⟩
      · intro result hresult hnonneg
        obtain rfl := List.mem_singleton.mp hresult
        exact absurd hnonneg (not_le.mpr hn)
      · intro m hm
        rcases List.mem_append.mp hm with hm | hm
        · exact absurd hm (hfilled.failed_notMem m)
        · rw [List.mem_singleton, Callback.failed.injEq] at hm
          rw [hm]
          rfl

theorem sound_iff_never_nothing {len : ℕ} (hlen : 1 ≤ len) {cbs : List Callback} {w : Awaiting}
    (h : run step (start len) cbs = some w) : Sound len cbs w ↔ .nothing ∉ cbs := by
  have hagrees := run_agrees hlen h
  constructor
  · intro hsound hnothing
    exact hagrees.not_sound hnothing hsound
  · exact hagrees.sound

theorem sound_two_chunks :
    ∃ w, run step (start 3) [.filled [1], .filled [2, 3]] = some w ∧
      Sound 3 [.filled [1], .filled [2, 3]] w := by
  obtain ⟨w, hw⟩ : ∃ w, run step (start 3) [.filled [1], .filled [2, 3]] = some w := ⟨_, rfl⟩
  refine ⟨w, hw, ?_⟩
  apply (sound_iff_never_nothing (by decide) hw).mpr
  decide

theorem nothing_resumes_with_zero :
    ∃ w, run step (start 4) [.nothing] = some w ∧ w.resumed = [0] ∧ ¬ Sound 4 [.nothing] w := by
  refine ⟨_, rfl, rfl, ?_⟩
  have hagrees : Agrees 4 [.nothing] ⟨⟨[], 4, 0⟩, false, [0]⟩ := run_agrees (by decide) rfl
  exact hagrees.not_sound (List.mem_singleton.mpr rfl)

end Awaiting

end Catter.Uv
