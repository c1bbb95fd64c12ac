import Catter.Coro.Lazy
import Catter.Text

/-! `loop` of the decision server: its acceptors, and when it leaves them. -/

namespace Catter.Server

open Library.Runs Coro Text

/-- The coroutine of one connection; its only handle is the pipe. -/
abbrev Acceptor := Lazy ℕ Unit Str

/-- The coroutine of the root `catter-proxy`; its only handle is the process. -/
abbrev Root := Lazy ℕ ℤ Str

inductive LoopEvent
  | connect (accepted : Bool)
  | listenError
  | disconnect (i : ℕ)
  | closed (i : ℕ)
  | rootExit (status : ℤ)
  | rootThrows (error : Str)
  | rootClosed
deriving DecidableEq

/-- `left` are the acceptors as they are when `loop` destroys its vector. -/
structure Loop where
  acceptors : List Acceptor
  root : Root
  left : Option (List Acceptor)

/-- `accept` up to where it suspends: reading, or in its cleaner when `uv_accept` fails. -/
def accept (pipe : ℕ) (accepted : Bool) : Acceptor :=
  let opened : Acceptor := { (Lazy.start : Acceptor) with handles := [pipe] }
  if accepted then opened else { opened with promise := ⟨(), none⟩ }.finalSuspend

namespace Loop

def start : Loop where
  acceptors := []
  root := { (Lazy.start : Root) with handles := [0], awaited := true, previous := .awaiting }
  left := none

def stepAcceptor (s : Loop) (i : ℕ) (e : Coro.Event ℕ Unit Str) : Option Loop := do
  let acceptor ← s.acceptors[i]?
  let next ← acceptor.step e
  return { s with acceptors := s.acceptors.set i next }

-- once its root is closed, `loop` is continued and leaves
def stepRoot (s : Loop) (e : Coro.Event ℕ ℤ Str) : Option Loop := do
  let root ← s.root.step e
  return { s with root := root, left := if root.resumed = [] then none else some s.acceptors }

def step (s : Loop) (e : LoopEvent) : Option Loop :=
  if s.left.isSome then none
  else match e with
    | .connect accepted =>
        some { s with acceptors := s.acceptors ++ [accept s.acceptors.length accepted] }
    | .listenError => some s
    | .disconnect i => s.stepAcceptor i (.coReturn ())
    | .closed i => s.stepAcceptor i (.closeCb i)
    | .rootExit status => s.stepRoot (.coReturn status)
    | .rootThrows error => s.stepRoot (.unhandledException error)
    | .rootClosed => s.stepRoot (.closeCb 0)

end Loop

def LoopEvent.isConnect : LoopEvent → Bool
  | .connect _ => true
  | _ => false

def connects (es : List LoopEvent) : ℕ := es.countP LoopEvent.isConnect

def AllClosed (es : List LoopEvent) : Prop := ∀ i < connects es, LoopEvent.closed i ∈ es

instance decidableAllClosed (es : List LoopEvent) : Decidable (AllClosed es) :=
  inferInstanceAs (Decidable (∀ i < connects es, LoopEvent.closed i ∈ es))

structure Serves (i fired : ℕ) (a : Acceptor) : Prop where
  agrees : ∃ cs, a.Agrees cs
  handles : a.handles = [i]
  fired : a.fired = fired

lemma accept_serves (i : ℕ) (accepted : Bool) : Serves i 0 (accept i accepted) := by
  cases accepted with
  | true =>
    have hrun : run Lazy.step Lazy.start [.create i] = some (accept i true) := rfl
    exact ⟨⟨_, Lazy.run_agrees hrun⟩, rfl, rfl⟩
  | false =>
    have hrun : run Lazy.step Lazy.start [.create i, .coReturn ()] = some (accept i false) := rfl
    exact ⟨⟨_, Lazy.run_agrees hrun⟩, rfl, rfl⟩

lemma serves_step {i fired : ℕ} {a b : Acceptor} {e : Coro.Event ℕ Unit Str} (h : Serves i fired a)
    (hstep : a.step e = some b) (hcreated : e.created = none) :
    Serves i (fired + if e.isCloseCb then 1 else 0) b := by
  obtain ⟨⟨cs, hagrees⟩, hhandles, hfired⟩ := h
  have hnext := Lazy.agrees_step hagrees hstep
  refine ⟨⟨_, hnext⟩, ?_, ?_⟩
  · rw [hnext.handles, created_concat, hcreated, ← hagrees.handles, hhandles]
    rfl
  · rw [hnext.fired, closeCbs_concat, ← hagrees.fired, hfired]

lemma serves_done {i fired : ℕ} {a : Acceptor} (h : Serves i fired a) :
    a.done = true ↔ 0 < fired := by
  obtain ⟨⟨cs, hagrees⟩, hhandles, hfired⟩ := h
  rw [Lazy.done_iff_fired hagrees (by simp [hhandles]), hhandles, hfired]
  exact Iff.rfl

namespace Loop

structure Agrees (es : List LoopEvent) (s : Loop) : Prop where
  length : s.acceptors.length = connects es
  serves : ∀ i a, s.acceptors[i]? = some a → Serves i (es.count (.closed i)) a
  fresh : ∀ i, s.acceptors.length ≤ i → LoopEvent.closed i ∉ es
  left : ∀ acceptors, s.left = some acceptors → acceptors = s.acceptors

lemma agrees_connect {es : List LoopEvent} {s : Loop} (h : s.Agrees es) (hleft : s.left = none)
    (accepted : Bool) :
    ({ s with acceptors := s.acceptors ++ [Server.accept s.acceptors.length accepted] } :
      Loop).Agrees
      (es ++ [.connect accepted]) := by
  refine ⟨?_, ?_, ?_, ?_⟩
  · simp [connects, LoopEvent.isConnect, h.length]
  · intro i a ha
    rw [List.count_append, List.count_singleton, if_neg (by simp), Nat.add_zero]
    rcases lt_trichotomy i s.acceptors.length with hlt | heq | hgt
    · rw [List.getElem?_append_left hlt] at ha
      exact h.serves i a ha
    · have hzero : es.count (.closed i) = 0 :=
        List.count_eq_zero.mpr (h.fresh i (le_of_eq heq.symm))
      simp [heq] at ha
      rw [hzero, ← ha, heq]
      exact accept_serves _ accepted
    · rw [List.getElem?_eq_none (by simp; omega)] at ha
      cases ha
  · intro i hi
    simp only [List.length_append, List.length_singleton] at hi
    simp [h.fresh i (by omega)]
  · intro acceptors hacc
    simp [hleft] at hacc

lemma agrees_acceptor {es : List LoopEvent} {s t : Loop} {i : ℕ} {e : Coro.Event ℕ Unit Str}
    {le : LoopEvent}
    (h : s.Agrees es) (hleft : s.left = none) (hstep : s.stepAcceptor i e = some t)
    (hcreated : e.created = none)
    (hconnect : le.isConnect = false) (hclose : ∀ j, le = .closed j ↔ e.isCloseCb = true ∧ j = i) :
    t.Agrees (es ++ [le]) := by
  simp only [stepAcceptor, Option.bind_eq_bind, Option.bind_eq_some_iff, Option.pure_def,
    Option.some.injEq] at hstep
  obtain ⟨a, ha, b, hb, rfl⟩ := hstep
  have hlt : i < s.acceptors.length := (List.getElem?_eq_some_iff.mp ha).1
  refine ⟨?_, ?_, ?_, ?_⟩
  · simp [connects, hconnect, h.length]
  · intro j c hc
    rw [List.count_append, List.count_singleton]
    by_cases hj : j = i
    · subst hj
      rw [List.getElem?_set_self hlt] at hc
      cases hc
      have hserves := serves_step (h.serves j a ha) hb hcreated
      cases hcb : e.isCloseCb <;> simp_all
    · rw [List.getElem?_set_ne (Ne.symm hj)] at hc
      have hother : le ≠ .closed j := fun he => hj ((hclose j).mp he).2
      rw [if_neg (by simpa using hother)]
      exact h.serves j c hc
  · intro j hj
    rw [List.length_set] at hj
    have hother : le ≠ .closed j := fun he => by
      have := ((hclose j).mp he).2
      omega
    simp [h.fresh j hj, hother.symm]
  · intro acceptors hacc
    simp [hleft] at hacc

lemma agrees_root {es : List LoopEvent} {s t : Loop} {e : Coro.Event ℕ ℤ Str} {le : LoopEvent}
    (h : s.Agrees es)
    (hstep : s.stepRoot e = some t) (hconnect : le.isConnect = false)
    (hclose : ∀ j, le ≠ .closed j) :
    t.Agrees (es ++ [le]) := by
  simp only [stepRoot, Option.bind_eq_bind, Option.bind_eq_some_iff, Option.pure_def,
    Option.some.injEq] at hstep
  obtain ⟨root, -, rfl⟩ := hstep
  refine ⟨?_, ?_, ?_, ?_⟩
  · simp [connects, hconnect, h.length]
  · intro i a ha
    rw [List.count_append, List.count_singleton, if_neg (by simpa using hclose i), Nat.add_zero]
    exact h.serves i a ha
  · intro i hi
    simp [h.fresh i hi, (hclose i).symm]
  · intro acceptors hacc
    split_ifs at hacc
    simpa using hacc.symm

lemma agrees_step {es : List LoopEvent} {s t : Loop} {e : LoopEvent} (h : s.Agrees es)
    (hstep : s.step e = some t) :
    t.Agrees (es ++ [e]) := by
  rw [step.eq_def, Option.ite_none_left_eq_some] at hstep
  obtain ⟨hleft, hstep⟩ := hstep
  have hnone : s.left = none := by simpa using hleft
  cases e with
  | connect accepted =>
    cases hstep
    exact agrees_connect h hnone accepted
  | listenError =>
    cases hstep
    refine ⟨?_, ?_, ?_, h.left⟩
    · simp [connects, LoopEvent.isConnect, h.length]
    · intro i a ha
      simpa [List.count_append] using h.serves i a ha
    · intro i hi
      simp [h.fresh i hi]
  | disconnect i => exact agrees_acceptor h hnone hstep rfl rfl (by simp [Coro.Event.isCloseCb])
  | closed i =>
    exact agrees_acceptor h hnone hstep rfl rfl (by simp [Coro.Event.isCloseCb, eq_comm])
  | rootExit status => exact agrees_root h hstep rfl (by simp)
  | rootThrows error => exact agrees_root h hstep rfl (by simp)
  | rootClosed => exact agrees_root h hstep rfl (by simp)

lemma run_agrees {es : List LoopEvent} {s : Loop} (h : run step start es = some s) :
    s.Agrees es := by
  apply run_induction ?_ (fun es t e u _ ht hstep => agrees_step ht hstep) h
  exact ⟨rfl, fun i a ha =>
    by simp [start] at ha, fun i _ => List.not_mem_nil, fun acceptors hacc => by cases hacc⟩

theorem left_acceptors_done_iff {es : List LoopEvent} {s : Loop} {acceptors : List Acceptor}
    (h : run step start es = some s) (hleft : s.left = some acceptors) :
    (∀ a ∈ acceptors, a.done = true) ↔ AllClosed es := by
  obtain ⟨hlength, hserves, -, hsame⟩ := run_agrees h
  rw [hsame acceptors hleft, AllClosed, ← hlength]
  constructor
  · intro hdone i hi
    have hget : s.acceptors[i]? = some s.acceptors[i] := List.getElem?_eq_getElem hi
    have hfired := (serves_done (hserves i _ hget)).mp (hdone _ (List.getElem_mem hi))
    exact List.count_pos_iff.mp hfired
  · intro hclosed a ha
    obtain ⟨i, hi, rfl⟩ := List.mem_iff_getElem.mp ha
    apply (serves_done (hserves i _ (List.getElem?_eq_getElem hi))).mpr
    exact List.count_pos_iff.mpr (hclosed i hi)

theorem every_client_closed_first :
    ∃ s acceptors, run step start [.connect true, .rootExit 0, .disconnect 0, .closed 0,
      .rootClosed] = some s ∧
      s.left = some acceptors ∧ ∀ a ∈ acceptors, a.done = true := by
  obtain ⟨s, hs⟩ : ∃ s, run step start [.connect true, .rootExit 0, .disconnect 0, .closed 0,
    .rootClosed] = some s :=
    ⟨_, rfl⟩
  obtain ⟨acceptors, hleft⟩ : ∃ acceptors, s.left = some acceptors := by
    cases hs
    exact ⟨_, rfl⟩
  refine ⟨s, acceptors, hs, hleft, ?_⟩
  apply (left_acceptors_done_iff hs hleft).mpr
  decide

theorem acceptor_outlives_loop :
    ¬∀ es s acceptors, run step start es = some s → s.left = some acceptors →
      ∀ a ∈ acceptors, a.done = true := by
  intro h
  have hdone := h [.connect true, .rootExit 0, .rootClosed] _ _ rfl rfl (accept 0 true)
    (List.mem_singleton.mpr rfl)
  exact absurd hdone (by decide)

end Loop

end Catter.Server
