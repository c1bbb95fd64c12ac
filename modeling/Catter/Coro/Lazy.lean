import Catter.Library.Runs
import Mathlib.Tactic

/-! `uv::async::Lazy`: the body of a coroutine, the hidden cleaner that closes its
handles, and the coroutine that awaits it. -/

namespace Catter.Coro

open Library.Runs

-- What a `std::coroutine_handle` of a promise may point at.
inductive Continuation
  | noop
  | awaiting
deriving DecidableEq

inductive CleanerAt
  | created
  | closing (i : ℕ)
  | final
deriving DecidableEq

structure Promise (R X : Type) where
  result : R
  exception : Option X
deriving DecidableEq

def Promise.awaitResume {R X : Type} (p : Promise R X) : Except X R :=
  match p.exception with
  | some x => .error x
  | none => .ok p.result

/-- `closed` are the calls of `uv_close` in their order, `pending` those whose
callback is outstanding, `resumed` what the awaiting coroutine was given each
time it continued. -/
structure Lazy (H R X : Type) where
  promise : Promise R X
  bodyDone : Bool
  handles : List H
  cleaner : CleanerAt
  previous : Continuation
  awaited : Bool
  closed : List H
  pending : List H
  fired : ℕ
  resumed : List (Except X R)

inductive Event (H R X : Type)
  | create (handle : H)
  | coReturn (value : R)
  | unhandledException (x : X)
  | coAwait
  | closeCb (handle : H)

namespace Lazy

variable {H R X : Type}

def start [Inhabited R] : Lazy H R X where
  promise := ⟨default, none⟩
  bodyDone := false
  handles := []
  cleaner := .created
  previous := .noop
  awaited := false
  closed := []
  pending := []
  fired := 0
  resumed := []

def done (s : Lazy H R X) : Bool := s.bodyDone && s.cleaner == .final

def resumeAwaiting (s : Lazy H R X) : Lazy H R X :=
  { s with resumed := s.resumed ++ [s.promise.awaitResume] }

def continuePrevious (s : Lazy H R X) : Lazy H R X :=
  match s.previous with
  | .noop => s
  | .awaiting => s.resumeAwaiting

/-- The loop of `close_handles` from the `i`-th handle on, up to where it suspends. -/
def closeFrom (s : Lazy H R X) (i : ℕ) : Lazy H R X :=
  match s.handles[i]? with
  | some handle =>
    { s with cleaner := .closing i, closed := s.closed ++ [handle], pending := s.pending ++
      [handle] }
  | none => { s with cleaner := .final }.continuePrevious

def resumeCleaner (s : Lazy H R X) : Lazy H R X :=
  match s.cleaner with
  | .created => s.closeFrom 0
  | .closing i => s.closeFrom (i + 1)
  | .final => s

def finalSuspend (s : Lazy H R X) : Lazy H R X := { s with bodyDone := true }.resumeCleaner

/-- `await_suspend` of the awaiter; where it answers false the awaiting coroutine goes on at
once. -/
def coAwait (s : Lazy H R X) : Lazy H R X :=
  if s.done then { s with awaited := true }.resumeAwaiting
  else { s with awaited := true, previous := .awaiting }

def step [DecidableEq H] (s : Lazy H R X) : Event H R X → Option (Lazy H R X)
  | .create handle => if s.bodyDone then none else some { s with handles := s.handles ++ [handle] }
  | .coReturn value =>
    if s.bodyDone then none
      else some { s with promise := { s.promise with result := value } }.finalSuspend
  | .unhandledException x =>
    if s.bodyDone then none
      else some { s with promise := { s.promise with exception := some x } }.finalSuspend
  | .coAwait => if s.awaited then none else some s.coAwait
  | .closeCb handle =>
    if handle ∈ s.pending then
      some { s with pending := s.pending.erase handle, fired := s.fired + 1 }.resumeCleaner
    else none

end Lazy

namespace Event

variable {H R X : Type}

def created : Event H R X → Option H
  | .create handle => some handle
  | _ => none

def outcome : Event H R X → Option (Except X R)
  | .coReturn value => some (.ok value)
  | .unhandledException x => some (.error x)
  | _ => none

def isCloseCb : Event H R X → Bool
  | .closeCb _ => true
  | _ => false

def isCoAwait : Event H R X → Bool
  | .coAwait => true
  | _ => false

end Event

section History

variable {H R X : Type} (es : List (Event H R X))

def created : List H := es.filterMap Event.created

def ending : Option (Except X R) := es.findSome? Event.outcome

def closeCbs : ℕ := es.countP Event.isCloseCb

def awaits : Bool := es.any Event.isCoAwait

variable (e : Event H R X)

@[simp] lemma created_concat : created (es ++ [e]) = created es ++ e.created.toList := by
  rw [created, List.filterMap_append, created, List.append_cancel_left_eq]
  cases h : e.created <;> simp [h]

@[simp] lemma ending_concat : ending (es ++ [e]) = (ending es).or e.outcome := by
  simp [ending, List.findSome?_append]

@[simp] lemma closeCbs_concat : closeCbs (es ++ [e]) = closeCbs es + if e.isCloseCb then 1
    else 0 := by
  simp [closeCbs, List.countP_append, List.countP_singleton]

@[simp] lemma awaits_concat : awaits (es ++ [e]) = (awaits es || e.isCoAwait) := by
  simp [awaits]

end History

namespace Lazy

variable {H R X : Type}

structure Waiting (s : Lazy H R X) : Prop where
  resumed : s.resumed = []
  previous : s.previous = if s.awaited then .awaiting else .noop

def Consistent (s : Lazy H R X) : Prop :=
  match s.cleaner with
  | .created => s.bodyDone = false ∧ s.closed = [] ∧ s.pending = [] ∧ s.fired = 0 ∧ s.Waiting
  | .closing i =>
    s.bodyDone = true ∧ s.closed = s.handles.take (i + 1) ∧
      (∃ handle, s.handles[i]? = some handle ∧ s.pending = [handle]) ∧
      s.fired = i ∧ s.Waiting
  | .final =>
    s.bodyDone = true ∧ s.closed = s.handles ∧ s.pending = [] ∧ s.fired = s.handles.length ∧
      s.resumed = if s.awaited then [s.promise.awaitResume] else []

structure SameOutside (s t : Lazy H R X) : Prop where
  promise : t.promise = s.promise
  bodyDone : t.bodyDone = s.bodyDone
  handles : t.handles = s.handles
  awaited : t.awaited = s.awaited
  fired : t.fired = s.fired

lemma closeFrom_outside (s : Lazy H R X) (i : ℕ) : s.SameOutside (s.closeFrom i) := by
  rw [closeFrom]
  cases s.handles[i]? with
  | some handle => exact ⟨rfl, rfl, rfl, rfl, rfl⟩
  | none =>
    simp only [continuePrevious]
    cases s.previous <;> exact ⟨rfl, rfl, rfl, rfl, rfl⟩

lemma resumeCleaner_outside (s : Lazy H R X) : s.SameOutside s.resumeCleaner := by
  rw [resumeCleaner]
  cases s.cleaner with
  | created => exact s.closeFrom_outside 0
  | closing i => exact s.closeFrom_outside (i + 1)
  | final => exact ⟨rfl, rfl, rfl, rfl, rfl⟩

lemma closeFrom_consistent {s : Lazy H R X} {i : ℕ} (hi : i ≤ s.handles.length)
    (hbody : s.bodyDone = true)
    (hclosed : s.closed = s.handles.take i) (hpending : s.pending = []) (hfired : s.fired = i)
    (hwait : s.Waiting) :
    (s.closeFrom i).Consistent := by
  rw [closeFrom]
  cases hnext : s.handles[i]? with
  | some handle =>
    refine ⟨hbody, ?_, ⟨handle, hnext, by simp only [hpending, List.nil_append]⟩,
      hfired, hwait.resumed, hwait.previous⟩
    rw [List.take_add_one, hnext, hclosed]
    rfl
  | none =>
    have hall : s.handles.length = i := le_antisymm (List.getElem?_eq_none_iff.mp hnext) hi
    have hclosed' : s.closed = s.handles := by rw [hclosed, ← hall, List.take_length]
    rw [continuePrevious, hwait.previous]
    cases hawaited : s.awaited with
    | true => exact ⟨hbody, hclosed', hpending, hfired.trans hall.symm,
        by simp [resumeAwaiting, hwait.resumed]⟩
    | false => exact ⟨hbody, hclosed', hpending, hfired.trans hall.symm, by simp [hwait.resumed]⟩

lemma finalSuspend_consistent {s : Lazy H R X} (hbody : s.bodyDone = false) (h : s.Consistent) :
    s.finalSuspend.Consistent := by
  rw [Consistent] at h
  rw [finalSuspend, resumeCleaner]
  cases hcleaner : s.cleaner with
  | created =>
    rw [hcleaner] at h
    obtain ⟨-, hclosed, hpending, hfired, hwait⟩ := h
    exact closeFrom_consistent (Nat.zero_le _) rfl hclosed hpending hfired
      ⟨hwait.resumed, hwait.previous⟩
  | closing i =>
    rw [hcleaner] at h
    exact absurd h.1 (by simp [hbody])
  | final =>
    rw [hcleaner] at h
    exact absurd h.1 (by simp [hbody])

lemma closeCb_consistent [DecidableEq H] {s : Lazy H R X} {handle : H} (hmem : handle ∈ s.pending)
    (h : s.Consistent) :
    ({ s with pending := s.pending.erase handle, fired := s.fired + 1 } :
      Lazy H R X).resumeCleaner.Consistent := by
  rw [Consistent] at h
  rw [resumeCleaner]
  cases hcleaner : s.cleaner with
  | created =>
    rw [hcleaner] at h
    exact absurd hmem (by simp [h.2.2.1])
  | closing i =>
    rw [hcleaner] at h
    obtain ⟨hbody, hclosed, ⟨closing, hclosing, hpending⟩, hfired, hwait⟩ := h
    have hi : i < s.handles.length := (List.getElem?_eq_some_iff.mp hclosing).1
    have hsame : handle = closing := by simpa [hpending] using hmem
    exact closeFrom_consistent hi hbody hclosed (by simp [hpending, hsame]) (by rw [hfired])
      ⟨hwait.resumed, hwait.previous⟩
  | final =>
    rw [hcleaner] at h
    exact absurd hmem (by simp [h.2.2.1])

lemma coAwait_consistent {s : Lazy H R X} (hawaited : s.awaited = false) (h : s.Consistent) :
    s.coAwait.Consistent := by
  rw [Consistent] at h
  cases hcleaner : s.cleaner with
  | created =>
    rw [hcleaner] at h
    obtain ⟨hbody, hclosed, hpending, hfired, hwait⟩ := h
    rw [coAwait, if_neg (by simp [done, hbody]), Consistent]
    simp only [hcleaner]
    exact ⟨hbody, hclosed, hpending, hfired, hwait.resumed, rfl⟩
  | closing i =>
    rw [hcleaner] at h
    obtain ⟨hbody, hclosed, hclosing, hfired, hwait⟩ := h
    rw [coAwait, if_neg (by simp [done, hcleaner]), Consistent]
    simp only [hcleaner]
    exact ⟨hbody, hclosed, hclosing, hfired, hwait.resumed, rfl⟩
  | final =>
    rw [hcleaner] at h
    obtain ⟨hbody, hclosed, hpending, hfired, hresumed⟩ := h
    rw [coAwait, if_pos (by simp [done, hbody, hcleaner]), resumeAwaiting, Consistent]
    simp only [hcleaner]
    exact ⟨hbody, hclosed, hpending, hfired, by simp [hresumed, hawaited]⟩

structure Agrees (es : List (Event H R X)) (s : Lazy H R X) : Prop where
  handles : s.handles = created es
  ended : (if s.bodyDone then some s.promise.awaitResume else none) = ending es
  noException : s.bodyDone = false → s.promise.exception = none
  awaited : s.awaited = awaits es
  fired : s.fired = closeCbs es
  consistent : s.Consistent

lemma consistent_running {s : Lazy H R X} (h : s.Consistent) (hbody : s.bodyDone = false) :
    s.cleaner = .created ∧ s.closed = [] ∧ s.pending = [] ∧ s.fired = 0 ∧ s.Waiting := by
  rw [Consistent] at h
  cases hcleaner : s.cleaner with
  | created =>
    rw [hcleaner] at h
    exact ⟨rfl, h.2⟩
  | closing i =>
    rw [hcleaner] at h
    exact absurd h.1 (by simp [hbody])
  | final =>
    rw [hcleaner] at h
    exact absurd h.1 (by simp [hbody])

lemma agrees_end {es : List (Event H R X)} {s : Lazy H R X} {e : Event H R X} {p : Promise R X}
    (h : s.Agrees es)
    (hbody : s.bodyDone = false) (hcreated : e.created = none) (hclose : e.isCloseCb = false)
    (hawait : e.isCoAwait = false) (houtcome : e.outcome = some p.awaitResume) :
    ({ s with promise := p } : Lazy H R X).finalSuspend.Agrees (es ++ [e]) := by
  have hrunning := consistent_running h.consistent hbody
  have hstart : ({ s with promise := p } : Lazy H R X).Consistent := by
    rw [Consistent]
    simp only [hrunning.1]
    obtain ⟨-, hclosed, hpending, hfired, hwait⟩ := hrunning
    exact ⟨hbody, hclosed, hpending, hfired, hwait.resumed, hwait.previous⟩
  have hout := ({ s with promise := p, bodyDone := true } : Lazy H R X).resumeCleaner_outside
  have hended := h.ended
  rw [if_neg (by simp [hbody])] at hended
  refine ⟨?_, ?_, ?_, ?_, ?_, finalSuspend_consistent hbody hstart⟩
  · rw [finalSuspend, hout.handles, created_concat, hcreated, h.handles]
    simp
  · rw [finalSuspend, hout.bodyDone, hout.promise, ending_concat, ← hended, houtcome]
    rfl
  · rw [finalSuspend, hout.bodyDone]
    simp
  · rw [finalSuspend, hout.awaited, awaits_concat, hawait, h.awaited, Bool.or_false]
  · rw [finalSuspend, hout.fired, closeCbs_concat, hclose, h.fired]
    rfl

variable [DecidableEq H]

lemma agrees_step {es : List (Event H R X)} {s t : Lazy H R X} {e : Event H R X} (h : s.Agrees es)
    (hstep : s.step e = some t) : t.Agrees (es ++ [e]) := by
  cases e with
  | create handle =>
    rw [step, Option.ite_none_left_eq_some] at hstep
    obtain ⟨hbody, hstep⟩ := hstep
    cases hstep
    obtain ⟨hcleaner, hrunning⟩ := consistent_running h.consistent (by simpa using hbody)
    refine ⟨?_, ?_, h.noException, ?_, ?_, ?_⟩
    · simp [h.handles, Event.created]
    · simpa [Event.outcome] using h.ended
    · simpa [Event.isCoAwait] using h.awaited
    · simpa [Event.isCloseCb] using h.fired
    · rw [Consistent]
      simp only [hcleaner]
      exact ⟨by simpa using hbody, hrunning.1, hrunning.2.1, hrunning.2.2.1, hrunning.2.2.2.resumed,
        hrunning.2.2.2.previous⟩
  | coReturn value =>
    rw [step, Option.ite_none_left_eq_some] at hstep
    obtain ⟨hbody, hstep⟩ := hstep
    cases hstep
    have hrunning : s.bodyDone = false := by simpa using hbody
    apply agrees_end h hrunning rfl rfl rfl
    simp [Promise.awaitResume, h.noException hrunning, Event.outcome]
  | unhandledException x =>
    rw [step, Option.ite_none_left_eq_some] at hstep
    obtain ⟨hbody, hstep⟩ := hstep
    cases hstep
    exact agrees_end h (by simpa using hbody) rfl rfl rfl rfl
  | coAwait =>
    rw [step, Option.ite_none_left_eq_some] at hstep
    obtain ⟨hawaited, hstep⟩ := hstep
    cases hstep
    have hout : s.coAwait.promise = s.promise ∧ s.coAwait.bodyDone = s.bodyDone ∧
        s.coAwait.handles = s.handles ∧
          s.coAwait.awaited = true ∧ s.coAwait.fired = s.fired := by
      rw [coAwait]
      split_ifs <;> exact ⟨rfl, rfl, rfl, rfl, rfl⟩
    obtain ⟨hpromise, hbody, hhandles, hawait, hfired⟩ := hout
    refine ⟨?_, ?_, ?_, ?_, ?_, coAwait_consistent (by simpa using hawaited) h.consistent⟩
    · simpa [hhandles, Event.created] using h.handles
    · simpa [hbody, hpromise, Event.outcome] using h.ended
    · simpa [hbody, hpromise] using h.noException
    · simp [hawait, Event.isCoAwait]
    · simpa [hfired, Event.isCloseCb] using h.fired
  | closeCb handle =>
    rw [step, Option.ite_none_right_eq_some] at hstep
    obtain ⟨hmem, hstep⟩ := hstep
    cases hstep
    have hout := ({ s with pending := s.pending.erase handle, fired := s.fired + 1 } :
      Lazy H R X).resumeCleaner_outside
    refine ⟨?_, ?_, ?_, ?_, ?_, closeCb_consistent hmem h.consistent⟩
    · simpa [hout.handles, Event.created] using h.handles
    · simpa [hout.bodyDone, hout.promise, Event.outcome] using h.ended
    · simpa [hout.bodyDone, hout.promise] using h.noException
    · simpa [hout.awaited, Event.isCoAwait] using h.awaited
    · rw [hout.fired, closeCbs_concat, ← h.fired]
      rfl

variable [Inhabited R]

lemma run_agrees {es : List (Event H R X)} {s : Lazy H R X} (h : run step start es = some s) :
    s.Agrees es := by
  apply run_induction ?_ (fun es t e u _ ht hstep => agrees_step ht hstep) h
  exact ⟨rfl, rfl, fun _ => rfl, rfl, rfl, rfl, rfl, rfl, rfl, rfl, rfl⟩

omit [DecidableEq H] [Inhabited R] in
lemma done_iff_fired {es : List (Event H R X)} {s : Lazy H R X} (h : s.Agrees es)
    (hne : s.handles ≠ []) :
    (s.done = true ↔ s.handles.length ≤ s.fired) := by
  have hpos := List.length_pos_iff.mpr hne
  have hconsistent := h.consistent
  rw [Consistent] at hconsistent
  rw [done]
  cases hcleaner : s.cleaner with
  | created =>
    rw [hcleaner] at hconsistent
    obtain ⟨-, -, -, hfired, -⟩ := hconsistent
    simp [hfired, hne]
  | closing i =>
    rw [hcleaner] at hconsistent
    obtain ⟨-, -, ⟨handle, hclosing, -⟩, hfired, -⟩ := hconsistent
    have hlt : i < s.handles.length := (List.getElem?_eq_some_iff.mp hclosing).1
    simp [hfired, hlt]
  | final =>
    rw [hcleaner] at hconsistent
    obtain ⟨hbody, -, -, hfired, -⟩ := hconsistent
    simp [hbody, hfired]

/-- Every run of a body, of the coroutine that awaits it and of the close callbacks, in any
order. -/
theorem handles_closed_awaiter_resumed {es : List (Event H R X)} {s : Lazy H R X}
    (h : run step start es = some s) :
    (s.done = true ↔ (ending es).isSome ∧ closeCbs es = (created es).length) ∧
    s.closed = (created es).take s.closed.length ∧
    (ending es = none → s.closed = []) ∧
    (s.done = true → s.closed = created es) ∧
    s.resumed = (if awaits es ∧ s.done then (ending es).toList else []) ∧
    ((ending es).isSome → s.done = false → ∃ handle, s.pending = [handle]) := by
  obtain ⟨hhandles, hended, -, hawaited, hfired, hconsistent⟩ := run_agrees h
  rw [← hhandles, ← hended, ← hawaited, ← hfired]
  rw [Consistent] at hconsistent
  cases hcleaner : s.cleaner with
  | created =>
    rw [hcleaner] at hconsistent
    obtain ⟨hbody, hclosed, -, -, hwait⟩ := hconsistent
    have hdone : s.done = false := by simp [done, hbody]
    simp [hdone, hbody, hclosed, hwait.resumed]
  | closing i =>
    rw [hcleaner] at hconsistent
    obtain ⟨hbody, hclosed, ⟨handle, hclosing, hpending⟩, hi, hwait⟩ := hconsistent
    have hdone : s.done = false := by simp [done, hcleaner]
    have hlt : i < s.handles.length := (List.getElem?_eq_some_iff.mp hclosing).1
    have hlen : s.closed.length = i + 1 := by
      rw [hclosed, List.length_take]
      omega
    refine ⟨?_, ?_, ?_, ?_, ?_, fun _ _ => ⟨handle, hpending⟩⟩
    · simp only [hdone, hbody, hi]
      simp
      omega
    · rw [hlen, hclosed]
    · simp [hbody]
    · simp [hdone]
    · simp [hdone, hwait.resumed]
  | final =>
    rw [hcleaner] at hconsistent
    obtain ⟨hbody, hclosed, -, hall, hresumed⟩ := hconsistent
    have hdone : s.done = true := by simp [done, hbody, hcleaner]
    refine ⟨?_, ?_, ?_, fun _ => hclosed, ?_, ?_⟩
    · simp [hdone, hbody, hall]
    · rw [hclosed, List.take_length]
    · simp [hbody]
    · simp [hdone, hbody, hresumed]
    · simp [hdone]

def sampleRun : List (Event ℕ ℕ ℕ) :=
  [.create 1, .create 2, .coReturn 7, .closeCb 1, .coAwait, .closeCb 2]

theorem two_handles_closed :
    ∃ s : Lazy ℕ ℕ ℕ, run step start sampleRun = some s ∧ s.done = true ∧
      s.closed = [1, 2] ∧ s.resumed = [.ok 7] := by
  obtain ⟨s, hs⟩ : ∃ s : Lazy ℕ ℕ ℕ, run step start sampleRun = some s := ⟨_, rfl⟩
  obtain ⟨hiff, -, -, hclosed, hresumed, -⟩ := handles_closed_awaiter_resumed hs
  have hdone : s.done = true := hiff.mpr ⟨rfl, rfl⟩
  refine ⟨s, hs, hdone, hclosed hdone, ?_⟩
  rw [hresumed, if_pos ⟨rfl, hdone⟩]
  rfl

end Lazy

end Catter.Coro
