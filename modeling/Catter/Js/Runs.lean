import Mathlib.Tactic
import Catter.Text

/-! `run_js_file`, one script after the other in one runtime: whose promise the verdict
speaks about. -/

namespace Catter.Js

open Text

-- `trace` is the text that `on_promise_reject` makes of the reason, and `throws` whether making it
-- threw.
inductive Settlement
  | fulfilled
  | rejected (trace : Str) (throws : Bool)

inductive PromiseState
  | pending
  | fulfilled
  | rejected
deriving DecidableEq

-- What a piece of JavaScript does to the promises of the modules, by their number, and to the queue
-- of jobs.
inductive Act (J : Type)
  | settle (k : ℕ) (s : Settlement)
  | enqueue (job : J)

-- `origin` is the number of the script that the job goes back to.
inductive Job (J : Type)
  | script (origin : ℕ) (job : J)
  | reaction (k : ℕ) (s : Settlement)

-- `attached`: it waits with the two functions of `run_js_file`.
structure Promise where
  settled : Option Settlement
  attached : Bool

inductive Evaluation
  | failed
  | notObject
  | object
  | promise

/-- QuickJS, with a heap of its own and jobs of its own; a job may throw. -/
structure Engine (H J : Type) where
  eval : Str → Str → H → Evaluation × List (Act J) × H
  exec : J → H → Bool × List (Act J) × H

-- `exception` is `JS_HasException`; the last two are the statics of js.cc.
structure State (H J : Type) where
  scripts : ℕ
  heap : H
  promises : List Promise
  queue : List (Job J)
  exception : Bool
  promiseState : PromiseState
  errorStrace : Str

inductive Outcome
  | returned
  | evalFailed
  | innerException
  | jobFailed
  | stillPending
  | rejected (trace : Str)

variable {H J : Type}

namespace State

def perform (origin : ℕ) (s : State H J) : Act J → State H J
  | .enqueue job => { s with queue := s.queue ++ [.script origin job] }
  | .settle k settlement =>
    match s.promises[k]? with
    | some ⟨none, attached⟩ =>
      { s with
        promises := s.promises.set k ⟨some settlement, false⟩
        queue := if attached then s.queue ++ [.reaction k settlement] else s.queue }
    | _ => s

def performAll (origin : ℕ) (s : State H J) (acts : List (Act J)) : State H J :=
  acts.foldl (perform origin) s

-- `promise.then(c_resolve_func, c_reject_func)`
def attach (s : State H J) (k : ℕ) : State H J :=
  match s.promises[k]? with
  | some ⟨some settlement, _⟩ => { s with queue := s.queue ++ [.reaction k settlement] }
  | some ⟨none, _⟩ => { s with promises := s.promises.set k ⟨none, true⟩ }
  | none => s

def onPromiseResolve (s : State H J) : State H J := { s with promiseState := .fulfilled }

def onPromiseReject (s : State H J) (trace : Str) (throws : Bool) : State H J :=
  { s with promiseState := .rejected, errorStrace := trace, exception := s.exception || throws }

def react (s : State H J) : Settlement → State H J
  | .fulfilled => s.onPromiseResolve
  | .rejected trace throws => s.onPromiseReject trace throws

end State

section

variable (engine : Engine H J)

-- `JS_ExecutePendingJob`, and whether it returns 1
def executePendingJob (s : State H J) : Option (Bool × State H J) :=
  match s.queue with
  | [] => none
  | .script origin job :: queue =>
    let (succeeds, acts, heap) := engine.exec job s.heap
    let t := { s with heap, queue }.performAll origin acts
    some (succeeds, { t with exception := t.exception || !succeeds })
  | .reaction _ settlement :: queue => some (true, { s with queue }.react settlement)

/-- The loop over the pending jobs, and whether it comes to the end of the queue. -/
inductive Drains : State H J → Bool → State H J → Prop
  | idle {s : State H J} (h : executePendingJob engine s = none) : Drains s true s
  | job {s t u : State H J} {done : Bool} (h : executePendingJob engine s = some (true, t))
      (hrest : Drains t done u) :
      Drains s done u
  | throws {s t : State H J} (h : executePendingJob engine s = some (false, t)) : Drains s false t

/-- `ctx.eval` of a module: an exception that is pending afterwards is thrown, and cleared by
`dump`. -/
def eval (s : State H J) (content filepath : Str) : Evaluation × State H J :=
  let (evaluation, acts, heap) := engine.eval content filepath s.heap
  let promises := match evaluation with
    | .promise => s.promises ++ [⟨none, false⟩]
    | _ => s.promises
  let t := { s with scripts := s.scripts + 1, heap, promises }.performAll s.scripts acts
  match evaluation, t.exception with
  | .failed, _ | _, true => (.failed, { t with exception := false })
  | evaluation, false => (evaluation, t)

def verdict (s : State H J) : Outcome :=
  match s.promiseState with
  | .pending => .stillPending
  | .fulfilled => .returned
  | .rejected => .rejected s.errorStrace

def checked (s : State H J) (k : ℕ) : State H J := { s with promiseState := .pending }.attach k

inductive RunJsFile (content filepath : Str) (checkError : Bool) (s : State H J) :
    Outcome → State H J → Prop
  | evalFailed {t : State H J} (h : eval engine s content filepath = (.failed, t)) :
      RunJsFile content filepath checkError s .evalFailed t
  | innerException {t : State H J} (h : eval engine s content filepath = (.notObject, t)) :
      RunJsFile content filepath checkError s .innerException t
  | object {t : State H J} (h : eval engine s content filepath = (.object, t)) :
      RunJsFile content filepath checkError s .returned t
  | unchecked {t : State H J} (hcheck : checkError = false)
      (h : eval engine s content filepath = (.promise, t)) :
      RunJsFile content filepath checkError s .returned t
  | checked {t u : State H J} (hcheck : checkError = true)
      (h : eval engine s content filepath = (.promise, t))
      (hdrains : Drains engine (checked t s.promises.length) true u) :
      RunJsFile content filepath checkError s (verdict u) u
  | jobFailed {t u : State H J} (hcheck : checkError = true)
      (h : eval engine s content filepath = (.promise, t))
      (hdrains : Drains engine (Js.checked t s.promises.length) false u) :
      RunJsFile content filepath checkError s .jobFailed u

/-- Runs that each left nothing behind: no promise that still waits, no job, no exception. -/
inductive Session (s₀ : State H J) : State H J → Prop
  | start : Session s₀ s₀
  | run {s t : State H J} {content filepath : Str} {checkError : Bool} {outcome : Outcome}
      (h : Session s₀ s)
      (hrun : RunJsFile engine content filepath checkError s outcome t)
      (hpending : outcome ≠ .stillPending)
      (hjob : outcome ≠ .jobFailed) (hqueue : t.queue = []) (hexception : t.exception = false) :
    Session s₀ t

end

def ownVerdict : Option Settlement → Outcome
  | none => .stillPending
  | some .fulfilled => .returned
  | some (.rejected trace _) => .rejected trace

/-! The reactions that still stand in the queue. -/

def reactions (queue : List (Job J)) : List (ℕ × Settlement) :=
  queue.filterMap fun
    | .script _ _ => none
    | .reaction k settlement => some (k, settlement)

def Shows (s : State H J) : Settlement → Prop
  | .fulfilled => s.promiseState = .fulfilled
  | .rejected trace _ => s.promiseState = .rejected ∧ s.errorStrace = trace

inductive Phase (k : ℕ) (s : State H J) : Prop
  | waiting (hpromise : s.promises[k]? = some ⟨none, true⟩) (hreactions : reactions s.queue = [])
      (hstate : s.promiseState = .pending)
  | queued {settlement : Settlement} (hpromise : s.promises[k]? = some ⟨some settlement, false⟩)
      (hreactions : reactions s.queue = [(k, settlement)]) (hstate : s.promiseState = .pending)
  | reacted {settlement : Settlement} (hpromise : s.promises[k]? = some ⟨some settlement, false⟩)
      (hreactions : reactions s.queue = []) (hstate : Shows s settlement)

structure Runs (k : ℕ) (s : State H J) : Prop where
  others : ∀ (j : ℕ) (p : Promise), s.promises[j]? = some p → j ≠ k → p.attached = false
  phase : Phase k s

variable {s t u : State H J} {k n : ℕ}

/-- The loop over the jobs comes to one that goes back to the script `n`, and it throws. -/
inductive Fails (engine : Engine H J) (n : ℕ) : State H J → State H J → Prop
  | throws {s : State H J} {job : J} {queue : List (Job J)}
      (hqueue : s.queue = .script n job :: queue)
      (hjob : (engine.exec job s.heap).1 = false) {t : State H J}
      (h : executePendingJob engine s = some (false, t)) :
      Fails engine n s t
  | job {s t u : State H J} (h : executePendingJob engine s = some (true, t))
      (hrest : Fails engine n t u) :
      Fails engine n s u

def Reports (engine : Engine H J) (s : State H J) (content filepath : Str) (outcome : Outcome)
    (t : State H J) : Prop :=
  match (engine.eval content filepath s.heap).1 with
  | .failed => outcome = .evalFailed
  | .notObject => outcome = .innerException
  | .object => outcome = .returned
  | .promise =>
    let begun := checked (eval engine s content filepath).2 s.promises.length
    (outcome = .jobFailed ∧ Fails engine s.scripts begun t) ∨
      (Drains engine begun true t ∧ ∃ p, t.promises[s.promises.length]? = some p ∧
        outcome = ownVerdict p.settled)

def sampleEngine : Engine ℕ ℕ where
  eval content _ modules :=
    if content = lit "throw 1" then
      (.promise, [.settle modules (.rejected (lit "1") false)], modules + 1)
    else (.promise, [.enqueue modules], modules + 1)
  exec k modules := (true, [.settle k .fulfilled], modules)

end Catter.Js
