import Catter.Proxy.Conversation

/-! The end of the launched child as each launcher decodes it, and the code that
catter-proxy makes of it. -/

namespace Catter.Proxy

open Text Rpc Library.Triples

abbrev Signal := { sig : ℕ // 1 ≤ sig ∧ sig < 127 }

inductive ChildEnd
  | exited (code : UInt8)
  | signaled (sig : Signal) (core : Bool)
  | notStarted
deriving DecidableEq

/-! The status word of `waitpid`. -/

def exitStatus (code : UInt8) : ℕ := code.toNat * 256

def signalStatus (sig : Signal) (core : Bool) : ℕ := sig.val + if core then 128 else 0

def wIfExited (status : ℕ) : Bool := status % 128 == 0

def wExitStatus (status : ℕ) : Int32 := .ofNat (status / 256 % 256)

/-- `spawned` is what `posix_spawn` returns, `waited` the status if `waitpid` gives one. -/
def runCommand (spawned : ℤ) (waited : Option ℕ) : Int32 :=
  if spawned ≠ 0 then -1
  else match waited with
    | none => -1
    | some status => if wIfExited status then wExitStatus status else 0

def ChildEnd.status : ChildEnd → Option ℕ
  | .exited code => some (exitStatus code)
  | .signaled sig core => some (signalStatus sig core)
  | .notStarted => none

/-- `hook::run` on Unix; `enoent` stands for any error of `posix_spawn`. -/
def injected (enoent : ℤ) (e : ChildEnd) : Attempt Int32 where
  started := e ≠ .notStarted
  result := .ok (runCommand (if e = .notStarted then enoent else 0) e.status)

def exitCbArgs (status : ℕ) : ℤ × ℕ :=
  if wIfExited status then ((status / 256 % 256 : ℕ), 0) else (0, status % 128)

/-- `awaiter::Spawn`: the exit callback keeps the status and drops the signal; an
error of `uv_spawn` is thrown. -/
def wrapped (error : Str) (e : ChildEnd) : Attempt Int64 where
  started := e ≠ .notStarted
  result := match e.status with
    | some status => .ok (.ofInt (exitCbArgs status).1)
    | none => .error (.std error)

/-! A conversation in which everything but the launch succeeds. -/

structure Smooth (w : World) (argv : List Str) (type : UInt8) : Prop where
  command : ∃ parent executable args, readArguments argv = .command parent executable args
  write : ∀ n, w.write n = .ok ()
  createReply : ∃ id, w.createReply = .ok id
  decisionReply : ∃ cmd, w.decisionReply = .ok ⟨type, cmd⟩
  currentPath : ∃ path, w.currentPath = .ok path
  environment : ∃ env, w.environment = .ok env
  locateExe : ∀ n executable, ∃ path, w.locateExe n executable = .ok path

def TalkStep.finishCode : TalkStep → Option Int32
  | .wrote (.finish retCode) => some retCode
  | _ => none

def finishCodes (log : List TalkStep) : List Int32 := log.filterMap TalkStep.finishCode

def reportedCodes (w : World) (argv : List Str) : Int32 × List Int32 :=
  ((main w argv).1, finishCodes (main w argv).2.log)

section

variable {w : World} {argv : List Str} {type : UInt8} (h : Smooth w argv type)

include h

lemma write_smooth (msg : Message) (s : Talk) :
    write w msg s = (.ok (), { s with writes := s.writes + 1, log := s.log ++ [.wrote msg] }) := by
  rw [write, h.write]

lemma locateExe_smooth (cmd : Command) (s : Talk) :
    ∃ located t, locateExe w cmd s = (.ok located, t) ∧ t.log = s.log := by
  obtain ⟨path, hpath⟩ := h.locateExe s.locates cmd.executable
  refine ⟨{ cmd with executable := path }, { s with locates := s.locates + 1 }, ?_, rfl⟩
  rw [locateExe, hpath]

lemma create_smooth (parentId : Int32) (s : Talk) :
    ∃ id t, RpcHandler.create w parentId s = (.ok id, t) ∧
      t.log = s.log ++ [.wrote (.create parentId)] := by
  obtain ⟨id, hid⟩ := h.createReply
  refine ⟨id, { s with
    parentId := parentId
    id := id
    writes := s.writes + 1
    log := s.log ++ [.wrote (.create parentId)] }, ?_, rfl⟩
  rw [RpcHandler.create, update_bind, bind_ok (write_smooth h _ _), hid, throwing_bind, update_bind]
  rfl

lemma makeDecision_smooth (cmd : Command) (s : Talk) :
    ∃ act t, RpcHandler.makeDecision w cmd s = (.ok act, t) ∧ act.type = type ∧
      t.log = s.log ++ [.wrote (.makeDecision cmd)] ++ [.decoded act] := by
  obtain ⟨received, hreceived⟩ := h.decisionReply
  refine ⟨⟨type, received⟩, { s with
    writes := s.writes + 1
    log := s.log ++ [.wrote (.makeDecision cmd)] ++ [.decoded ⟨type, received⟩] }, ?_, rfl, rfl⟩
  rw [RpcHandler.makeDecision, bind_ok (write_smooth h _ _), hreceived, throwing_bind, record,
    update_bind]
  rfl

lemma rawCmd_smooth (executable : Str) (args : List Str) (s : Talk) :
    ∃ cmd, rawCmd w executable args s = (.ok cmd, s) := by
  obtain ⟨path, hpath⟩ := h.currentPath
  obtain ⟨env, henv⟩ := h.environment
  refine ⟨⟨path, executable, args, env⟩, ?_⟩
  rw [rawCmd, hpath, henv, throwing_bind, throwing_bind]
  rfl

omit h in
lemma launch_run {α : Type} (cmd : Command) (l : Attempt α) (s : Talk) :
    ∃ t, launch cmd l s = (l.result, t) ∧ finishCodes t.log = finishCodes s.log := by
  rw [launch]
  cases l.started with
  | false => exact ⟨s, rfl, rfl⟩
  | true =>
    refine ⟨s.launched cmd, rfl, ?_⟩
    simp [Talk.launched, finishCodes, TalkStep.finishCode]

omit h in
lemma finishCodes_concat (log : List TalkStep) (step : TalkStep) :
    finishCodes (log ++ [step]) = finishCodes log ++ step.finishCode.toList := by
  rw [finishCodes, List.filterMap_append, finishCodes, List.append_cancel_left_eq]
  cases hcode : step.finishCode <;> simp [hcode]

omit h in
lemma launch_map {α β : Type} (cmd : Command) (l : Attempt α) (f : α → β) :
    (do let a ← launch cmd l
        return f a : Script β) = launch cmd ⟨l.started, l.result.map f⟩ := by
  funext s
  obtain ⟨started, result⟩ := l
  cases started <;> cases result <;> rfl

lemma reportedCodes_smooth {l : Attempt Int32}
    (hrun : ∀ act id, act.type = type → run w act id = launch act.cmd l) :
    reportedCodes w argv =
      match l.result with
      | .ok ret => (ret, [ret])
      | .error _ => (-1, []) := by
  obtain ⟨parent, executable, args, hargv⟩ := h.command
  obtain ⟨id, s₁, hcreate, hlog₁⟩ := create_smooth h (.ofInt parent) .start
  obtain ⟨cmd, hraw⟩ := rawCmd_smooth h executable args s₁
  obtain ⟨located, s₂, hlocate, hlog₂⟩ := locateExe_smooth h cmd s₁
  obtain ⟨act, s₃, hdecision, htype, hlog₃⟩ := makeDecision_smooth h located s₂
  obtain ⟨received, s₄, hlocate', hlog₄⟩ := locateExe_smooth h act.cmd s₃
  obtain ⟨s₅, hlaunch, hcodes⟩ := launch_run received l s₄
  have hnone : finishCodes s₅.log = [] := by
    rw [hcodes, hlog₄, hlog₃, finishCodes_concat, finishCodes_concat, hlog₂, hlog₁]
    rfl
  have hguarded : guarded w argv .start = (do
      let ret ← launch received l
      RpcHandler.finish w ret
      return ret : Script Int32) s₄ := by
    rw [guarded, hargv]
    simp only
    rw [bind_ok hcreate, carryOut, bind_ok hraw, bind_ok hlocate, bind_ok hdecision,
      bind_ok hlocate',
      hrun ⟨act.type, received⟩ id htype]
  cases hresult : l.result with
  | ok ret =>
    rw [hresult] at hlaunch
    rw [bind_ok hlaunch, RpcHandler.finish, bind_ok (write_smooth h _ _)] at hguarded
    have hmain : main w argv = (ret, { s₅ with
        writes := s₅.writes + 1
        log := s₅.log ++ [.wrote (.finish ret)] }) := by
      rw [main, hguarded]
      rfl
    rw [reportedCodes, hmain, finishCodes_concat, hnone]
    rfl
  | error e =>
    rw [hresult] at hlaunch
    rw [bind_error hlaunch] at hguarded
    have hreport : ∀ errorMsg, finishCodes (RpcHandler.reportError w errorMsg s₅).log = [] :=
      fun errorMsg => by
      rw [RpcHandler.reportError, write_smooth h, finishCodes_concat, hnone]
      rfl
    rw [reportedCodes, main, hguarded]
    cases e with
    | std what => simp only [hreport]
    | other => simp only [hreport]

end

def intCode (code : UInt8) : Int32 := .ofNat code.toNat

structure Honest (e : ChildEnd) (codes : Int32 × List Int32) : Prop where
  sent : ∀ code ∈ codes.2, code = codes.1
  zero : codes.1 = 0 → e = .exited 0
  exited : ∀ code, e = .exited code → codes = (intCode code, [intCode code])

lemma wIfExited_exitStatus (code : UInt8) : wIfExited (exitStatus code) = true := by
  rw [wIfExited, exitStatus, beq_iff_eq]
  omega

lemma wIfExited_signalStatus (sig : Signal) (core : Bool) :
    wIfExited (signalStatus sig core) = false := by
  have hsig := sig.property
  rw [wIfExited, signalStatus, beq_eq_false_iff_ne]
  split_ifs <;> omega

lemma exitStatus_code (code : UInt8) : exitStatus code / 256 % 256 = code.toNat := by
  have hlt := code.toNat_lt
  rw [exitStatus]
  omega

lemma intCode_zero {code : UInt8} (h : intCode code = 0) : code = 0 := by
  have hlt := code.toNat_lt
  have hint := congrArg Int32.toInt h
  rw [intCode, Int32.toInt_ofNat_of_lt (by omega)] at hint
  apply UInt8.toNat_inj.mp
  simpa using hint

section

variable {w : World} {argv : List Str} {e : ChildEnd}

lemma injected_codes (h : Smooth w argv Action.inject) {enoent : ℤ} (henoent : enoent ≠ 0)
    (hrun : ∀ cmd id, w.hookRun cmd id = injected enoent e) :
    reportedCodes w argv =
      match e with
      | .exited code => (intCode code, [intCode code])
      | .signaled _ _ => (0, [0])
      | .notStarted => (-1, [-1]) := by
  have hcodes := reportedCodes_smooth h (l := injected enoent e) fun act id htype => by
    rw [run, htype, if_neg (by decide), if_pos rfl, hrun]
  rw [hcodes]
  cases e with
  | exited code =>
    simp [injected, runCommand, ChildEnd.status, wIfExited_exitStatus, wExitStatus,
      exitStatus_code, intCode]
  | signaled sig core => simp [injected, runCommand, ChildEnd.status, wIfExited_signalStatus]
  | notStarted => simp [injected, runCommand, henoent]

lemma wrapped_codes (h : Smooth w argv Action.wrap) (error : Str)
    (hrun : ∀ executable args, w.spawn executable args = wrapped error e) :
    reportedCodes w argv =
      match e with
      | .exited code => (intCode code, [intCode code])
      | .signaled _ _ => (0, [0])
      | .notStarted => (-1, []) := by
  have hcodes := reportedCodes_smooth h
      (l := ⟨(wrapped error e).started, (wrapped error e).result.map Int64.toInt32⟩) fun act id
        htype => by
    rw [run, htype, if_pos rfl, hrun, launch_map]
  rw [hcodes]
  cases e with
  | exited code =>
    simp [wrapped, ChildEnd.status, exitCbArgs, wIfExited_exitStatus, exitStatus_code, intCode,
      Except.map,
      Int32.ofInt_eq_ofNat]
  | signaled sig core =>
      simp [wrapped, ChildEnd.status, exitCbArgs, wIfExited_signalStatus, Except.map]
  | notStarted => simp [wrapped, ChildEnd.status, Except.map]

end

/-- A child killed by a signal is reported as a success, on both paths. Where the child cannot be
started the codes agree, but the WRAP path sends none with FINISH, so all is right exactly for a
child that was started and not killed. -/
theorem codes_right_iff {w₁ w₂ : World} {argv₁ argv₂ : List Str} {e : ChildEnd} {enoent : ℤ}
    (error : Str)
    (h₁ : Smooth w₁ argv₁ Action.inject) (h₂ : Smooth w₂ argv₂ Action.wrap) (henoent : enoent ≠ 0)
    (hhook : ∀ cmd id, w₁.hookRun cmd id = injected enoent e)
    (hspawn : ∀ executable args, w₂.spawn executable args = wrapped error e) :
    ((Honest e (reportedCodes w₁ argv₁) ∧ Honest e (reportedCodes w₂ argv₂) ∧
        (reportedCodes w₁ argv₁).1 = (reportedCodes w₂ argv₂).1) ↔
          ∀ sig core, e ≠ .signaled sig core) ∧
      ((reportedCodes w₁ argv₁).2 = (reportedCodes w₂ argv₂).2 ↔ e ≠ .notStarted) ∧
      (Honest e (reportedCodes w₁ argv₁) ∧ Honest e (reportedCodes w₂ argv₂) ∧
        reportedCodes w₁ argv₁ = reportedCodes w₂ argv₂ ↔
        (∀ sig core, e ≠ .signaled sig core) ∧ e ≠ .notStarted) := by
  rw [injected_codes h₁ henoent hhook, wrapped_codes h₂ error hspawn]
  cases e with
  | exited code =>
    have hhonest : Honest (.exited code) (intCode code, [intCode code]) := by
      refine ⟨by simp, ?_, ?_⟩
      · intro hzero
        rw [intCode_zero hzero]
      · intro code' hcode
        cases hcode
        rfl
    simp [hhonest]
  | signaled sig core =>
    have hnot : ¬Honest (.signaled sig core) (0, [0]) := fun hhonest => nomatch hhonest.zero rfl
    simp [hnot]
  | notStarted =>
    have hinject : Honest .notStarted (-1, [-1]) :=
      ⟨by simp, fun hzero => absurd hzero (by decide), fun code hcode => nomatch hcode⟩
    have hwrap : Honest .notStarted (-1, []) :=
      ⟨by simp, fun hzero => absurd hzero (by decide), fun code hcode => nomatch hcode⟩
    simp [hinject, hwrap]

def sampleArgv : List Str := [lit "catter-proxy", lit "-p", lit "0", lit "--", lit "make"]

def sampleWorld (type : UInt8) (e : ChildEnd) : World where
  write _ := .ok ()
  createReply := .ok 1
  decisionReply := .ok ⟨type, ⟨lit "/", lit "make", [], []⟩⟩
  stoiWhat _ := lit "stoi"
  currentPath := .ok (lit "/")
  environment := .ok []
  locateExe _ _ := .ok (lit "/usr/bin/make")
  spawn _ _ := wrapped (lit "no such file or directory") e
  hookRun _ _ := injected 2 e

lemma sampleWorld_smooth (type : UInt8) (e : ChildEnd) :
    Smooth (sampleWorld type e) sampleArgv type where
  command := ⟨0, lit "make", [], by decide⟩
  write _ := rfl
  createReply := ⟨1, rfl⟩
  decisionReply := ⟨_, rfl⟩
  currentPath := ⟨_, rfl⟩
  environment := ⟨_, rfl⟩
  locateExe _ _ := ⟨_, rfl⟩

theorem codes_right_exit_three :
    Honest (.exited 3) (reportedCodes (sampleWorld Action.inject (.exited 3)) sampleArgv) ∧
      (reportedCodes (sampleWorld Action.inject (.exited 3)) sampleArgv).2 =
        (reportedCodes (sampleWorld Action.wrap (.exited 3)) sampleArgv).2 := by
  obtain ⟨hright, hsent, -⟩ := codes_right_iff (lit "no such file or directory")
    (sampleWorld_smooth Action.inject (.exited 3)) (sampleWorld_smooth Action.wrap (.exited 3))
      (by decide : (2 : ℤ) ≠ 0) (fun _ _ => rfl) (fun _ _ => rfl)
  exact ⟨(hright.mpr fun sig core => by simp).1, hsent.mpr (by simp)⟩

theorem killed_child_reported_as_success :
    ¬∀ (w : World) (argv : List Str) (e : ChildEnd) (error : Str), Smooth w argv Action.wrap →
      (∀ executable args, w.spawn executable args = wrapped error e) →
        Honest e (reportedCodes w argv) := by
  intro h
  have hsmooth := sampleWorld_smooth Action.wrap (.signaled ⟨9, by decide⟩ false)
  have hhonest := h _ _ _ (lit "no such file or directory") hsmooth fun _ _ => rfl
  rw [wrapped_codes hsmooth (lit "no such file or directory") fun _ _ => rfl] at hhonest
  exact nomatch hhonest.zero rfl

end Catter.Proxy
