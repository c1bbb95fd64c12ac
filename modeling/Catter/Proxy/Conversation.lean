import Catter.Library.Triples
import Catter.Proxy.Main
import Catter.Rpc.Message

/-! The conversation of catter-proxy with the server, whatever its steps come to. -/

namespace Catter.Proxy

open Text Rpc Library.Triples

inductive Exn
  | std (what : Str)
  | other
deriving DecidableEq

-- Whether a child was started, and what the call that should start one came to.
structure Attempt (α : Type) where
  started : Bool
  result : Except Exn α

/-- What each step comes to; the writes and the calls of `locate_exe` are numbered. -/
structure World where
  write : ℕ → Except Exn Unit
  createReply : Except Exn Int32
  decisionReply : Except Exn Action
  stoiWhat : StoiFailure → Str
  currentPath : Except Exn Str
  environment : Except Exn (List Str)
  locateExe : ℕ → Str → Except Exn Str
  spawn : Str → List Str → Attempt Int64
  hookRun : Command → Int32 → Attempt Int32

inductive TalkStep
  | wrote (msg : Message)
  | decoded (act : Action)
  | launched
deriving DecidableEq

structure Talk where
  parentId : Int32
  id : Int32
  writes : ℕ
  locates : ℕ
  log : List TalkStep
  children : List Command

def Talk.start : Talk := ⟨-1, -1, 0, 0, [], []⟩

abbrev Script (α : Type) := Library.Triples.Program Exn Talk α

def record (step : TalkStep) : Script Unit := update fun s => { s with log := s.log ++ [step] }

section

variable (w : World)

def write (msg : Message) : Script Unit := fun s =>
  match w.write s.writes with
  | .ok _ => (.ok (), { s with writes := s.writes + 1, log := s.log ++ [.wrote msg] })
  | .error e => (.error e, { s with writes := s.writes + 1 })

def locateExe (cmd : Command) : Script Command := fun s =>
  match w.locateExe s.locates cmd.executable with
  | .ok executable => (.ok { cmd with executable := executable },
      { s with locates := s.locates + 1 })
  | .error e => (.error e, { s with locates := s.locates + 1 })

namespace RpcHandler

def create (parentId : Int32) : Script Int32 := do
  update fun s => { s with parentId := parentId }
  write w (.create parentId)
  let nxtId ← throwing w.createReply
  update fun s => { s with id := nxtId }
  return nxtId

def makeDecision (cmd : Command) : Script Action := do
  write w (.makeDecision cmd)
  let act ← throwing w.decisionReply
  record (.decoded act)
  return act

def finish (retCode : Int32) : Script Unit := write w (.finish retCode)

/-- `noexcept`: an exception of the write is dropped. -/
def reportError (errorMsg : Str) (s : Talk) : Talk :=
  (write w (.reportError s.parentId s.id errorMsg) s).2

end RpcHandler

def Talk.launched (s : Talk) (cmd : Command) : Talk :=
  { s with log := s.log ++ [.launched], children := s.children ++ [cmd] }

def launch {α : Type} (cmd : Command) (l : Attempt α) : Script α := do
  if l.started then update fun s => s.launched cmd
  throwing l.result

def run (act : Action) (id : Int32) : Script Int32 :=
  if act.type = Action.wrap then do
    let ret ← launch act.cmd (w.spawn act.cmd.executable act.cmd.args)
    return ret.toInt32
  else if act.type = Action.inject then launch act.cmd (w.hookRun act.cmd id)
  else if act.type = Action.drop then return 0
  else return -1

def rawCmd (executable : Str) (args : List Str) : Script Command := do
  let workingDir ← throwing w.currentPath
  let env ← throwing w.environment
  return ⟨workingDir, executable, args, env⟩

def carryOut (id : Int32) (executable : Str) (args : List Str) : Script Int32 := do
  let cmd ← rawCmd w executable args
  let cmd ← locateExe w cmd
  let receivedAct ← RpcHandler.makeDecision w cmd
  let receivedCmd ← locateExe w receivedAct.cmd
  let ret ← run w ⟨receivedAct.type, receivedCmd⟩ id
  RpcHandler.finish w ret
  return ret

def refuse (errorMsg : Str) : Script Int32 := do
  update (RpcHandler.reportError w errorMsg)
  return -1

-- the block that the two `catch` clauses of `main` guard
def guarded (argv : List Str) : Script Int32 :=
  match readArguments argv with
  | .insufficient => refuse w (lit "Insufficient arguments in catter-proxy")
  | .invalid => refuse w (lit "Invalid arguments in catter-proxy")
  | .badParent why => throwing (.error (.std (w.stoiWhat why)))
  | .hookError parent msg => do
    let _ ← RpcHandler.create w (.ofInt parent)
    refuse w msg
  | .noCommand parent => do
    let _ ← RpcHandler.create w (.ofInt parent)
    throwing (.error (.std (lit "No command provided")))
  | .command parent executable args => do
    let id ← RpcHandler.create w (.ofInt parent)
    carryOut w id executable args

def main (argv : List Str) : Int32 × Talk :=
  match guarded w argv .start with
  | (.ok ret, s) => (ret, s)
  | (.error (.std what), s) => (-1, RpcHandler.reportError w what s)
  | (.error .other, s) =>
      (-1, RpcHandler.reportError w (lit "Unknown exception in catter-proxy.") s)

end

/-! How far the conversation has come. -/

inductive Stage
  | silent
  | created (parentId : Int32)
  | asked (parentId : Int32) (cmd : Command)
  | decoded (parentId : Int32) (cmd : Command) (act : Action)
  | launched (parentId : Int32) (cmd : Command) (act : Action)

def Stage.log : Stage → List TalkStep
  | .silent => []
  | .created parentId => [.wrote (.create parentId)]
  | .asked parentId cmd => [.wrote (.create parentId), .wrote (.makeDecision cmd)]
  | .decoded parentId cmd act =>
    [.wrote (.create parentId), .wrote (.makeDecision cmd), .decoded act]
  | .launched parentId cmd act =>
    [.wrote (.create parentId), .wrote (.makeDecision cmd), .decoded act, .launched]

def At (stage : Stage) (s : Talk) : Prop := s.log = stage.log

def Somewhere (s : Talk) : Prop := ∃ stage, At stage s

def Reported (s : Talk) : Prop :=
  ∃ stage : Stage, s.log = stage.log ∨ ∃ parentId id errorMsg, s.log =
    stage.log ++ [.wrote (.reportError parentId id errorMsg)]

def Ran (parentId : Int32) (cmd : Command) (act : Action) (s : Talk) : Prop :=
  At (.decoded parentId cmd act) s ∨ At (.launched parentId cmd act) s

def Finished (ret : Int32) (s : Talk) : Prop :=
  ∃ t parentId cmd act, Ran parentId cmd act t ∧ s.log = t.log ++ [.wrote (.finish ret)]

section

variable (w : World)

lemma write_triple (msg : Message) {P : Talk → Prop} (h : ∀ s, P s → Somewhere s) :
    Triple P (write w msg) (fun _ s => ∃ t, P t ∧ s.log = t.log ++ [.wrote msg]) Somewhere := by
  intro s hs
  rw [write]
  cases w.write s.writes with
  | ok _ => exact ⟨s, hs, rfl⟩
  | error e => exact h s hs

lemma at_next {stage next : Stage} {step : TalkStep} {s : Talk}
    (h : ∃ t, At stage t ∧ s.log = t.log ++ [step])
    (hnext : next.log = stage.log ++ [step]) : At next s := by
  obtain ⟨t, ht, hs⟩ := h
  rw [At, hs, hnext, show t.log = stage.log from ht]

lemma record_triple (step : TalkStep) {stage : Stage} :
    Triple (At stage) (record step)
      (fun _ s => ∃ t, At stage t ∧ s.log = t.log ++ [step]) Somewhere :=
  Triple.update fun s hs => ⟨s, hs, rfl⟩

lemma update_triple (f : Talk → Talk) (h : ∀ s, (f s).log = s.log) {stage : Stage} :
    Triple (At stage) (update f : Script Unit) (fun _ => At stage) Somewhere :=
  Triple.update fun s hs => (h s).trans hs

lemma locateExe_triple (cmd : Command) {stage : Stage} :
    Triple (At stage) (locateExe w cmd) (fun _ => At stage) Somewhere := by
  intro s hs
  rw [locateExe]
  cases w.locateExe s.locates cmd.executable with
  | ok executable => exact hs
  | error e => exact ⟨stage, hs⟩

lemma throwing_triple {α : Type} (e : Except Exn α) {P : Talk → Prop} (h : ∀ s, P s → Somewhere s) :
    Triple P (throwing e) (fun _ => P) Somewhere :=
  Triple.throwing (fun _ _ _ hs => hs) h

lemma create_triple (parentId : Int32) :
    Triple (At .silent) (RpcHandler.create w parentId)
      (fun _ => At (.created parentId)) Somewhere := by
  apply Triple.bind (update_triple (fun s => { s with parentId := parentId }) fun s => rfl)
  intro _
  apply Triple.bind (write_triple w (.create parentId) fun s hs => ⟨.silent, hs⟩)
  intro _
  apply Triple.bind (throwing_triple w.createReply fun s hs => ⟨.created parentId, at_next hs rfl⟩)
  intro nxtId
  have hstage :
    Triple (At (.created parentId)) (update fun s : Talk => { s with id := nxtId } : Script Unit)
      (fun _ => At (.created parentId)) Somewhere := update_triple _ fun s => rfl
  apply Triple.bind (hstage.weaken (fun s hs => at_next hs rfl) fun _ s hs => hs)
  intro _
  exact Triple.pure fun s hs => hs

lemma makeDecision_triple (parentId : Int32) (cmd : Command) :
    Triple (At (.created parentId)) (RpcHandler.makeDecision w cmd)
      (fun act => At (.decoded parentId cmd act))
      Somewhere := by
  apply Triple.bind (write_triple w (.makeDecision cmd) fun s hs => ⟨.created parentId, hs⟩)
  intro _
  apply Triple.bind (throwing_triple w.decisionReply fun s hs =>
    ⟨.asked parentId cmd, at_next hs rfl⟩)
  intro act
  have hrecord : Triple (At (.asked parentId cmd)) (record (.decoded act))
      (fun _ s => ∃ t, At (.asked parentId cmd) t ∧ s.log = t.log ++ [.decoded act]) Somewhere :=
        record_triple _
  apply Triple.bind (hrecord.weaken (fun s hs => at_next hs rfl) fun _ s hs => hs)
  intro _
  exact Triple.pure fun s hs => at_next hs rfl

lemma launch_triple {α : Type} (child : Command) (l : Attempt α) (parentId : Int32) (cmd : Command)
    (act : Action) :
    Triple (At (.decoded parentId cmd act)) (launch child l)
      (fun _ => Ran parentId cmd act) Somewhere := by
  have hresult : Triple (Ran parentId cmd act) (throwing l.result)
    (fun _ => Ran parentId cmd act) Somewhere :=
    throwing_triple l.result fun s hs => hs.elim (fun h => ⟨_, h⟩) fun h => ⟨_, h⟩
  rw [launch]
  cases l.started with
  | false => exact hresult.weaken (fun s hs => Or.inl hs) fun _ s hs => hs
  | true =>
    have hlaunched : Triple (At (.decoded parentId cmd act)) (update fun s :
      Talk => s.launched child : Script Unit)
        (fun _ => At (.launched parentId cmd act)) Somewhere :=
          Triple.update fun s hs => at_next ⟨s, hs, rfl⟩ rfl
    apply Triple.bind hlaunched
    intro _
    exact hresult.weaken (fun s hs => Or.inr hs) fun _ s hs => hs

lemma run_triple (ran : Action) (id parentId : Int32) (cmd : Command) (act : Action) :
    Triple (At (.decoded parentId cmd act)) (run w ran id)
      (fun _ => Ran parentId cmd act) Somewhere := by
  rw [run]
  split_ifs
  · apply Triple.bind (launch_triple _ _ parentId cmd act)
    intro ret
    exact Triple.pure fun s hs => hs
  · exact launch_triple _ _ parentId cmd act
  · exact Triple.pure fun s hs => Or.inl hs
  · exact Triple.pure fun s hs => Or.inl hs

lemma rawCmd_triple (executable : Str) (args : List Str) {stage : Stage} :
    Triple (At stage) (rawCmd w executable args) (fun _ => At stage) Somewhere := by
  apply Triple.bind (throwing_triple w.currentPath fun s hs => ⟨stage, hs⟩)
  intro workingDir
  apply Triple.bind (throwing_triple w.environment fun s hs => ⟨stage, hs⟩)
  intro env
  exact Triple.pure fun s hs => hs

lemma carryOut_triple (id parentId : Int32) (executable : Str) (args : List Str) :
    Triple (At (.created parentId)) (carryOut w id executable args) Finished Somewhere := by
  apply Triple.bind (rawCmd_triple w executable args)
  intro cmd
  apply Triple.bind (locateExe_triple w cmd)
  intro cmd
  apply Triple.bind (makeDecision_triple w parentId cmd)
  intro act
  apply Triple.bind (locateExe_triple w act.cmd)
  intro receivedCmd
  apply Triple.bind (run_triple w _ id parentId cmd act)
  intro ret
  apply Triple.bind (write_triple w (.finish ret) fun s hs =>
    hs.elim (fun h => ⟨_, h⟩) fun h => ⟨_, h⟩)
  intro _
  exact Triple.pure fun s ⟨t, ht, hs⟩ => ⟨t, parentId, cmd, act, ht, hs⟩

lemma reported_of_reportError {s : Talk} (errorMsg : Str) (h : Somewhere s) :
    Reported (RpcHandler.reportError w errorMsg s) := by
  obtain ⟨stage, hs⟩ := h
  refine ⟨stage, ?_⟩
  rw [RpcHandler.reportError, write]
  cases w.write s.writes with
  | ok _ =>
    refine Or.inr ⟨s.parentId, s.id, errorMsg, ?_⟩
    rw [← show s.log = stage.log from hs]
  | error e => exact Or.inl hs

lemma refuse_triple (errorMsg : Str) {stage : Stage} :
    Triple (At stage) (refuse w errorMsg) (fun ret s => ret = -1 ∧ Reported s) Somewhere := by
  have hreport : Triple (At stage) (update (RpcHandler.reportError w errorMsg) : Script Unit)
    (fun _ => Reported)
      Somewhere := Triple.update fun s hs => reported_of_reportError w errorMsg ⟨stage, hs⟩
  apply Triple.bind hreport
  intro _
  exact Triple.pure fun s hs => ⟨rfl, hs⟩

lemma guarded_triple (argv : List Str) :
    Triple (At .silent) (guarded w argv)
      (fun ret s => ret = -1 ∧ Reported s ∨ Finished ret s) Somewhere := by
  rw [guarded]
  cases readArguments argv with
  | insufficient => exact (refuse_triple w _).weaken (fun s hs => hs) fun _ s hs => Or.inl hs
  | invalid => exact (refuse_triple w _).weaken (fun s hs => hs) fun _ s hs => Or.inl hs
  | badParent why => exact fun s hs => ⟨.silent, hs⟩
  | hookError parent msg =>
    apply Triple.bind (create_triple w _)
    intro _
    exact (refuse_triple w _).weaken (fun s hs => hs) fun _ s hs => Or.inl hs
  | noCommand parent =>
    apply Triple.bind (create_triple w _)
    intro _
    exact fun s hs => ⟨_, hs⟩
  | command parent executable args =>
    apply Triple.bind (create_triple w _)
    intro id
    exact (carryOut_triple w id _ executable args).weaken (fun s hs => hs) fun _ s hs => Or.inr hs

lemma main_ends (argv : List Str) :
    (main w argv).1 = -1 ∧ Reported (main w argv).2 ∨ Finished (main w argv).1 (main w argv).2 := by
  have h := guarded_triple w argv .start rfl
  rw [main]
  match hrun : guarded w argv .start with
  | (.ok ret, s) =>
    rw [hrun] at h
    exact h
  | (.error (.std what), s) =>
    rw [hrun] at h
    exact Or.inl ⟨rfl, reported_of_reportError w what h⟩
  | (.error .other, s) =>
    rw [hrun] at h
    exact Or.inl ⟨rfl, reported_of_reportError w _ h⟩

end

def TalkStep.message : TalkStep → Option Message
  | .wrote msg => some msg
  | .decoded _ | .launched => none

def TalkStep.isDecoded : TalkStep → Bool
  | .decoded _ => true
  | .wrote _ | .launched => false

def requests (log : List TalkStep) : List Request :=
  (log.filterMap TalkStep.message).map Message.request

def words : List (List Request) :=
  [[Request.reportError], [Request.create, Request.reportError],
    [Request.create, Request.makeDecision, Request.reportError],
    [Request.create, Request.makeDecision, Request.finish]]

structure WellFormed (ret : Int32) (log : List TalkStep) : Prop where
  word : ∃ word ∈ words, requests log <+: word
  last : ∀ req ∈ (requests log).dropLast, req ≠ Request.finish ∧ req ≠ Request.reportError
  launchedOnce : log.count .launched ≤ 1
  launchedAfter : .launched ∉ log.takeWhile fun step => !step.isDecoded
  finished : ∀ retCode, .wrote (.finish retCode) ∈ log → ret = retCode
  unfinished : (∀ retCode, .wrote (.finish retCode) ∉ log) → ret = -1

def Spoken (reqs : List Request) : Prop :=
  (∃ word ∈ words, reqs <+: word) ∧ ∀ req ∈ reqs.dropLast, req ≠ Request.finish ∧
    req ≠ Request.reportError

instance decidableSpoken (reqs : List Request) : Decidable (Spoken reqs) :=
  inferInstanceAs (Decidable (_ ∧ _))

lemma requests_stage (stage : Stage) :
    ∃ k ≤ 2, requests stage.log = [Request.create, Request.makeDecision].take k := by
  cases stage with
  | silent => exact ⟨0, by omega, rfl⟩
  | created parentId => exact ⟨1, by omega, rfl⟩
  | asked parentId cmd => exact ⟨2, le_rfl, rfl⟩
  | decoded parentId cmd act => exact ⟨2, le_rfl, rfl⟩
  | launched parentId cmd act => exact ⟨2, le_rfl, rfl⟩

lemma requests_concat (log : List TalkStep) (msg : Message) :
    requests (log ++ [.wrote msg]) = requests log ++ [msg.request] := by
  simp [requests, TalkStep.message]

lemma spoken_stage (stage : Stage) : Spoken (requests stage.log) := by
  obtain ⟨k, hk, hreqs⟩ := requests_stage stage
  rw [hreqs]
  interval_cases k <;> decide

lemma spoken_reported (stage : Stage) (parentId id : Int32) (errorMsg : Str) :
    Spoken (requests (stage.log ++ [.wrote (.reportError parentId id errorMsg)])) := by
  obtain ⟨k, hk, hreqs⟩ := requests_stage stage
  rw [requests_concat, hreqs, Message.request]
  interval_cases k <;> decide

lemma launched_stage (stage : Stage) (msg : Option Message) :
    (stage.log ++ msg.toList.map TalkStep.wrote).count .launched ≤ 1 ∧
      .launched ∉ (stage.log ++ msg.toList.map TalkStep.wrote).takeWhile fun step =>
        !step.isDecoded := by
  cases stage <;> cases msg <;> simp [Stage.log, TalkStep.isDecoded]

lemma not_finish_stage (stage : Stage) (retCode : Int32) :
    .wrote (.finish retCode) ∉ stage.log := by
  cases stage <;> simp [Stage.log]

lemma wellFormed_stage (stage : Stage) : WellFormed (-1) stage.log := by
  have hlaunched := launched_stage stage none
  rw [Option.toList_none, List.map_nil, List.append_nil] at hlaunched
  exact ⟨(spoken_stage stage).1, (spoken_stage stage).2, hlaunched.1, hlaunched.2,
    fun retCode h => absurd h (not_finish_stage stage retCode), fun _ => rfl⟩

lemma wellFormed_reported (stage : Stage) (parentId id : Int32) (errorMsg : Str) :
    WellFormed (-1) (stage.log ++ [.wrote (.reportError parentId id errorMsg)]) := by
  have hlaunched := launched_stage stage (some (.reportError parentId id errorMsg))
  have hspoken := spoken_reported stage parentId id errorMsg
  refine ⟨hspoken.1, hspoken.2, hlaunched.1, hlaunched.2, ?_, fun _ => rfl⟩
  intro retCode h
  simp [not_finish_stage] at h

lemma wellFormed_finished {ret : Int32} {s : Talk} (h : Finished ret s) : WellFormed ret s.log := by
  obtain ⟨t, parentId, cmd, act, hran, hs⟩ := h
  obtain ⟨stage, ht, hreqs⟩ : ∃ stage : Stage, t.log = stage.log ∧
      requests stage.log = [Request.create, Request.makeDecision] :=
    hran.elim (fun h => ⟨_, h, rfl⟩) fun h => ⟨_, h, rfl⟩
  have hlaunched := launched_stage stage (some (.finish ret))
  have hspoken : Spoken (requests (stage.log ++ [.wrote (.finish ret)])) := by
    rw [requests_concat, hreqs, Message.request]
    decide
  rw [hs, ht]
  refine ⟨hspoken.1, hspoken.2, hlaunched.1, hlaunched.2, ?_, ?_⟩
  · intro retCode h
    simp only [List.mem_append, not_finish_stage, false_or, List.mem_singleton,
      TalkStep.wrote.injEq,
      Message.finish.injEq] at h
    exact h.symm
  · intro h
    exact absurd (List.mem_append_right _ (List.mem_singleton.mpr rfl)) (h ret)

theorem conversation_well_formed (w : World) (argv : List Str) :
    WellFormed (main w argv).1 (main w argv).2.log := by
  rcases main_ends w argv with ⟨hret, stage, hlog | ⟨parentId, id, errorMsg, hlog⟩⟩ | hfinished
  · rw [hret, hlog]
    exact wellFormed_stage stage
  · rw [hret, hlog]
    exact wellFormed_reported stage parentId id errorMsg
  · exact wellFormed_finished hfinished

end Catter.Proxy
