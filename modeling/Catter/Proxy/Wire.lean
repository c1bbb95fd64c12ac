import Catter.Library.Runs
import Catter.Proxy.Conversation
import Catter.Server.Messages

/-! A proxy and its connection to the server, with the octets between them in the
pieces that the pipe makes of them. -/

namespace Catter.Proxy

open Text Rpc Library.ExactReads Library.Triples Library.Runs Server

def Exn.what : Exn → Str
  | .std what => what
  | .other => lit "Unknown exception in catter-proxy."

-- a write with the octets that the pipe has not taken yet, or a read with what it still needs
inductive Stand
  | writing (msg : Message) (octets : List UInt8)
  | awaitingId (r : Uv.Read) (next : List UInt8 → Decoder Int32)
  | awaitingAction (r : Uv.Read) (next : List UInt8 → Decoder Action)
  | ended (ret : Int32)

structure Party where
  talk : Talk
  stand : Stand

def Talk.wrote (s : Talk) (msg : Message) : Talk :=
  { s with writes := s.writes + 1, log := s.log ++ [.wrote msg] }

def say (s : Talk) (msg : Message) : Party := ⟨s, .writing msg msg.serialize⟩

def fail (s : Talk) (e : Exn) : Party := say s (.reportError s.parentId s.id e.what)

section

variable (w : World) (executable : Str) (args : List Str)

/-! What `main` does between its reads and writes. -/

def ask (id : Int32) : Script Command := do
  update fun s => { s with id := id }
  let cmd ← rawCmd w executable args
  locateExe w cmd

def obey (act : Action) : Script Int32 := fun s => (do
  record (.decoded act)
  let receivedCmd ← locateExe w act.cmd
  run w ⟨act.type, receivedCmd⟩ s.id : Script Int32) s

def hearId (s : Talk) : Decoder Int32 → Party
  | .read n next => ⟨s, .awaitingId (.start n) next⟩
  | .done id =>
    match ask w executable args id s with
    | (.ok cmd, s) => say s (.makeDecision cmd)
    | (.error e, s) => fail s e

def hearAction (s : Talk) : Decoder Action → Party
  | .read n next => ⟨s, .awaitingAction (.start n) next⟩
  | .done act =>
    match obey w act s with
    | (.ok ret, s) => say s (.finish ret)
    | (.error e, s) => fail s e

def said (s : Talk) : Message → Party
  | .create _ => hearId w executable args s Serde.int32.deserialize
  | .makeDecision _ => hearAction w s Serde.action.deserialize
  | .finish ret => ⟨s, .ended ret⟩
  | .reportError _ _ _ => ⟨s, .ended (-1)⟩

def Party.transmit (p : Party) (k : ℕ) : Option (List UInt8 × Party) :=
  match p.stand with
  | .writing msg octets =>
    if 0 < k ∧ k ≤ octets.length then
      let rest := octets.drop k
      some (octets.take k,
        if rest = [] then said w executable args (p.talk.wrote msg) msg
          else ⟨p.talk, .writing msg rest⟩)
    else none
  | _ => none

end

structure Wire where
  party : Party
  server : Client
  taken : ℕ

namespace Wire

def back (s : Wire) : List UInt8 := s.server.sent.drop s.taken

inductive Event
  | transmit (k : ℕ)
  | serverReads (k : ℕ)
  | serverWakes (stale : List UInt8)
  | serverReplies
  | proxyReads (k : ℕ)
  | proxyWakes (stale : List UInt8)
  | proxyFails (code : ℤ)
  | hangUp

def Event.Calm : Event → Prop
  | .serverWakes _ | .proxyWakes _ => False
  | _ => True

def eof : ℤ := -4095

section

variable (w : World) (strerror : ℤ → Str) (heap : Heap) (executable : Str) (args : List Str)

def readFailed (s : Talk) (code : ℤ) : Party :=
  fail s (.std (lit "rpc_handler read failed: " ++ strerror code))

-- `report_error` drops the exception of its own write
def writeFailed (s : Talk) (msg : Message) (code : ℤ) : Party :=
  match msg with
  | .reportError _ _ _ => ⟨s, .ended (-1)⟩
  | _ => fail s (.std (lit "rpc_handler write failed: " ++ strerror code))

/-- libuv finds `k` octets for the proxy; the second component is what the callback took. -/
def hear {α : Type} (s : Talk) (r : Uv.Read) (next : List UInt8 → Decoder α)
    (stay : Uv.Read → Party)
    (go : Decoder α → Party) (octets : List UInt8) : Party × ℕ :=
  let (nread, octets, _) := Uv.callback r.allocCb (.data octets)
  let (r', resumed) := r.readCb nread octets
  (if resumed then if r'.result < 0 then readFailed strerror s r'.result else go (next r'.received)
    else stay r',
    octets.length)

/-- The callback with the count 0: what was not filled is `stale`. -/
def wake {α : Type} (s : Talk) (r : Uv.Read) (next : List UInt8 → Decoder α)
    (stay : Uv.Read → Party)
    (go : Decoder α → Party) (stale : List UInt8) : Party :=
  let (nread, octets, _) := Uv.callback r.allocCb .again
  let (r', resumed) := r.readCb nread octets
  if resumed then if r'.result < 0 then readFailed strerror s r'.result
    else go (next (r'.received ++ stale)) else stay r'

def start (id parent : Int32) : Wire where
  party := say { Talk.start with parentId := parent } (.create parent)
  server := Client.fresh heap id true
  taken := 0

-- The end of a pipe that the other side has closed fails, and so does a write to it.
def step (s : Wire) : Event → Option Wire
  | .transmit k => do
    let (octets, party) ← s.party.transmit w executable args k
    let server ← s.server.step heap (.arrive octets)
    return ⟨party, server, s.taken⟩
  | .serverReads k => do
    let server ← s.server.step heap (.readable k)
    return { s with server }
  | .serverWakes stale => do
    let server ← s.server.step heap (.wakeup stale)
    return { s with server }
  | .serverReplies => do
    let server ← s.server.step heap .writeDone
    return { s with server }
  | .proxyReads k =>
    if 0 < k ∧ k ≤ s.back.length then
      let talk := s.party.talk
      match s.party.stand with
      | .awaitingId r next =>
        let (party, n) := hear strerror talk r next (fun r' => ⟨talk, .awaitingId r' next⟩)
          (hearId w executable args talk) (s.back.take k)
        some ⟨party, s.server, s.taken + n⟩
      | .awaitingAction r next =>
        let (party, n) := hear strerror talk r next (fun r' => ⟨talk, .awaitingAction r' next⟩)
          (hearAction w talk) (s.back.take k)
        some ⟨party, s.server, s.taken + n⟩
      | _ => none
    else none
  | .proxyWakes stale =>
    let talk := s.party.talk
    match s.party.stand with
    | .awaitingId r next =>
      let party := wake strerror talk r next
        (fun r' => ⟨talk, .awaitingId r' next⟩) (hearId w executable args talk) stale
      if stale.length = r.remaining then some { s with party } else none
    | .awaitingAction r next =>
      let party := wake strerror talk r next
        (fun r' => ⟨talk, .awaitingAction r' next⟩) (hearAction w talk) stale
      if stale.length = r.remaining then some { s with party } else none
    | _ => none
  | .proxyFails code =>
    match s.server.phase, s.party.stand with
    | .ended, .writing msg _ => some { s with party := writeFailed strerror s.party.talk msg code }
    | .ended, .awaitingId _ _ | .ended, .awaitingAction _ _ =>
      if s.back = [] then some { s with party := readFailed strerror s.party.talk code } else none
    | _, _ => none
  | .hangUp =>
    match s.party.stand with
    | .ended _ =>
      if s.server.inbox = [] then do
        let server ← s.server.step heap (.readFails eof)
        return { s with server }
      else none
    | _ => none

def Over (s : Wire) : Prop := (∃ ret, s.party.stand = .ended ret) ∧ s.server.phase = .ended

end

end Wire

/-! The same conversation as one call of `main` that is answered as the server answers. -/

def opened (parent : Int32) : Talk := { Talk.start with parentId := parent }.wrote (.create parent)

def asked (w : World) (executable : Str) (args : List Str) (id parent : Int32) :
    Except Exn Command × Talk :=
  ask w executable args id (opened parent)

def served (w : World) (executable : Str) (args : List Str) (id parent : Int32) : World :=
  { w with
    write := fun _ => .ok ()
    createReply := .ok id
    decisionReply := (asked w executable args id parent).1.map fun cmd => ⟨Action.inject, cmd⟩ }

def messages (log : List TalkStep) : List Message := log.filterMap TalkStep.message

def failed (s : Talk) (e : Exn) : Int32 × Talk :=
  (-1, s.wrote (.reportError s.parentId s.id e.what))

lemma create_served {w : World} {executable : Str} {args : List Str} {id parent : Int32} :
    RpcHandler.create (served w executable args id parent) parent Talk.start =
      (.ok id, { opened parent with id := id }) := rfl

lemma ask_eq (w : World) (executable : Str) (args : List Str) (id : Int32) (s : Talk) :
    ask w executable args id s = (do
      let cmd ← rawCmd w executable args
      locateExe w cmd : Script Command) { s with id := id } := rfl

@[simp] lemma rawCmd_talk (w : World) (executable : Str) (args : List Str) (s : Talk) :
    (rawCmd w executable args s).2 = s := by
  rw [rawCmd, bind_run]
  simp only [throwing]
  cases w.currentPath with
  | error e => rfl
  | ok workingDir =>
    simp only [bind_run]
    cases w.environment with
    | error e => rfl
    | ok env => rfl

@[simp] lemma locateExe_talk (w : World) (cmd : Command) (s : Talk) :
    (locateExe w cmd s).2 = { s with locates := s.locates + 1 } := by
  rw [locateExe]
  cases w.locateExe s.locates cmd.executable with
  | error e => rfl
  | ok executable => rfl

lemma ask_talk (w : World) (executable : Str) (args : List Str) (id : Int32) (s : Talk) :
    ∃ locates, (ask w executable args id s).2 = { s with id := id, locates := locates } := by
  have hraw := rawCmd_talk w executable args { s with id := id }
  rw [ask_eq, bind_run]
  match hrun : rawCmd w executable args { s with id := id } with
  | (.error e, t) =>
    rw [hrun] at hraw
    exact ⟨s.locates, hraw⟩
  | (.ok cmd, t) =>
    rw [hrun] at hraw
    subst hraw
    exact ⟨s.locates + 1, locateExe_talk w cmd _⟩

section

variable {w : World} {executable : Str} {args : List Str} {id parent : Int32}

lemma makeDecision_served {cmd : Command} {s : Talk}
    (hasked : asked w executable args id parent = (.ok cmd, s)) :
    RpcHandler.makeDecision (served w executable args id parent) cmd s =
      (.ok ⟨Action.inject, cmd⟩,
        { s.wrote (.makeDecision cmd) with
          log := (s.wrote (.makeDecision cmd)).log ++ [.decoded ⟨Action.inject, cmd⟩] }) := by
  have hreply : (served w executable args id parent).decisionReply = .ok ⟨Action.inject, cmd⟩ := by
    rw [served, hasked]
    rfl
  have hwrite : write (served w executable args id parent) (.makeDecision cmd) s =
      (.ok (), s.wrote (.makeDecision cmd)) := rfl
  rw [RpcHandler.makeDecision, bind_ok hwrite, hreply, throwing_bind]
  rfl

lemma carryOut_served :
    carryOut (served w executable args id parent) id executable args
      { opened parent with id := id } =
      match asked w executable args id parent with
      | (.error e, s) => (.error e, s)
      | (.ok cmd, s) =>
        match obey w ⟨Action.inject, cmd⟩ (s.wrote (.makeDecision cmd)) with
        | (.error e, t) => (.error e, t)
        | (.ok ret, t) => (.ok ret, t.wrote (.finish ret)) := by
  obtain ⟨locates, htalk⟩ := ask_talk w executable args id (opened parent)
  have hparts : carryOut (served w executable args id parent) id executable args =
      (do
        let cmd ← (do
          let cmd ← rawCmd w executable args
          locateExe w cmd : Script Command)
        let receivedAct ← RpcHandler.makeDecision (served w executable args id parent) cmd
        let receivedCmd ← locateExe w receivedAct.cmd
        let ret ← run w ⟨receivedAct.type, receivedCmd⟩ id
        RpcHandler.finish (served w executable args id parent) ret
        return ret) := by
    rw [bind_assoc]
    rfl
  rw [hparts, bind_run, ← ask_eq, ← asked]
  rw [← asked] at htalk
  match hasked : asked w executable args id parent with
  | (.error e, s) => rfl
  | (.ok cmd, s) =>
    simp only
    rw [hasked] at htalk
    have hid : (s.wrote (.makeDecision cmd)).id = id := by
      rw [show s = _ from htalk]
      rfl
    have hobey : obey w ⟨Action.inject, cmd⟩ (s.wrote (.makeDecision cmd)) =
        (locateExe w cmd >>= fun receivedCmd => run w ⟨Action.inject, receivedCmd⟩ id)
          { s.wrote (.makeDecision cmd) with
            log := (s.wrote (.makeDecision cmd)).log ++ [.decoded ⟨Action.inject, cmd⟩] } := by
      rw [obey, hid, record, update_bind]
    rw [bind_ok (makeDecision_served hasked), ← bind_assoc, bind_run, ← hobey]
    match obey w ⟨Action.inject, cmd⟩ (s.wrote (.makeDecision cmd)) with
    | (.error e, t) => rfl
    | (.ok ret, t) => rfl

end

lemma main_served {w : World} {argv : List Str} {parent : ℤ} {executable : Str} {args : List Str}
    (id : Int32)
    (hargv : readArguments argv = .command parent executable args) :
    main (served w executable args id (.ofInt parent)) argv =
      match asked w executable args id (.ofInt parent) with
      | (.error e, s) => failed s e
      | (.ok cmd, s) =>
        match obey w ⟨Action.inject, cmd⟩ (s.wrote (.makeDecision cmd)) with
        | (.error e, t) => failed t e
        | (.ok ret, t) => (ret, t.wrote (.finish ret)) := by
  have hguarded : guarded (served w executable args id (.ofInt parent)) argv Talk.start =
      carryOut (served w executable args id (.ofInt parent)) id executable args
        { opened (.ofInt parent) with id := id } := by
    rw [guarded, hargv]
    exact bind_ok create_served
  rw [main, hguarded, carryOut_served]
  rcases asked w executable args id (.ofInt parent) with ⟨(what | other) | cmd, s⟩
  · rfl
  · rfl
  · rcases hobey : obey w ⟨Action.inject, cmd⟩ (s.wrote (.makeDecision cmd)) with
      ⟨(what | other) | ret, t⟩
    · simp only [hobey]
      rfl
    · simp only [hobey]
      rfl
    · simp only [hobey]

/-! The messages in the log: `main` writes none between its reads and writes. -/

def HasSaid (msgs : List Message) (s : Talk) : Prop := messages s.log = msgs

section

variable (w : World) {msgs : List Message}

@[simp] lemma messages_wrote (s : Talk) (msg : Message) :
    messages (s.wrote msg).log = messages s.log ++ [msg] := by
  simp [messages, Talk.wrote, TalkStep.message]

lemma messages_launched (s : Talk) (cmd : Command) :
    messages (s.launched cmd).log = messages s.log := by
  rw [Talk.launched, messages, List.filterMap_append, List.filterMap_cons_none rfl,
    List.filterMap_nil, List.append_nil]
  rfl

lemma record_silent {step : TalkStep} (hstep : step.message = none) :
    Triple (HasSaid msgs) (record step) (fun _ => HasSaid msgs) (HasSaid msgs) := by
  apply Triple.update
  intro s hs
  rw [HasSaid, messages, List.filterMap_append, List.filterMap_cons_none hstep, List.filterMap_nil,
    List.append_nil]
  exact hs

lemma locateExe_silent (cmd : Command) :
    Triple (HasSaid msgs) (locateExe w cmd) (fun _ => HasSaid msgs) (HasSaid msgs) := by
  intro s hs
  rw [locateExe]
  cases w.locateExe s.locates cmd.executable with
  | error e => exact hs
  | ok executable => exact hs

lemma launch_silent {α : Type} (cmd : Command) (l : Attempt α) :
    Triple (HasSaid msgs) (launch cmd l) (fun _ => HasSaid msgs) (HasSaid msgs) := by
  have hresult : Triple (HasSaid msgs) (throwing l.result) (fun _ => HasSaid msgs) (HasSaid msgs) :=
    Triple.throwing (fun _ _ _ hs => hs) fun s hs => hs
  rw [launch]
  cases l.started with
  | false => exact hresult
  | true =>
    have hlaunched : Triple (HasSaid msgs) (update fun s : Talk => s.launched cmd : Script Unit)
      (fun _ => HasSaid msgs)
        (HasSaid msgs) := Triple.update fun s hs => (messages_launched s cmd).trans hs
    apply Triple.bind hlaunched
    intro _
    exact hresult

lemma run_silent (act : Action) (id : Int32) :
    Triple (HasSaid msgs) (run w act id) (fun _ => HasSaid msgs) (HasSaid msgs) := by
  rw [run]
  split_ifs
  · apply Triple.bind (launch_silent _ _)
    intro ret
    exact Triple.pure fun s hs => hs
  · exact launch_silent _ _
  · exact Triple.pure fun s hs => hs
  · exact Triple.pure fun s hs => hs

lemma messages_obey (act : Action) (s : Talk) : messages (obey w act s).2.log = messages s.log := by
  have hparts : Triple (HasSaid (messages s.log)) (do
      record (.decoded act)
      let receivedCmd ← locateExe w act.cmd
      run w ⟨act.type, receivedCmd⟩ s.id : Script Int32)
        (fun _ => HasSaid (messages s.log)) (HasSaid (messages s.log)) := by
    apply Triple.bind (record_silent rfl)
    intro _
    apply Triple.bind (locateExe_silent w act.cmd)
    intro receivedCmd
    exact run_silent w _ s.id
  have hrun := hparts s rfl
  rw [obey]
  match hresult : (do
      record (.decoded act)
      let receivedCmd ← locateExe w act.cmd
      run w ⟨act.type, receivedCmd⟩ s.id : Script Int32) s with
  | (.ok ret, t) =>
    rw [hresult] at hrun
    exact hrun
  | (.error e, t) =>
    rw [hresult] at hrun
    exact hrun

lemma messages_asked (executable : Str) (args : List Str) (id parent : Int32) :
    messages (asked w executable args id parent).2.log = [.create parent] := by
  obtain ⟨locates, htalk⟩ := ask_talk w executable args id (opened parent)
  rw [asked, htalk]
  rfl

end

end Catter.Proxy
