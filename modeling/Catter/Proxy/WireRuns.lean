import Catter.Proxy.Wire
import Catter.Server.Clients

/-! Every schedule of the pipe brings the conversation of a proxy with the server to
its end, and to the same end. -/

namespace Catter.Proxy

open Text Rpc Library.ExactReads Library.Triples Library.Runs Server

/-- What an awaiter of `uv::async::read` and the reads behind it still need. -/
def pending {α : Type} (r : Uv.Read) (next : List UInt8 → Decoder α) : Decoder α :=
  .read r.remaining fun bs => next (r.received ++ bs)

def replies (id : Int32) (msgs : List Message) : List Reply :=
  msgs.filterMap fun msg => respond id (.known msg)

section

variable {α : Type} {r : Uv.Read} {next : List UInt8 → Decoder α} {a : α}

lemma hear_eq (strerror : ℤ → Str) (s : Talk) (next : List UInt8 → Decoder α)
    (stay : Uv.Read → Party)
    (go : Decoder α → Party) {chunk : List UInt8}
    (hr : 0 < r.remaining) (hresult : 0 ≤ r.result) (hne : chunk ≠ []) :
    ∃ got, got ≠ [] ∧ got <+: chunk ∧ got.length ≤ r.remaining ∧
      Wire.hear strerror s r next stay go chunk =
        (if r.remaining = got.length then go (next (r.received ++ got))
          else stay ⟨r.received ++ got, r.remaining - got.length, r.result + got.length⟩,
            got.length) := by
  have hoffered : r.allocCb ≠ 0 := Nat.pos_iff_ne_zero.mp hr
  obtain ⟨got, hgot⟩ : ∃ got, got = chunk.take r.remaining := ⟨_, rfl⟩
  have hlen : got.length ≤ r.remaining := by
    rw [hgot, List.length_take]
    omega
  have hgotne : got ≠ [] := by
    rw [hgot, Ne, List.take_eq_nil_iff]
    rintro (hzero | hnil)
    · omega
    · exact hne hnil
  obtain ⟨left, hcallback⟩ : ∃ left, Uv.callback r.allocCb (.data chunk) =
    ((got.length : ℤ), got, left) := by
    rw [Uv.callback, if_neg hoffered, hgot]
    exact ⟨_, rfl⟩
  refine ⟨got, hgotne, hgot ▸ List.take_prefix _ _, hlen, ?_⟩
  simp only [Wire.hear, hcallback, Uv.readCb_data r got hgotne, beq_iff_eq]
  by_cases hall : r.remaining = got.length
  · rw [if_pos (by omega), if_neg (by omega), if_pos hall]
  · rw [if_neg (by omega), if_neg hall]

lemma pending_taken {got rest : List UInt8} (h : Expects (pending r next) (got ++ rest) a)
    (hle : got.length ≤ r.remaining) :
    (r.remaining = got.length ∧ Expects (next (r.received ++ got)) rest a) ∨
      r.remaining ≠ got.length ∧
        Expects (pending ⟨r.received ++ got, r.remaining - got.length, r.result + got.length⟩ next)
          rest a := by
  by_cases hall : r.remaining = got.length
  · exact Or.inl ⟨hall, h.complete hall.symm⟩
  · have hpartly := h.partly (by omega)
    simp only [← List.append_assoc] at hpartly
    exact Or.inr ⟨hall, hpartly⟩

end

section

variable (w : World) (heap : Heap) (executable : Str) (args : List Str) (id parent : Int32)

inductive Turn : Talk → Message → Prop
  | create : Turn { Talk.start with parentId := parent } (.create parent)
  | decide {cmd : Command} {s : Talk} (hasked : asked w executable args id parent = (.ok cmd, s)) :
      Turn s (.makeDecision cmd)
  | askFailed {e : Exn} {s : Talk} (hasked : asked w executable args id parent = (.error e, s)) :
      Turn s (.reportError s.parentId s.id e.what)
  | finish {cmd : Command} {s t : Talk} {ret : Int32}
      (hasked : asked w executable args id parent = (.ok cmd, s))
      (hobeyed : obey w ⟨Action.inject, cmd⟩ (s.wrote (.makeDecision cmd)) = (.ok ret, t)) :
    Turn t (.finish ret)
  | obeyFailed {cmd : Command} {s t : Talk} {e : Exn}
      (hasked : asked w executable args id parent = (.ok cmd, s))
      (hobeyed : obey w ⟨Action.inject, cmd⟩ (s.wrote (.makeDecision cmd)) = (.error e, t)) :
      Turn t (.reportError t.parentId t.id e.what)

def heard (s : Talk) : Reply → Party
  | .created k => hearId w executable args s (.done k)
  | .decided act => hearAction w s (.done act)

inductive Awaits : Stand → List UInt8 → Reply → Prop
  | id {r : Uv.Read} {next : List UInt8 → Decoder Int32} {octets : List UInt8} {k :
    Int32} (hresult : 0 ≤ r.result)
      (h : Expects (pending r next) octets k) : Awaits (.awaitingId r next) octets (.created k)
  | action {r : Uv.Read} {next : List UInt8 → Decoder Action} {octets : List UInt8} {act : Action}
      (hresult : 0 ≤ r.result) (h : Expects (pending r next) octets act) :
      Awaits (.awaitingAction r next) octets (.decided act)

end

namespace Turn

variable {w : World} {heap : Heap} {executable : Str} {args argv : List Str} {id : Int32}
    {parent : ℤ} {s : Talk}
  {msg : Message}

lemma foretold (hargv : readArguments argv = .command parent executable args)
    (h : Turn w executable args id (.ofInt parent) s msg) :
    messages s.log ++ [msg] <+: messages
      (main (served w executable args id (.ofInt parent)) argv).2.log ∧
      (respond id (.known msg) = none →
        messages s.log ++ [msg] =
          messages (main (served w executable args id (.ofInt parent)) argv).2.log ∧
        said w executable args (s.wrote msg) msg =
          ⟨s.wrote msg, .ended (main (served w executable args id (.ofInt parent)) argv).1⟩) := by
  have hmain := main_served (w := w) id hargv
  have hfirst := messages_asked w executable args id (.ofInt parent)
  have hsecond : ∀ {cmd s}, asked w executable args id (.ofInt parent) = (.ok cmd, s) →
      messages s.log ++ [.makeDecision cmd] <+:
        messages (main (served w executable args id (.ofInt parent)) argv).2.log := by
    intro cmd s hasked
    have hquiet := messages_obey w ⟨Action.inject, cmd⟩ (s.wrote (.makeDecision cmd))
    simp only [hasked] at hmain
    match hobeyed : obey w ⟨Action.inject, cmd⟩ (s.wrote (.makeDecision cmd)) with
    | (.ok ret, t) =>
      simp only [hobeyed, messages_wrote] at hmain hquiet
      rw [hmain, messages_wrote, hquiet]
      exact List.prefix_append _ _
    | (.error e, t) =>
      simp only [hobeyed, failed, messages_wrote] at hmain hquiet
      rw [hmain, messages_wrote, hquiet]
      exact List.prefix_append _ _
  cases h with
  | create =>
    refine ⟨?_, fun hnone => nomatch hnone⟩
    match hasked : asked w executable args id (.ofInt parent) with
    | (.ok cmd, s) =>
      rw [hasked] at hfirst
      have hboth := hsecond hasked
      rw [hfirst] at hboth
      exact (List.prefix_append _ _).trans hboth
    | (.error e, s) =>
      simp only [hasked, failed] at hmain hfirst
      rw [hmain, messages_wrote, hfirst]
      exact List.prefix_append _ _
  | decide hasked => exact ⟨hsecond hasked, fun hnone => nomatch hnone⟩
  | askFailed hasked =>
    simp only [hasked, failed] at hmain
    rw [hmain, messages_wrote]
    exact ⟨List.prefix_rfl, fun _ => ⟨rfl, rfl⟩⟩
  | finish hasked hobeyed =>
    simp only [hasked, hobeyed] at hmain
    rw [hmain, messages_wrote]
    exact ⟨List.prefix_rfl, fun _ => ⟨rfl, rfl⟩⟩
  | obeyFailed hasked hobeyed =>
    simp only [hasked, hobeyed, failed] at hmain
    rw [hmain, messages_wrote]
    exact ⟨List.prefix_rfl, fun _ => ⟨rfl, rfl⟩⟩

lemma next {parent : Int32} {rep : Reply} (h : Turn w executable args id parent s msg)
    (hrespond : respond id (.known msg) = some rep) :
    ∃ t msg', heard w executable args (s.wrote msg) rep = say t msg' ∧
      Turn w executable args id parent t msg' ∧
      messages t.log = messages s.log ++ [msg] := by
  have hfirst := messages_asked w executable args id parent
  cases h with
  | create =>
    cases hrespond
    rcases hasked : asked w executable args id parent with ⟨e | cmd, s⟩
    · rw [hasked] at hfirst
      refine ⟨s, _, ?_, .askFailed hasked, hfirst⟩
      rw [asked, opened] at hasked
      simp only [heard, hearId, hasked, fail]
    · rw [hasked] at hfirst
      refine ⟨s, _, ?_, .decide hasked, hfirst⟩
      rw [asked, opened] at hasked
      simp only [heard, hearId, hasked]
  | @decide cmd s hasked =>
    cases hrespond
    have hquiet := messages_obey w ⟨Action.inject, cmd⟩ (s.wrote (.makeDecision cmd))
    rcases hobeyed : obey w ⟨Action.inject, cmd⟩ (s.wrote (.makeDecision cmd)) with ⟨e | ret, t⟩
    · rw [hobeyed, messages_wrote] at hquiet
      refine ⟨t, _, ?_, .obeyFailed hasked hobeyed, hquiet⟩
      simp only [heard, hearAction, hobeyed, fail]
    · rw [hobeyed, messages_wrote] at hquiet
      refine ⟨t, _, ?_, .finish hasked hobeyed, hquiet⟩
      simp only [heard, hearAction, hobeyed]
  | askFailed hasked => cases hrespond
  | finish hasked hobeyed => cases hrespond
  | obeyFailed hasked hobeyed => cases hrespond

end Turn

section

variable (w : World) (executable : Str) (args : List Str) {heap : Heap} {id : Int32}

lemma said_not_writing (s : Talk) (msg : Message) :
    ∀ m octets, (said w executable args s msg).stand ≠ .writing m octets := by
  intro m octets h
  cases msg <;> exact nomatch h

lemma action_expects {act : Action} (h : CommandPasses heap act.cmd) :
    Expects Serde.action.deserialize (Serde.action.serialize act) act := by
  have hfits : act.cmd.Fits := ⟨h.workingDir.fits, h.executable.fits,
    ⟨h.args.fits, fun s hs => (h.args.each s hs).fits⟩,
      ⟨h.env.fits, fun s hs => (h.env.each s hs).fits⟩⟩
  apply action_lawful.expects hfits
  have hreads := action_readsNothing act [] hfits
  rw [List.append_nil] at hreads
  rw [hreads]
  rintro (hempty | hempty | hempty | hempty)
  · exact h.workingDir.nonempty hempty
  · exact h.executable.nonempty hempty
  · exact (h.args.each [] hempty).nonempty rfl
  · exact (h.env.each [] hempty).nonempty rfl

lemma said_awaits {s : Talk} {msg : Message} {rep : Reply} (hpasses : MessagePasses heap msg)
    (hrespond : respond id (.known msg) = some rep) :
    ∃ stand, said w executable args s msg = ⟨s, stand⟩ ∧ Awaits stand rep.serialize rep := by
  cases msg with
  | create parentId =>
    cases hrespond
    exact ⟨_, rfl, .id le_rfl (int32_expects id)⟩
  | makeDecision cmd =>
    cases hrespond
    have hcmd : CommandPasses heap (⟨Action.inject, cmd⟩ : Rpc.Action).cmd := hpasses
    exact ⟨_, rfl, .action le_rfl (action_expects hcmd)⟩
  | finish retCode => exact nomatch hrespond
  | reportError parentId cmdId errorMsg => exact nomatch hrespond

lemma hear_awaits {α : Type} {r : Uv.Read} {next : List UInt8 → Decoder α} {a : α}
    {back : List UInt8} {k : ℕ}
    (strerror : ℤ → Str) (s : Talk) (stay : Uv.Read → Party) (go : Decoder α → Party)
    (hresult : 0 ≤ r.result) (hneeds : Expects (pending r next) back a) (hk : 0 < k)
    (hle : k ≤ back.length) :
    ∃ got rest party, got ≠ [] ∧ back = got ++ rest ∧
      Wire.hear strerror s r next stay go (back.take k) = (party, got.length) ∧
      ((∃ r', 0 ≤ r'.result ∧ party = stay r' ∧ Expects (pending r' next) rest a) ∨
        (∃ n next', party = go (.read n next') ∧ Expects (.read n next') rest a) ∨
        rest = [] ∧ party = go (.done a)) := by
  have hne : back.take k ≠ [] := List.ne_nil_of_length_pos (by rw [List.length_take]; omega)
  obtain ⟨got, hgot, hprefix, hlen, hhear⟩ :=
    hear_eq strerror s next stay go hneeds.read_pos hresult hne
  obtain ⟨rest, rfl⟩ := hprefix.trans (List.take_prefix k back)
  refine ⟨got, rest, _, hgot, rfl, hhear, ?_⟩
  rcases pending_taken hneeds hlen with ⟨hall, hrest⟩ | ⟨hall, hrest⟩
  · rw [if_pos hall]
    match hdecoder : next (r.received ++ got) with
    | .done b =>
      rw [hdecoder] at hrest
      obtain ⟨rfl, rfl⟩ := expects_done_iff.mp hrest
      exact Or.inr (Or.inr ⟨rfl, rfl⟩)
    | .read n next' =>
      rw [hdecoder] at hrest
      exact Or.inr (Or.inl ⟨n, next', rfl, hrest⟩)
  · rw [if_neg hall]
    refine Or.inl ⟨_, ?_, rfl, hrest⟩
    simp only
    omega

end

namespace Wire

section

variable (w : World) (strerror : ℤ → Str) (heap : Heap) (executable : Str) (args : List Str)
    (id parent : Int32)

inductive Stage (t : Wire) : Prop
  | request {s : Talk} {msg : Message} {out : List UInt8} {r : Uv.Read} {next :
    List UInt8 → Decoder (Option Incoming)}
      (turn : Turn w executable args id parent s msg)
      (hparty : t.party = if out = [] then said w executable args (s.wrote msg) msg
        else ⟨s, .writing msg out⟩)
      (hphase : t.server.phase = .reading r next) (hresult : 0 ≤ r.result)
      (hneeds : Expects (pending r next) (t.server.inbox ++ out) (some (.known msg)))
      (hoctets : t.server.consumed ++ (t.server.inbox ++ out) =
        (messages s.log ++ [msg]).flatMap Message.serialize)
      (hreplies : t.server.replies = replies id (messages s.log))
      (hback : t.taken = t.server.sent.length)
  | reply {s : Talk} {msg : Message} {rep : Reply} (turn : Turn w executable args id parent s msg)
      (hrespond : respond id (.known msg) = some rep)
      (hparty : t.party = said w executable args (s.wrote msg) msg)
      (hphase : t.server.phase = .writing rep)
      (hinbox : t.server.inbox = [])
      (hoctets : t.server.consumed = (messages s.log ++ [msg]).flatMap Message.serialize)
      (hreplies : t.server.replies = replies id (messages s.log))
      (hback : t.taken = t.server.sent.length)
  | answer {s : Talk} {msg : Message} {rep : Reply} {stand : Stand}
      (turn : Turn w executable args id parent s msg)
      (hrespond : respond id (.known msg) = some rep) (hparty : t.party = ⟨s.wrote msg, stand⟩)
      (hawaits : Awaits stand t.back rep) (hphase : t.server.phase = listening heap)
      (hinbox : t.server.inbox = [])
      (hoctets : t.server.consumed = (messages s.log ++ [msg]).flatMap Message.serialize)
      (hreplies : t.server.replies = replies id (messages s.log ++ [msg]))
      (htaken : t.taken ≤ t.server.sent.length)
  | done {s : Talk} {msg : Message} (turn : Turn w executable args id parent s msg)
      (hlast : respond id (.known msg) = none)
      (hparty : t.party = said w executable args (s.wrote msg) msg)
      (hphase : t.server.phase = listening heap ∨ t.server.phase = .ended)
      (hinbox : t.server.inbox = [])
      (hoctets : t.server.consumed = (messages s.log ++ [msg]).flatMap Message.serialize)
      (hreplies : t.server.replies = replies id (messages s.log))
      (hback : t.taken = t.server.sent.length)

structure Sound (t : Wire) : Prop where
  number : t.server.id = id
  sent : t.server.sent = t.server.replies.flatMap Reply.serialize
  stage : Stage w heap executable args id parent t

/-- What has moved so far: every octet once into the pipe and once out of it, and every reply. -/
def moved (t : Wire) : ℕ :=
  2 * t.server.consumed.length + t.server.inbox.length + t.server.replies.length + t.taken +
    match t.server.phase with
    | .ended => 1
    | _ => 0

end

section

variable {w : World} {strerror : ℤ → Str} {heap : Heap} {executable : Str} {args : List Str}
    {id parent : Int32}
  {t u : Wire}

lemma stage_say {s : Talk} {msg : Message} (turn : Turn w executable args id parent s msg)
    (hpasses : MessagePasses heap msg) (hparty : t.party = say s msg)
    (hphase : t.server.phase = listening heap)
    (hinbox : t.server.inbox = [])
    (hoctets : t.server.consumed = (messages s.log).flatMap Message.serialize)
    (hreplies : t.server.replies = replies id (messages s.log))
    (hback : t.taken = t.server.sent.length) :
    Stage w heap executable args id parent t := by
  have hone : (Serde.request.serialize msg.request).length = 1 :=
    Library.LittleEndian.encode_length 1 _
  have hne : msg.serialize ≠ [] := by
    apply List.ne_nil_of_length_pos
    rw [Message.serialize, List.length_append]
    omega
  have hneeds := message_expects hpasses
  have hfirst : t.party =
      if msg.serialize = [] then said w executable args (s.wrote msg) msg
        else ⟨s, .writing msg msg.serialize⟩ := by
    rw [if_neg hne, hparty, say]
  refine .request turn hfirst hphase le_rfl ?_ ?_ hreplies hback
  · rw [hinbox, List.nil_append]
    exact hneeds
  · rw [hinbox, hoctets, List.flatMap_append, List.flatMap_singleton, List.nil_append]

lemma sound_start : Sound w heap executable args id parent (start heap id parent) where
  number := rfl
  sent := rfl
  stage := stage_say .create trivial rfl rfl rfl rfl rfl rfl

lemma party_transmit_cases {p q : Party} {k : ℕ} {sent : List UInt8}
    (h : p.transmit w executable args k = some (sent, q)) :
    ∃ msg octets, p.stand = .writing msg octets ∧ 0 < k ∧ k ≤ octets.length ∧ sent = octets.take k ∧
      q = if octets.drop k = [] then said w executable args (p.talk.wrote msg) msg
        else ⟨p.talk, .writing msg (octets.drop k)⟩ := by
  cases hstand : p.stand with
  | writing msg octets =>
    simp only [Party.transmit, hstand, Option.ite_none_right_eq_some, Option.some.injEq,
      Prod.mk.injEq] at h
    obtain ⟨hk, rfl, rfl⟩ := h
    exact ⟨msg, octets, rfl, hk.1, hk.2, rfl, rfl⟩
  | awaitingId r next => simp [Party.transmit, hstand] at h
  | awaitingAction r next => simp [Party.transmit, hstand] at h
  | ended ret => simp [Party.transmit, hstand] at h

lemma transmit_cases {k : ℕ}
    (hstep : t.step w strerror heap executable args (.transmit k) = some u) :
    ∃ msg octets, t.party.stand = .writing msg octets ∧ 0 < k ∧ k ≤ octets.length ∧
      u = ⟨if octets.drop k = [] then said w executable args (t.party.talk.wrote msg) msg
          else ⟨t.party.talk, .writing msg (octets.drop k)⟩,
        { t.server with inbox := t.server.inbox ++ octets.take k }, t.taken⟩ := by
  simp only [step, Option.bind_eq_bind, Option.bind_eq_some_iff, Client.step, Option.pure_def,
    Option.some.injEq] at hstep
  obtain ⟨⟨sent, party⟩, htransmit, server, rfl, rfl⟩ := hstep
  obtain ⟨msg, octets, hstand, hk, hle, rfl, rfl⟩ := party_transmit_cases htransmit
  exact ⟨msg, octets, hstand, hk, hle, rfl⟩

lemma sound_transmit {k : ℕ} (h : Sound w heap executable args id parent t)
    (hstep : t.step w strerror heap executable args (.transmit k) = some u) :
    Sound w heap executable args id parent u ∧ t.moved < u.moved := by
  obtain ⟨msg, octets, hstand, hk, hle, rfl⟩ := transmit_cases hstep
  cases h.stage with
  | @request s msg' out r next turn hparty hphase hresult hneeds hoctets hreplies hback =>
    have hout : out ≠ [] := by
      rintro rfl
      rw [if_pos rfl] at hparty
      rw [hparty] at hstand
      exact said_not_writing w executable args _ _ _ _ hstand
    rw [if_neg hout] at hparty
    rw [hparty] at hstand ⊢
    simp only [Stand.writing.injEq] at hstand
    obtain ⟨rfl, rfl⟩ := hstand
    have hsplit : t.server.inbox ++ out.take k ++ out.drop k = t.server.inbox ++ out := by
      rw [List.append_assoc, List.take_append_drop]
    rw [← hsplit] at hneeds hoctets
    refine ⟨⟨h.number, h.sent, .request turn rfl hphase hresult hneeds hoctets hreplies hback⟩, ?_⟩
    simp only [moved, List.length_append, List.length_take]
    omega
  | reply turn hrespond hparty =>
    rw [hparty] at hstand
    exact absurd hstand (said_not_writing w executable args _ _ _ _)
  | answer turn hrespond hparty hawaits =>
    rw [hparty] at hstand
    subst hstand
    exact nomatch hawaits
  | done turn hlast hparty =>
    rw [hparty] at hstand
    exact absurd hstand (said_not_writing w executable args _ _ _ _)

lemma serverReads_cases {k : ℕ}
    (hstep : t.step w strerror heap executable args (.serverReads k) = some u) :
    ∃ r next, t.server.phase = .reading r next ∧ 0 < k ∧ k ≤ t.server.inbox.length ∧
      u = { t with server := t.server.deliver heap r next k } := by
  simp only [step, Option.bind_eq_bind, Option.bind_eq_some_iff, Option.pure_def,
    Option.some.injEq] at hstep
  obtain ⟨server, hserver, rfl⟩ := hstep
  cases hphase : t.server.phase with
  | reading r next =>
    simp only [Client.step, hphase, Option.ite_none_right_eq_some, Option.some.injEq] at hserver
    obtain ⟨⟨hk, hle⟩, rfl⟩ := hserver
    exact ⟨r, next, rfl, hk, hle, rfl⟩
  | writing rep => simp [Client.step, hphase] at hserver
  | ended => simp [Client.step, hphase] at hserver

lemma sound_serverReads {k : ℕ} (h : Sound w heap executable args id parent t)
    (hstep : t.step w strerror heap executable args (.serverReads k) = some u) :
    Sound w heap executable args id parent u ∧ t.moved < u.moved := by
  obtain ⟨r', next', hreading, hk, hle, rfl⟩ := serverReads_cases hstep
  cases h.stage with
  | @request s msg out r next turn hparty hphase hresult hneeds hoctets hreplies hback =>
    have hsame := hreading.symm.trans hphase
    simp only [Phase.reading.injEq] at hsame
    obtain ⟨rfl, rfl⟩ := hsame
    obtain ⟨octets, hne, hlen, hinbox, hdeliver⟩ :=
      Client.deliver_eq heap next' hk hle hneeds.read_pos hresult
    obtain ⟨rest, hrest⟩ : ∃ rest, rest = t.server.inbox.drop octets.length := ⟨_, rfl⟩
    have hmore := List.length_pos_iff.mpr hne
    have hcount : t.server.inbox.length = octets.length + rest.length := by
      rw [← List.length_append, hrest, ← hinbox]
    rw [hinbox, ← hrest, List.append_assoc] at hneeds hoctets
    rw [← List.append_assoc] at hoctets
    rw [hdeliver, ← hrest]
    refine ⟨⟨h.number, h.sent, ?_⟩, ?_⟩
    · rcases pending_taken hneeds hlen with ⟨hall, hstill⟩ | ⟨hall, hstill⟩
      · rw [if_pos hall]
        match hdecoder : next' (r'.received ++ octets) with
        | .done value =>
          rw [hdecoder, expects_done_iff, List.append_eq_nil_iff] at hstill
          obtain ⟨rfl, rfl, rfl⟩ := hstill
          rw [if_pos rfl] at hparty
          rw [List.append_nil, List.append_nil] at hoctets
          cases hrespond : respond t.server.id (.known msg) with
          | some rep =>
            refine .reply turn (h.number ▸ hrespond) hparty ?_ rfl hoctets hreplies hback
            simp only [proceed, hrespond]
          | none =>
            refine .done turn (h.number ▸ hrespond) hparty (Or.inl ?_) rfl hoctets hreplies hback
            simp only [proceed, hrespond]
        | .read n next'' =>
          rw [hdecoder] at hstill
          exact .request turn hparty rfl le_rfl hstill hoctets hreplies hback
      · rw [if_neg hall]
        refine .request turn hparty rfl ?_ hstill hoctets hreplies hback
        simp only
        omega
    · simp only [moved, hphase, List.length_append]
      omega
  | reply turn hrespond hparty hphase => exact nomatch hreading.symm.trans hphase
  | answer turn hrespond hparty hawaits hphase hinbox =>
    rw [hinbox, List.length_nil] at hle
    omega
  | done turn hlast hparty hphase hinbox =>
    rw [hinbox, List.length_nil] at hle
    omega

lemma serverReplies_cases (hstep : t.step w strerror heap executable args .serverReplies = some u) :
    ∃ rep, t.server.phase = .writing rep ∧
      u = { t with server := { t.server with
        phase := listening heap
        replies := t.server.replies ++ [rep]
        sent := t.server.sent ++ rep.serialize } } := by
  simp only [step, Option.bind_eq_bind, Option.bind_eq_some_iff, Option.pure_def,
    Option.some.injEq] at hstep
  obtain ⟨server, hserver, rfl⟩ := hstep
  cases hphase : t.server.phase with
  | reading r next => simp [Client.step, hphase] at hserver
  | writing rep =>
    simp only [Client.step, hphase, Option.some.injEq] at hserver
    exact ⟨rep, rfl, by rw [← hserver]⟩
  | ended => simp [Client.step, hphase] at hserver

lemma replies_concat {msgs : List Message} {msg : Message} {rep : Reply}
    (hrespond : respond id (.known msg) = some rep) :
    replies id (msgs ++ [msg]) = replies id msgs ++ [rep] := by
  simp [replies, hrespond]

lemma replies_last {msgs : List Message} {msg : Message} (hlast : respond id (.known msg) = none) :
    replies id (msgs ++ [msg]) = replies id msgs := by
  simp [replies, hlast]

lemma sound_serverReplies
    (hpasses : ∀ s msg, Turn w executable args id parent s msg → MessagePasses heap msg)
    (h : Sound w heap executable args id parent t)
    (hstep : t.step w strerror heap executable args .serverReplies = some u) :
    Sound w heap executable args id parent u ∧ t.moved < u.moved := by
  obtain ⟨rep', hwriting, rfl⟩ := serverReplies_cases hstep
  cases h.stage with
  | request turn hparty hphase => exact nomatch hwriting.symm.trans hphase
  | @reply s msg rep turn hrespond hparty hphase hinbox hoctets hreplies hback =>
    have hsame := hwriting.symm.trans hphase
    simp only [Phase.writing.injEq] at hsame
    subst hsame
    obtain ⟨stand, hsaid, hawaits⟩ :=
      said_awaits w executable args (s := s.wrote msg) (hpasses s msg turn) hrespond
    refine ⟨⟨h.number, ?_, ?_⟩, ?_⟩
    · rw [h.sent, List.flatMap_append, List.flatMap_singleton]
    · refine .answer turn hrespond (hparty.trans hsaid) ?_ rfl hinbox hoctets ?_ ?_
      · rw [back, hback, List.drop_left]
        exact hawaits
      · rw [hreplies, replies_concat hrespond]
      · rw [hback, List.length_append]
        omega
    · simp only [moved, hwriting, List.length_append, List.length_singleton]
      omega
  | answer turn hrespond hparty hawaits hphase => exact nomatch hwriting.symm.trans hphase
  | done turn hlast hparty hphase =>
    rcases hphase with hphase | hphase
    · exact nomatch hwriting.symm.trans hphase
    · exact nomatch hwriting.symm.trans hphase

lemma back_cons {got rest : List UInt8} (hback : t.back = got ++ rest) {v : Wire}
    (hserver : v.server = t.server)
    (htaken : v.taken = t.taken + got.length) : v.back = rest := by
  rw [back, hserver, htaken, ← List.drop_drop, ← back, hback, List.drop_left]

lemma sound_heard {s : Talk} {msg : Message} {rep : Reply} {party : Party} {got rest : List UInt8}
    (hpasses : ∀ s msg, Turn w executable args id parent s msg → MessagePasses heap msg)
    (h : Sound w heap executable args id parent t) (turn : Turn w executable args id parent s msg)
    (hrespond : respond id (.known msg) = some rep) (hphase : t.server.phase = listening heap)
    (hinbox : t.server.inbox = [])
    (hoctets : t.server.consumed = (messages s.log ++ [msg]).flatMap Message.serialize)
    (hreplies : t.server.replies = replies id (messages s.log ++ [msg]))
    (htaken : t.taken ≤ t.server.sent.length)
    (hgot : got ≠ []) (hback : t.back = got ++ rest)
    (hparty : (∃ stand, party = ⟨s.wrote msg, stand⟩ ∧ Awaits stand rest rep) ∨
      rest = [] ∧ party = heard w executable args (s.wrote msg) rep) :
    Sound w heap executable args id parent ⟨party, t.server, t.taken + got.length⟩ ∧
      t.moved < moved ⟨party, t.server, t.taken + got.length⟩ := by
  have hlen := congrArg List.length hback
  rw [back, List.length_drop, List.length_append] at hlen
  have hrest : back ⟨party, t.server, t.taken + got.length⟩ = rest := back_cons hback rfl rfl
  refine ⟨⟨h.number, h.sent, ?_⟩, ?_⟩
  · rcases hparty with ⟨stand, rfl, hawaits⟩ | ⟨rfl, rfl⟩
    · refine .answer turn hrespond rfl ?_ hphase hinbox hoctets hreplies ?_
      · rw [hrest]
        exact hawaits
      · simp only
        omega
    · obtain ⟨next, msg', hnext, turn', hlog⟩ := turn.next hrespond
      refine stage_say turn' (hpasses next msg' turn') hnext hphase hinbox ?_ ?_ ?_
      · rw [hlog]
        exact hoctets
      · rw [hlog]
        exact hreplies
      · rw [List.length_nil] at hlen
        simp only
        omega
  · have hmore := List.length_pos_iff.mpr hgot
    simp only [moved]
    omega

lemma sound_proxyReads {k : ℕ}
    (hpasses : ∀ s msg, Turn w executable args id parent s msg → MessagePasses heap msg)
    (h : Sound w heap executable args id parent t)
    (hstep : t.step w strerror heap executable args (.proxyReads k) = some u) :
    Sound w heap executable args id parent u ∧ t.moved < u.moved := by
  rw [step] at hstep
  split_ifs at hstep with hk
  have hfull : t.taken ≠ t.server.sent.length := by
    intro hback
    have hnone := hk.1.trans_le hk.2
    rw [back, hback, List.drop_length, List.length_nil] at hnone
    exact absurd hnone (lt_irrefl 0)
  cases h.stage with
  | request turn hparty hphase hresult hneeds hoctets hreplies hback => exact absurd hback hfull
  | reply turn hrespond hparty hphase hinbox hoctets hreplies hback => exact absurd hback hfull
  | @answer s msg rep stand turn hrespond hparty hawaits hphase hinbox hoctets hreplies htaken =>
    simp only [hparty] at hstep
    cases hawaits with
    | @id r next octets k' hresult hneeds =>
      obtain ⟨got, rest, party, hgot, hback, hhear, hcases⟩ := hear_awaits strerror (s.wrote msg)
        (fun r' => ⟨s.wrote msg, .awaitingId r' next⟩) (hearId w executable args (s.wrote msg))
          hresult hneeds hk.1 hk.2
      simp only [hhear, Option.some.injEq] at hstep
      subst hstep
      apply sound_heard hpasses h turn hrespond hphase hinbox hoctets hreplies htaken hgot hback
      rcases hcases with ⟨r', hresult', rfl, hneeds'⟩ | ⟨n, next', rfl, hneeds'⟩ | ⟨rfl, rfl⟩
      · exact Or.inl ⟨_, rfl, .id hresult' hneeds'⟩
      · exact Or.inl ⟨_, rfl, .id le_rfl hneeds'⟩
      · exact Or.inr ⟨rfl, rfl⟩
    | @action r next octets act hresult hneeds =>
      obtain ⟨got, rest, party, hgot, hback, hhear, hcases⟩ := hear_awaits strerror (s.wrote msg)
        (fun r' => ⟨s.wrote msg, .awaitingAction r' next⟩) (hearAction w (s.wrote msg)) hresult
          hneeds hk.1 hk.2
      simp only [hhear, Option.some.injEq] at hstep
      subst hstep
      apply sound_heard hpasses h turn hrespond hphase hinbox hoctets hreplies htaken hgot hback
      rcases hcases with ⟨r', hresult', rfl, hneeds'⟩ | ⟨n, next', rfl, hneeds'⟩ | ⟨rfl, rfl⟩
      · exact Or.inl ⟨_, rfl, .action hresult' hneeds'⟩
      · exact Or.inl ⟨_, rfl, .action le_rfl hneeds'⟩
      · exact Or.inr ⟨rfl, rfl⟩
  | done turn hlast hparty hphase hinbox hoctets hreplies hback => exact absurd hback hfull

lemma said_last (w : World) (executable : Str) (args : List Str) (s : Talk) {msg : Message}
    (hlast : respond id (.known msg) = none) :
    ∃ ret, (said w executable args s msg).stand = .ended ret := by
  cases msg with
  | create parentId => exact nomatch hlast
  | makeDecision cmd => exact nomatch hlast
  | finish ret => exact ⟨ret, rfl⟩
  | reportError parentId cmdId errorMsg => exact ⟨-1, rfl⟩

lemma proxyFails_none {code : ℤ} (h : Sound w heap executable args id parent t) :
    t.step w strerror heap executable args (.proxyFails code) = none := by
  cases h.stage with
  | request turn hparty hphase => simp only [step, hphase]
  | reply turn hrespond hparty hphase => simp only [step, hphase]
  | answer turn hrespond hparty hawaits hphase =>
    obtain ⟨next, hnext⟩ := listening_reads heap
    simp only [step, hphase, hnext]
  | @done s msg turn hlast hparty hphase =>
    obtain ⟨ret, hended⟩ := said_last w executable args (s.wrote msg) hlast
    rw [← hparty] at hended
    cases hphase' : t.server.phase <;> simp only [step, hended, hphase']

lemma hangUp_cases (hstep : t.step w strerror heap executable args .hangUp = some u) :
    ∃ ret r next, t.party.stand = .ended ret ∧ t.server.inbox = [] ∧
      t.server.phase = .reading r next ∧
      u = { t with server := { t.server with phase := .ended, broken := true } } := by
  cases hstand : t.party.stand with
  | writing msg octets => simp [step, hstand] at hstep
  | awaitingId r next => simp [step, hstand] at hstep
  | awaitingAction r next => simp [step, hstand] at hstep
  | ended ret =>
    simp only [step, hstand] at hstep
    split_ifs at hstep with hinbox
    simp only [Option.bind_eq_bind, Option.bind_eq_some_iff, Option.pure_def,
      Option.some.injEq] at hstep
    obtain ⟨server, hserver, rfl⟩ := hstep
    cases hphase : t.server.phase with
    | reading r next =>
      simp only [Client.step, hphase, eof] at hserver
      exact ⟨ret, r, next, rfl, hinbox, rfl, by rw [← Option.some.inj hserver]⟩
    | writing rep => simp [Client.step, hphase] at hserver
    | ended => simp [Client.step, hphase] at hserver

lemma sound_hangUp (h : Sound w heap executable args id parent t)
    (hstep : t.step w strerror heap executable args .hangUp = some u) :
    Sound w heap executable args id parent u ∧ t.moved < u.moved := by
  obtain ⟨ret, r', next', hended, hempty, hreading, rfl⟩ := hangUp_cases hstep
  cases h.stage with
  | @request s msg out r next turn hparty hphase hresult hneeds =>
    have hout : out = [] := by
      by_contra hout
      rw [if_neg hout] at hparty
      rw [hparty] at hended
      exact nomatch hended
    rw [hempty, hout] at hneeds
    have hpos := hneeds.read_pos
    have hle := hneeds.read_le
    rw [List.append_nil, List.length_nil] at hle
    omega
  | reply turn hrespond hparty hphase => exact nomatch hreading.symm.trans hphase
  | answer turn hrespond hparty hawaits =>
    rw [hparty] at hended
    subst hended
    exact nomatch hawaits
  | done turn hlast hparty hphase hinbox hoctets hreplies hback =>
    refine ⟨⟨h.number, h.sent, .done turn hlast hparty (Or.inr rfl) hinbox hoctets hreplies hback⟩,
      ?_⟩
    simp only [moved, hreading]
    omega

lemma sound_step {e : Event} (hcalm : e.Calm)
    (hpasses : ∀ s msg, Turn w executable args id parent s msg → MessagePasses heap msg)
    (h : Sound w heap executable args id parent t)
    (hstep : t.step w strerror heap executable args e = some u) :
    Sound w heap executable args id parent u ∧ t.moved < u.moved := by
  cases e with
  | transmit k => exact sound_transmit h hstep
  | serverReads k => exact sound_serverReads h hstep
  | serverWakes stale => exact hcalm.elim
  | serverReplies => exact sound_serverReplies hpasses h hstep
  | proxyReads k => exact sound_proxyReads hpasses h hstep
  | proxyWakes stale => exact hcalm.elim
  | proxyFails code => exact nomatch (proxyFails_none h).symm.trans hstep
  | hangUp => exact sound_hangUp h hstep

lemma sound_run {es : List Event} (hcalm : ∀ e ∈ es, e.Calm)
    (hpasses : ∀ s msg, Turn w executable args id parent s msg → MessagePasses heap msg)
    (hrun : Library.Runs.run (step w strerror heap executable args) (start heap id parent) es =
      some t) :
    Sound w heap executable args id parent t ∧ es.length ≤ t.moved := by
  apply run_induction (P := fun es t => (∀ e ∈ es, e.Calm) →
    Sound w heap executable args id parent t ∧ es.length ≤ t.moved) ?_ ?_ hrun hcalm
  · exact fun _ => ⟨sound_start, Nat.zero_le _⟩
  · intro es t e u _ ht hstep hcalm
    obtain ⟨hbefore, hlength⟩ := ht fun e he => hcalm e (List.mem_append_left _ he)
    have he : e.Calm := hcalm e (List.mem_append_right _ (List.mem_singleton.mpr rfl))
    obtain ⟨hsound, hmoved⟩ := sound_step he hpasses hbefore hstep
    refine ⟨hsound, ?_⟩
    rw [List.length_append, List.length_singleton]
    omega

lemma not_stuck (h : Sound w heap executable args id parent t) (hover : ¬ t.Over) :
    ∃ e, e.Calm ∧ (t.step w strerror heap executable args e).isSome = true := by
  cases h.stage with
  | @request s msg out r next turn hparty hphase hresult hneeds =>
    by_cases hout : out = []
    · have hpos := hneeds.read_pos
      have hle := hneeds.read_le
      rw [hout, List.append_nil] at hle
      refine ⟨.serverReads 1, trivial, ?_⟩
      simp only [step, Client.step, hphase]
      rw [if_pos ⟨one_pos, by omega⟩]
      rfl
    · rw [if_neg hout] at hparty
      refine ⟨.transmit 1, trivial, ?_⟩
      simp only [step, hparty, Party.transmit, Client.step]
      rw [if_pos ⟨one_pos, List.length_pos_iff.mpr hout⟩]
      rfl
  | reply turn hrespond hparty hphase =>
    refine ⟨.serverReplies, trivial, ?_⟩
    simp only [step, Client.step, hphase]
    rfl
  | answer turn hrespond hparty hawaits hphase =>
    cases hawaits with
    | id hresult hneeds =>
      have hpos := hneeds.read_pos
      have hle := hneeds.read_le
      refine ⟨.proxyReads 1, trivial, ?_⟩
      simp only [step, hparty]
      rw [if_pos ⟨one_pos, by omega⟩]
      rfl
    | action hresult hneeds =>
      have hpos := hneeds.read_pos
      have hle := hneeds.read_le
      refine ⟨.proxyReads 1, trivial, ?_⟩
      simp only [step, hparty]
      rw [if_pos ⟨one_pos, by omega⟩]
      rfl
  | @done s msg turn hlast hparty hphase hinbox =>
    obtain ⟨ret, hended⟩ := said_last w executable args (s.wrote msg) hlast
    rw [← hparty] at hended
    rcases hphase with hphase | hphase
    · obtain ⟨next, hnext⟩ := listening_reads heap
      refine ⟨.hangUp, trivial, ?_⟩
      simp only [step, hended, hinbox, if_true, Client.step, hphase, hnext, eof]
      rfl
    · exact absurd ⟨⟨ret, hended⟩, hphase⟩ hover

lemma ended_last {s : Talk} {msg : Message} {ret : Int32}
    (h : (said w executable args s msg).stand = .ended ret) : respond id (.known msg) = none := by
  cases msg with
  | create parentId => exact nomatch h
  | makeDecision cmd => exact nomatch h
  | finish ret => rfl
  | reportError parentId cmdId errorMsg => rfl

end

/-- The octets of a conversation, each moved into a pipe and out of it, the replies, and the end. -/
def bound (id : Int32) (msgs : List Message) : ℕ :=
  2 * (msgs.flatMap Message.serialize).length + (replies id msgs).length +
    ((replies id msgs).flatMap Reply.serialize).length + 1

structure SoFar (id : Int32) (msgs : List Message) (t : Wire) : Prop where
  octets : t.server.consumed ++ t.server.inbox <+: msgs.flatMap Message.serialize
  replies : t.server.replies <+: replies id msgs
  taken : t.taken ≤ t.server.sent.length

lemma soFar {w : World} {heap : Heap} {executable : Str} {args : List Str} {id parent : Int32}
    {t : Wire}
    {msgs : List Message} (h : Sound w heap executable args id parent t)
    (hmsgs : ∀ s msg, Turn w executable args id parent s msg → messages s.log ++ [msg] <+: msgs) :
    SoFar id msgs t := by
  have hbefore : ∀ {s msg}, Turn w executable args id parent s msg → messages s.log <+: msgs :=
    fun turn => (List.prefix_append _ _).trans (hmsgs _ _ turn)
  have hreplied : ∀ {part all : List Message}, part <+: all →
    Proxy.replies id part <+: Proxy.replies id all :=
    fun hprefix => hprefix.filterMap _
  have hsent : ∀ {part all : List Message}, part <+: all →
      part.flatMap Message.serialize <+: all.flatMap Message.serialize := by
    rintro part _ ⟨rest, rfl⟩
    rw [List.flatMap_append]
    exact List.prefix_append _ _
  cases h.stage with
  | @request s msg out r next turn hparty hphase hresult hneeds hoctets hreplies hback =>
    refine ⟨?_, hreplies ▸ hreplied (hbefore turn), hback.le⟩
    rw [← List.append_assoc] at hoctets
    exact (List.prefix_append _ out).trans (hoctets ▸ hsent (hmsgs _ _ turn))
  | reply turn hrespond hparty hphase hinbox hoctets hreplies hback =>
    refine ⟨?_, hreplies ▸ hreplied (hbefore turn), hback.le⟩
    rw [hinbox, List.append_nil, hoctets]
    exact hsent (hmsgs _ _ turn)
  | answer turn hrespond hparty hawaits hphase hinbox hoctets hreplies htaken =>
    refine ⟨?_, hreplies ▸ hreplied (hmsgs _ _ turn), htaken⟩
    rw [hinbox, List.append_nil, hoctets]
    exact hsent (hmsgs _ _ turn)
  | done turn hlast hparty hphase hinbox hoctets hreplies hback =>
    refine ⟨?_, hreplies ▸ hreplied (hbefore turn), hback.le⟩
    rw [hinbox, List.append_nil, hoctets]
    exact hsent (hmsgs _ _ turn)

lemma moved_le {w : World} {heap : Heap} {executable : Str} {args : List Str} {id parent : Int32}
    {t : Wire}
    {msgs : List Message} (h : Sound w heap executable args id parent t)
    (hsoFar : SoFar id msgs t) :
    t.moved ≤ bound id msgs := by
  have hoctets := hsoFar.octets.length_le
  have hreplies := hsoFar.replies.length_le
  have htaken := hsoFar.taken
  have hsent : t.server.sent.length ≤ ((replies id msgs).flatMap Reply.serialize).length := by
    obtain ⟨rest, hrest⟩ := hsoFar.replies
    rw [h.sent, ← hrest, List.flatMap_append, List.length_append]
    omega
  have hended : (match t.server.phase with | .ended => 1 | _ => 0) ≤ 1 := by
    cases t.server.phase <;> simp
  rw [List.length_append] at hoctets
  rw [moved, bound]
  omega

/-- What a calm schedule of the pipe can do to a conversation with these messages and this result:
nothing. -/
structure Conversed (w : World) (strerror : ℤ → Str) (heap : Heap) (executable : Str)
    (args : List Str) (id : Int32)
    (msgs : List Message) (ret : Int32) (es : List Event) (t : Wire) : Prop where
  soFar : SoFar id msgs t
  result : ∀ ret', t.party.stand = .ended ret' → ret' = ret
  complete : t.Over → t.server.consumed = msgs.flatMap Message.serialize ∧
    t.server.replies = replies id msgs
  alive : ¬ t.Over → ∃ e, e.Calm ∧ (t.step w strerror heap executable args e).isSome = true
  bounded : es.length ≤ bound id msgs

/-- Whatever pieces the pipe makes of the octets and in whatever order the two sides go on, as long
as no read is called back without octets the proxy and the server come to the end of the
conversation, and `main` returns what it returns when each call is answered at once. -/
lemma conversation_delivered {w : World} {strerror : ℤ → Str} {heap : Heap} {argv : List Str}
    {parent : ℤ}
    {executable : Str} {args : List Str} {id : Int32} {es : List Event} {t : Wire}
    (hargv : readArguments argv = .command parent executable args)
    (hpasses : ∀ msg ∈ messages (main (served w executable args id (.ofInt parent)) argv).2.log,
      MessagePasses heap msg)
    (hrun : Library.Runs.run (step w strerror heap executable args) (start heap id (.ofInt parent))
      es = some t)
    (hcalm : ∀ e ∈ es, e.Calm) :
    Conversed w strerror heap executable args id
      (messages (main (served w executable args id (.ofInt parent)) argv).2.log)
      (main (served w executable args id (.ofInt parent)) argv).1 es t := by
  have hpassed : ∀ s msg, Turn w executable args id (.ofInt parent) s msg →
    MessagePasses heap msg := fun s msg turn =>
    hpasses msg ((turn.foretold hargv).1.subset
      (List.mem_append_right _ (List.mem_singleton.mpr rfl)))
  obtain ⟨hsound, hmoved⟩ := sound_run hcalm hpassed hrun
  have hsoFar := soFar hsound fun s msg turn => (turn.foretold hargv).1
  refine ⟨hsoFar, ?_, ?_, not_stuck hsound, hmoved.trans (moved_le hsound hsoFar)⟩
  · intro ret' hended
    have hlast : ∀ {s msg}, Turn w executable args id (.ofInt parent) s msg →
        t.party = said w executable args (s.wrote msg) msg →
        ret' = (main (served w executable args id (.ofInt parent)) argv).1 := by
      intro s msg turn hparty
      rw [hparty] at hended
      rw [((turn.foretold hargv).2 (ended_last hended)).2] at hended
      exact (Stand.ended.inj hended).symm
    cases hsound.stage with
    | @request s msg out r next turn hparty =>
      by_cases hout : out = []
      · rw [if_pos hout] at hparty
        exact hlast turn hparty
      · rw [if_neg hout] at hparty
        rw [hparty] at hended
        exact nomatch hended
    | reply turn hrespond hparty => exact hlast turn hparty
    | answer turn hrespond hparty hawaits =>
      rw [hparty] at hended
      subst hended
      exact nomatch hawaits
    | done turn hnone hparty => exact hlast turn hparty
  · rintro ⟨-, hended⟩
    obtain ⟨next, hnext⟩ := listening_reads heap
    cases hsound.stage with
    | request turn hparty hphase => exact nomatch hphase.symm.trans hended
    | reply turn hrespond hparty hphase => exact nomatch hphase.symm.trans hended
    | answer turn hrespond hparty hawaits hphase =>
        exact nomatch (hphase.symm.trans hended).symm.trans hnext
    | done turn hnone hparty hphase hinbox hoctets hreplies =>
      obtain ⟨hall, -⟩ := (turn.foretold hargv).2 hnone
      rw [hall] at hoctets
      refine ⟨hoctets, ?_⟩
      rw [hreplies, ← replies_last hnone, hall]

end Wire

end Catter.Proxy
