import Catter.Library.Parallel
import Catter.Proxy.WireRuns

/-! Any number of proxies at one server: each has its conversation as if it were
alone, under a number of its own. -/

namespace Catter.Proxy

open Text Rpc Server Library Library.Runs

structure Job where
  world : World
  argv : List Str
  parent : ℤ
  executable : Str
  args : List Str
  reads : readArguments argv = .command parent executable args

def Job.served (job : Job) (id : Int32) : Int32 × Talk :=
  main (Proxy.served job.world job.executable job.args id (.ofInt job.parent)) job.argv

-- A proxy can write before the server accepts its connection.
inductive Link
  | pending (party : Party) (octets : List UInt8)
  | accepted (wire : Wire)

structure Connection where
  job : Job
  link : Link

inductive LinkEvent
  | accept (id : Int32)
  | wire (e : Wire.Event)

namespace Connection

def number (c : Connection) : Option Int32 :=
  match c.link with
  | .pending _ _ => none
  | .accepted wire => some wire.server.id

def Over (c : Connection) : Prop :=
  match c.link with
  | .pending _ _ => False
  | .accepted wire => wire.Over

def start (job : Job) : Connection :=
  let parent := Int32.ofInt job.parent
  ⟨job, .pending (say { Talk.start with parentId := parent } (.create parent)) []⟩

section

variable (strerror : ℤ → Str) (heap : Heap)

def step (c : Connection) : LinkEvent → Option Connection
  | .accept id =>
    match c.link with
    | .pending party octets =>
      some { c with link := .accepted ⟨party,
        { Client.fresh heap id true with inbox := octets }, 0⟩ }
    | .accepted _ => none
  | .wire e =>
    match c.link, e with
    | .accepted wire, e => do
      let wire ← wire.step c.job.world strerror heap c.job.executable c.job.args e
      return { c with link := .accepted wire }
    | .pending party octets, .transmit k => do
      let (sent, party) ← party.transmit c.job.world c.job.executable c.job.args k
      return { c with link := .pending party (octets ++ sent) }
    | .pending _ _, _ => none

def bound (c : Connection) : ℕ :=
  let id := c.number.getD 0
  Wire.bound id (messages (c.job.served id).2.log) + 1

end

end Connection

structure Network where
  idGenerator : Int32
  connections : List Connection

namespace Network

inductive Event
  | connect (job : Job)
  | link (i : ℕ) (e : LinkEvent)

def Event.parallel : Event → Parallel.Event Connection LinkEvent
  | .connect job => .join (Connection.start job)
  | .link i e => .member i e

def start : Network := ⟨0, []⟩

-- `accept` takes the next number
def step (strerror : ℤ → Str) (heap : Heap) (n : Network) (e : Event) : Option Network := do
  let connections ← Parallel.step (Connection.step strerror heap) n.connections e.parallel
  match e with
  | .link _ (.accept id) => if id = n.idGenerator + 1 then some ⟨id, connections⟩ else none
  | _ => some { n with connections }

def numbers (n : Network) : List Int32 := n.connections.filterMap Connection.number

def Over (n : Network) : Prop := ∀ c ∈ n.connections, c.Over

def own (i : ℕ) (es : List Event) : List LinkEvent := Parallel.own i (es.map Event.parallel)

end Network

def wireEvents (es : List LinkEvent) : List Wire.Event :=
  es.filterMap fun
    | .accept _ => none
    | .wire e => some e

section

variable {strerror : ℤ → Str} {heap : Heap}

lemma wire_step_id {w : World} {executable : Str} {args : List Str} {s t : Wire} {e : Wire.Event}
    (h : s.step w strerror heap executable args e = some t) : t.server.id = s.server.id := by
  cases e with
  | transmit k =>
    obtain ⟨msg, octets, hstand, hk, hle, rfl⟩ := Wire.transmit_cases h
    rfl
  | serverReads k =>
    simp only [Wire.step, Option.bind_eq_bind, Option.bind_eq_some_iff, Option.pure_def,
      Option.some.injEq] at h
    obtain ⟨server, hserver, rfl⟩ := h
    exact Client.step_id hserver
  | serverWakes stale =>
    simp only [Wire.step, Option.bind_eq_bind, Option.bind_eq_some_iff, Option.pure_def,
      Option.some.injEq] at h
    obtain ⟨server, hserver, rfl⟩ := h
    exact Client.step_id hserver
  | serverReplies =>
    simp only [Wire.step, Option.bind_eq_bind, Option.bind_eq_some_iff, Option.pure_def,
      Option.some.injEq] at h
    obtain ⟨server, hserver, rfl⟩ := h
    exact Client.step_id hserver
  | proxyReads k =>
    simp only [Wire.step] at h
    split_ifs at h
    cases hstand : s.party.stand <;> simp only [hstand, Option.some.injEq, reduceCtorEq] at h
      <;> subst h <;> rfl
  | proxyWakes stale =>
    simp only [Wire.step] at h
    cases hstand : s.party.stand <;>
      simp only [hstand, Option.ite_none_right_eq_some, Option.some.injEq, reduceCtorEq] at h
    · obtain ⟨-, rfl⟩ := h
      rfl
    · obtain ⟨-, rfl⟩ := h
      rfl
  | proxyFails code =>
    simp only [Wire.step] at h
    cases hphase : s.server.phase <;> cases hstand : s.party.stand <;>
      simp only [hphase, hstand, Option.ite_none_right_eq_some, Option.some.injEq,
        reduceCtorEq] at h
    · subst h
      rfl
    · obtain ⟨-, rfl⟩ := h
      rfl
    · obtain ⟨-, rfl⟩ := h
      rfl
  | hangUp =>
    obtain ⟨ret, r, next, hended, hinbox, hphase, rfl⟩ := Wire.hangUp_cases h
    rfl

/-- A connection behaves as a wire whose server side has had its number all along. -/
inductive Behaves (strerror : ℤ → Str) (heap : Heap) (job : Job) (es : List LinkEvent) : Link → Prop
  | pending {party : Party} {octets : List UInt8} (hcount : es.length = (wireEvents es).length)
      (h : ∀ id, Runs.run (Wire.step job.world strerror heap job.executable job.args)
        (Wire.start heap id (.ofInt job.parent)) (wireEvents es) =
          some ⟨party, { Client.fresh heap id true with inbox := octets }, 0⟩) :
      Behaves strerror heap job es (.pending party octets)
  | accepted {wire : Wire} (hcount : es.length = (wireEvents es).length + 1)
      (h : Runs.run (Wire.step job.world strerror heap job.executable job.args)
        (Wire.start heap wire.server.id (.ofInt job.parent)) (wireEvents es) = some wire) :
      Behaves strerror heap job es (.accepted wire)

lemma wireEvents_concat_accept (es : List LinkEvent) (id : Int32) :
    wireEvents (es ++ [.accept id]) = wireEvents es := by
  simp [wireEvents]

lemma wireEvents_concat_wire (es : List LinkEvent) (e : Wire.Event) :
    wireEvents (es ++ [.wire e]) = wireEvents es ++ [e] := by
  simp [wireEvents]

lemma behaves_step {job : Job} {es : List LinkEvent} {e : LinkEvent} {link : Link} {c : Connection}
    (h : Behaves strerror heap job es link)
    (hstep : (⟨job, link⟩ : Connection).step strerror heap e = some c) :
    c.job = job ∧ Behaves strerror heap job (es ++ [e]) c.link := by
  cases h with
  | @pending party octets hcount h =>
    cases e with
    | accept id =>
      simp only [Connection.step, Option.some.injEq] at hstep
      subst hstep
      refine ⟨rfl, .accepted ?_ ?_⟩
      · rw [wireEvents_concat_accept, List.length_append, List.length_singleton, hcount]
      · rw [wireEvents_concat_accept]
        exact h id
    | wire e =>
      cases e with
      | transmit k =>
        simp only [Connection.step, Option.bind_eq_bind, Option.bind_eq_some_iff, Option.pure_def,
          Option.some.injEq] at hstep
        obtain ⟨⟨sent, next⟩, htransmit, rfl⟩ := hstep
        refine ⟨rfl, .pending ?_ fun id => ?_⟩
        · rw [wireEvents_concat_wire, List.length_append, List.length_append, List.length_singleton,
            List.length_singleton, hcount]
        · rw [wireEvents_concat_wire, run_concat_eq_some]
          refine ⟨_, h id, ?_⟩
          simp only [Wire.step, htransmit, Client.step]
          rfl
      | serverReads k => cases hstep
      | serverWakes stale => cases hstep
      | serverReplies => cases hstep
      | proxyReads k => cases hstep
      | proxyWakes stale => cases hstep
      | proxyFails code => cases hstep
      | hangUp => cases hstep
  | @accepted wire hcount h =>
    cases e with
    | accept id => cases hstep
    | wire e =>
      simp only [Connection.step, Option.bind_eq_bind, Option.bind_eq_some_iff, Option.pure_def,
        Option.some.injEq] at hstep
      obtain ⟨next, hnext, rfl⟩ := hstep
      refine ⟨rfl, .accepted ?_ ?_⟩
      · rw [wireEvents_concat_wire, List.length_append, List.length_append, List.length_singleton,
          List.length_singleton, hcount]
      · rw [wireEvents_concat_wire, run_concat_eq_some, wire_step_id hnext]
        exact ⟨wire, h, hnext⟩

lemma run_behaves {job : Job} {es : List LinkEvent} {c : Connection}
    (h : Runs.run (Connection.step strerror heap) (Connection.start job) es = some c) :
    c.job = job ∧ Behaves strerror heap job es c.link := by
  apply run_induction (P := fun es c => c.job = job ∧ Behaves strerror heap job es c.link) ?_ ?_ h
  · exact ⟨rfl, .pending rfl fun id => rfl⟩
  · rintro es ⟨job', link⟩ e d _ ⟨rfl, hbehaves⟩ hstep
    exact behaves_step hbehaves hstep

namespace Network

open Library.Parallel (Alone run_alone)

variable {n m : Network} {es : List Event}

lemma filterMap_set_perm {α β : Type} {l : List α} {i : ℕ} {a : α} (f : α → Option β) (b : α)
    (h : l[i]? = some a) :
    ∃ rest, (l.filterMap f).Perm ((f a).toList ++ rest) ∧
      ((l.set i b).filterMap f).Perm ((f b).toList ++ rest) := by
  obtain ⟨hi, rfl⟩ := List.getElem?_eq_some_iff.mp h
  have hcons : ∀ c, ((c :: l.eraseIdx i).filterMap f) =
      (f c).toList ++ (l.eraseIdx i).filterMap f := by
    intro c
    cases hc : f c <;> simp [hc]
  refine ⟨(l.eraseIdx i).filterMap f, ?_, ?_⟩
  · rw [← hcons]
    exact (List.getElem_cons_eraseIdx_perm hi).symm.filterMap f
  · rw [← hcons]
    exact (List.set_perm_cons_eraseIdx hi b).filterMap f

structure Numbered (n : Network) : Prop where
  idGenerator : n.idGenerator = Int32.ofNat n.numbers.length
  first : n.numbers.Perm ((List.range n.numbers.length).map fun k => Int32.ofNat (k + 1))

lemma numbered_nodup (h : n.Numbered) (hcount : n.numbers.length < 2 ^ 31) : n.numbers.Nodup := by
  rw [h.first.nodup_iff]
  apply List.Nodup.map_on ?_ List.nodup_range
  intro i hi j hj hij
  rw [List.mem_range] at hi hj
  have hint := congrArg Int32.toInt hij
  rw [Int32.toInt_ofNat_of_lt (by omega), Int32.toInt_ofNat_of_lt (by omega)] at hint
  omega

lemma numbered_same (h : n.Numbered) (hgenerator : m.idGenerator = n.idGenerator)
    (hsame : m.numbers.Perm n.numbers) :
    m.Numbered where
  idGenerator := by rw [hgenerator, hsame.length_eq, h.idGenerator]
  first := by
    rw [hsame.length_eq]
    exact hsame.trans h.first

lemma numbered_next (h : n.Numbered) (hgenerator : m.idGenerator = n.idGenerator + 1)
    (hnext : m.numbers.Perm (m.idGenerator :: n.numbers)) : m.Numbered := by
  have hlength : m.numbers.length = n.numbers.length + 1 := hnext.length_eq
  have hid : m.idGenerator = Int32.ofNat (n.numbers.length + 1) := by
    rw [hgenerator, h.idGenerator]
    exact (Int32.ofNat_add _ _).symm
  refine ⟨by rw [hlength, hid], ?_⟩
  rw [hlength, List.range_succ, List.map_append, List.map_singleton, ← hid]
  exact (hnext.trans (h.first.cons _)).trans (List.perm_append_singleton _ _).symm

lemma wire_number {c d : Connection}
    {e : Wire.Event} (h : c.step strerror heap (.wire e) = some d) :
    d.number = c.number := by
  obtain ⟨job, link⟩ := c
  cases link with
  | pending party octets =>
    cases e with
    | transmit k =>
      simp only [Connection.step, Option.bind_eq_bind, Option.bind_eq_some_iff,
        Option.pure_def, Option.some.injEq] at h
      obtain ⟨_, -, rfl⟩ := h
      rfl
    | serverReads k => exact nomatch h
    | serverWakes stale => exact nomatch h
    | serverReplies => exact nomatch h
    | proxyReads k => exact nomatch h
    | proxyWakes stale => exact nomatch h
    | proxyFails code => exact nomatch h
    | hangUp => exact nomatch h
  | accepted wire =>
    simp only [Connection.step, Option.bind_eq_bind, Option.bind_eq_some_iff,
      Option.pure_def, Option.some.injEq] at h
    obtain ⟨next, hnext, rfl⟩ := h
    exact congrArg some (wire_step_id hnext)

lemma accept_number {c d : Connection}
    {id : Int32} (h : c.step strerror heap (.accept id) = some d) :
    c.number = none ∧ d.number = some id := by
  obtain ⟨job, link⟩ := c
  cases link with
  | pending party octets =>
    simp only [Connection.step, Option.some.injEq] at h
    subst h
    exact ⟨rfl, rfl⟩
  | accepted wire => exact nomatch h

lemma step_cases {e : Event} (h : n.step strerror heap e = some m) :
    Parallel.step (Connection.step strerror heap) n.connections e.parallel = some m.connections ∧
      match e with
      | .link _ (.accept id) => id = n.idGenerator + 1 ∧ m.idGenerator = id
      | _ => m.idGenerator = n.idGenerator := by
  simp only [step, Option.bind_eq_bind, Option.bind_eq_some_iff] at h
  obtain ⟨connections, hparallel, h⟩ := h
  cases e with
  | connect job =>
    cases h
    exact ⟨hparallel, rfl⟩
  | link i e =>
    cases e with
    | wire e =>
      cases h
      exact ⟨hparallel, rfl⟩
    | accept id =>
      simp only [Option.ite_none_right_eq_some, Option.some.injEq] at h
      obtain ⟨hid, rfl⟩ := h
      exact ⟨hparallel, hid, rfl⟩

lemma numbered_step {e : Event} (h : n.Numbered)
    (hstep : n.step strerror heap e = some m) : m.Numbered := by
  obtain ⟨hparallel, hgenerator⟩ := step_cases hstep
  cases e with
  | connect job =>
    apply numbered_same h hgenerator
    simp only [Event.parallel, Parallel.step, Option.some.injEq] at hparallel
    rw [numbers, numbers, ← hparallel, List.filterMap_append]
    exact (List.append_nil _).symm ▸ List.Perm.refl _
  | link i e =>
    obtain ⟨c, d, hc, hd, hset⟩ := Parallel.member_cases hparallel
    obtain ⟨rest, hbefore, hafter⟩ := filterMap_set_perm Connection.number d hc
    rw [← hset] at hafter
    cases e with
    | accept id =>
      obtain ⟨hnone, hsome⟩ := accept_number hd
      obtain ⟨hid, hnext⟩ := hgenerator
      rw [hnone] at hbefore
      rw [hsome] at hafter
      apply numbered_next h (hnext.trans hid)
      rw [hnext]
      exact hafter.trans (hbefore.symm.cons id)
    | wire e =>
      rw [wire_number hd] at hafter
      exact numbered_same h hgenerator (hafter.trans hbefore.symm)

lemma run_numbered (h : Runs.run (step strerror heap) start es = some n) :
    n.Numbered ∧ Runs.run (Parallel.step (Connection.step strerror heap))
      [] (es.map Event.parallel) =
      some n.connections := by
  apply run_induction (P := fun es n => n.Numbered ∧
    Runs.run (Parallel.step (Connection.step strerror heap)) [] (es.map Event.parallel) = some
      n.connections) ?_ ?_ h
  · exact ⟨⟨rfl, List.Perm.refl _⟩, rfl⟩
  · rintro es n e m _ ⟨hnumbered, hrun⟩ hstep
    refine ⟨numbered_step hnumbered hstep, ?_⟩
    rw [List.map_append, List.map_singleton, run_concat_eq_some]
    exact ⟨n.connections, hrun, (step_cases hstep).1⟩

lemma run_connection (h : Runs.run (step strerror heap) start es = some n) {i : ℕ} {c : Connection}
    (hc : n.connections[i]? = some c) : Behaves strerror heap c.job (own i es) c.link := by
  obtain ⟨c₀, hjoin, hrun⟩ := (run_alone (run_numbered h).2).alone i c hc
  obtain ⟨e, -, he⟩ := List.mem_map.mp hjoin
  cases e with
  | connect job =>
    cases he
    obtain ⟨hjob, hbehaves⟩ := run_behaves hrun
    rw [hjob]
    exact hbehaves
  | link j e => exact nomatch he

def Calm (es : List Event) : Prop := ∀ i e, Event.link i (.wire e) ∈ es → e.Calm

def Passes (heap : Heap) (job : Job) : Prop :=
  ∀ id, ∀ msg ∈ messages (job.served id).2.log, MessagePasses heap msg

structure Apart (strerror : ℤ → Str) (heap : Heap) (job : Job) (es : List LinkEvent) (wire : Wire) :
    Prop where
  alone : Runs.run (Wire.step job.world strerror heap job.executable job.args)
    (Wire.start heap wire.server.id (.ofInt job.parent)) (wireEvents es) = some wire
  conversed : Wire.Conversed job.world strerror heap job.executable job.args wire.server.id
    (messages (job.served wire.server.id).2.log) (job.served wire.server.id).1 (wireEvents es) wire

structure Delivered (strerror : ℤ → Str) (heap : Heap) (es : List Event) (n : Network) : Prop where
  numbers : n.numbers.Nodup
  apart : ∀ i c wire, n.connections[i]? = some c → c.link = .accepted wire →
    Apart strerror heap c.job (own i es) wire
  alive : ¬ n.Over → ∃ i e, Calm [.link i e] ∧ (n.step strerror heap (.link i e)).isSome = true
  bounded : es.length ≤ (n.connections.map fun c => c.bound + 1).sum

lemma wireEvents_calm (hcalm : Calm es) {i : ℕ} : ∀ e ∈ wireEvents (own i es), e.Calm := by
  intro e he
  obtain ⟨link, hlink, hwire⟩ := List.mem_filterMap.mp he
  obtain ⟨ev, hev, hmember⟩ := List.mem_map.mp (Parallel.mem_own.mp hlink)
  cases ev with
  | connect job => exact nomatch hmember
  | link j link' =>
    cases hmember
    cases link with
    | accept id => exact nomatch hwire
    | wire e' =>
      cases hwire
      exact hcalm _ _ hev

lemma apart_of_run (h : Runs.run (step strerror heap) start es = some n) (hcalm : Calm es) {i : ℕ}
    {c : Connection} {wire : Wire}
    (hc : n.connections[i]? = some c) (hlink : c.link = .accepted wire)
    (hpasses : Passes heap c.job) :
    Apart strerror heap c.job (own i es) wire := by
  have hbehaves := run_connection h hc
  rw [hlink] at hbehaves
  cases hbehaves with
  | accepted hcount hrun =>
    exact ⟨hrun, Wire.conversation_delivered c.job.reads (hpasses wire.server.id)
      hrun (wireEvents_calm hcalm)⟩

lemma alive_of_run (h : Runs.run (step strerror heap) start es = some n) (hcalm : Calm es)
    (hpasses : ∀ c ∈ n.connections, Passes heap c.job) (hover : ¬ n.Over) :
    ∃ i e, Calm [.link i e] ∧ (n.step strerror heap (.link i e)).isSome = true := by
  simp only [Over, not_forall] at hover
  obtain ⟨c, hmem, hover⟩ := hover
  obtain ⟨i, hc⟩ := List.mem_iff_getElem?.mp hmem
  have hmember : ∀ e, (c.step strerror heap e).isSome = true →
      ∃ cs, Parallel.step (Connection.step strerror heap) n.connections (.member i e) =
        some cs := fun e he =>
    Option.isSome_iff_exists.mp (Parallel.member_isSome hc he)
  cases hlink : c.link with
  | pending party octets =>
    obtain ⟨cs, hcs⟩ := hmember (.accept (n.idGenerator + 1)) (by simp [Connection.step, hlink])
    exact ⟨i, .accept (n.idGenerator + 1), by simp [Calm], by simp [step, Event.parallel, hcs]⟩
  | accepted wire =>
    rw [Connection.Over, hlink] at hover
    obtain ⟨e, hstill, he⟩ := (apart_of_run h hcalm hc hlink (hpasses c hmem)).conversed.alive hover
    obtain ⟨next, hnext⟩ := Option.isSome_iff_exists.mp he
    obtain ⟨cs, hcs⟩ := hmember (.wire e) (by simp [Connection.step, hlink, hnext])
    exact ⟨i, .wire e, by simpa [Calm] using hstill, by simp [step, Event.parallel, hcs]⟩

lemma own_length_le (h : Runs.run (step strerror heap) start es = some n) (hcalm : Calm es) {i : ℕ}
    {c : Connection}
    (hc : n.connections[i]? = some c) (hpasses : Passes heap c.job) :
    (own i es).length ≤ c.bound := by
  have hbehaves := run_connection h hc
  cases hlink : c.link with
  | pending party octets =>
    rw [hlink] at hbehaves
    cases hbehaves with
    | pending hcount hrun =>
      have hbounded := (Wire.conversation_delivered c.job.reads (hpasses 0) (hrun 0)
        (wireEvents_calm hcalm)).bounded
      rw [hcount, Connection.bound, Connection.number, hlink]
      exact hbounded.trans (Nat.le_succ _)
  | accepted wire =>
    have hbounded := (apart_of_run h hcalm hc hlink hpasses).conversed.bounded
    rw [hlink] at hbehaves
    cases hbehaves with
    | accepted hcount hrun =>
      rw [hcount, Connection.bound, Connection.number, hlink]
      exact Nat.succ_le_succ hbounded

/-- In every order of steps each conversation goes as if there were no other, and all come to their
end. -/
theorem network_delivered (hrun : Runs.run (step strerror heap) start es = some n) (hcalm : Calm es)
    (hpasses : ∀ c ∈ n.connections, Passes heap c.job) (hcount : n.numbers.length < 2 ^ 31) :
    Delivered strerror heap es n where
  numbers := numbered_nodup (run_numbered hrun).1 hcount
  apart i c wire hc hlink := apart_of_run hrun hcalm hc hlink (hpasses c (List.mem_of_getElem? hc))
  alive := alive_of_run hrun hcalm hpasses
  bounded := by
    have hlength := Parallel.length_le (run_alone (run_numbered hrun).2)
      fun i c hc => own_length_le hrun hcalm hc (hpasses c (List.mem_of_getElem? hc))
    rwa [List.length_map] at hlength

/-! Two calls for the command `/bin/cc`, which the hook runs with code 3. -/

def compiling (parent : ℤ) (digits : Str)
    (h : readArguments [lit "catter-proxy", lit "-p", digits, lit "--", lit "/bin/cc"] =
    .command parent (lit "/bin/cc") []) : Job where
  world := {
    write := fun _ => .ok ()
    createReply := .ok 1
    decisionReply := .error .other
    stoiWhat := fun _ => lit "stoi"
    currentPath := .ok (lit "/")
    environment := .ok []
    locateExe := fun _ executable => .ok executable
    spawn := fun _ _ => ⟨false, .error .other⟩
    hookRun := fun _ _ => ⟨true, .ok 3⟩ }
  argv := _
  parent := parent
  executable := lit "/bin/cc"
  args := []
  reads := h

lemma compiling_passes {parent : ℤ} {digits : Str} (h) :
    Passes Listener.roomy (compiling parent digits h) := by
  have hnone : TextsPass Listener.roomy [] := ⟨by decide, rfl, fun s hs => nomatch hs⟩
  have hcommand : CommandPasses Listener.roomy ⟨lit "/", lit "/bin/cc", [], []⟩ :=
    ⟨⟨by decide, by decide, rfl⟩, ⟨by decide, by decide, rfl⟩, hnone, hnone⟩
  intro id msg hmsg
  have hsaid : messages ((compiling parent digits h).served id).2.log =
      [.create (.ofInt parent), .makeDecision ⟨lit "/", lit "/bin/cc", [], []⟩, .finish 3] := by
    rw [Job.served, main_served id (compiling parent digits h).reads]
    rfl
  rw [hsaid] at hmsg
  simp only [List.mem_cons, List.not_mem_nil, or_false] at hmsg
  rcases hmsg with rfl | rfl | rfl
  · trivial
  · exact hcommand
  · trivial

def crossing : List Event :=
  [.connect (compiling 0 (lit "0") (by decide)), .link 0 (.wire (.transmit 5)),
    .connect (compiling 1 (lit "1") (by decide)), .link 1 (.wire (.transmit 3)),
      .link 1 (.accept 1),
    .link 0 (.accept 2), .link 0 (.wire (.serverReads 1)), .link 1 (.wire (.serverReads 1)),
    .link 1 (.wire (.transmit 2)), .link 0 (.wire (.serverReads 4)), .link 0 (.wire .serverReplies)]

theorem crossing_delivered :
    ∃ n, Runs.run (step (fun _ => []) Listener.roomy) start crossing = some n ∧ n.numbers = [2, 1] ∧
      Delivered (fun _ => []) Listener.roomy crossing n := by
  obtain ⟨n, hrun, hjobs, hnumbers⟩ :
    ∃ n, Runs.run (step (fun _ => []) Listener.roomy) start crossing = some n ∧
      n.connections.map Connection.job = [compiling 0 (lit "0") (by decide),
        compiling 1 (lit "1") (by decide)] ∧
      n.numbers = [2, 1] := ⟨_, rfl, rfl, rfl⟩
  refine ⟨n, hrun, hnumbers, network_delivered hrun ?_ ?_ (by rw [hnumbers]; decide)⟩
  · intro i e he
    simp only [crossing, List.mem_cons, Event.link.injEq, LinkEvent.wire.injEq, reduceCtorEq,
      and_false, false_or,
      List.not_mem_nil, or_false] at he
    rcases he with ⟨-, rfl⟩ | ⟨-, rfl⟩ | ⟨-, rfl⟩ | ⟨-, rfl⟩ | ⟨-, rfl⟩ | ⟨-, rfl⟩ | ⟨-, rfl⟩
      <;> trivial
  intro c hc
  have hjob : c.job ∈ n.connections.map Connection.job := List.mem_map_of_mem hc
  rw [hjobs] at hjob
  simp only [List.mem_cons, List.not_mem_nil, or_false] at hjob
  rcases hjob with hjob | hjob
  · rw [hjob]
    exact compiling_passes _
  · rw [hjob]
    exact compiling_passes _

end Network

end

end Catter.Proxy
