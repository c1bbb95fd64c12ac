import Catter.Library.Runs
import Catter.Server.Handler

/-! The decision server and its clients: what one client receives depends on that
client alone. -/

namespace Catter.Server

open Library.Runs Library.ExactReads Rpc

inductive Event
  | accept (i : ℕ) (accepted : Bool)
  | client (i : ℕ) (e : ClientEvent)

structure Listener where
  idGenerator : Int32
  clients : List Client

namespace Listener

variable (heap : Heap)

def start : Listener := ⟨0, []⟩

def step (s : Listener) : Event → Option Listener
  | .accept i accepted =>
    if i = s.clients.length then
      let id := s.idGenerator + 1
      some ⟨id, s.clients ++ [Client.fresh heap id accepted]⟩
    else none
  | .client i e => do
    let c ← s.clients[i]?
    let next ← c.step heap e
    return { s with clients := s.clients.set i next }

end Listener

/-- What of an event concerns the `i`-th connection, as if it were the first. -/
def Event.own (i : ℕ) : Event → Option Event
  | .accept j accepted => if j = i then some (.accept 0 accepted) else none
  | .client j e => if j = i then some (.client 0 e) else none

def own (i : ℕ) (es : List Event) : List Event := es.filterMap (Event.own i)

def solo (id : Int32) : Listener := ⟨id - 1, []⟩

def goOn (heap : Heap) (id : Int32) (d : Decoder (Option Incoming)) (replies : List Reply) :
    Phase × List Reply :=
  match proceed heap id d with
  | .writing reply => (listening heap, replies ++ [reply])
  | phase => (phase, replies)

def consume (heap : Heap) (id : Int32) (p : Phase × List Reply) (octet : UInt8) :
    Phase × List Reply :=
  match p.1 with
  | .reading r next =>
    if r.allocCb = 0 then (.ended, p.2)
    else
      let (r', resumed) := r.readCb 1 [octet]
      if resumed then goOn heap id (next r'.received) p.2 else (.reading r' next, p.2)
  | _ => p

def consumeAll (heap : Heap) (id : Int32) (octets : List UInt8) : Phase × List Reply :=
  octets.foldl (consume heap id) (listening heap, [])

lemma listening_reads (heap : Heap) : ∃ next, listening heap = .reading (.start 1) next := ⟨_, rfl⟩

lemma proceed_cases (heap : Heap) (id : Int32) (d : Decoder (Option Incoming)) :
    (∃ n next, proceed heap id d = .reading (.start n) next) ∨ proceed heap id d = .ended ∨
      ∃ reply, proceed heap id d = .writing reply ∧ ∀ k, reply = .created k → k = id := by
  match d with
  | .read n next => exact Or.inl ⟨n, next, rfl⟩
  | .done none => exact Or.inr (Or.inl rfl)
  | .done (some msg) =>
    match msg with
    | .known (.create parentId) => exact Or.inr (Or.inr ⟨_, rfl, fun k hk => by cases hk; rfl⟩)
    | .known (.makeDecision cmd) => exact Or.inr (Or.inr ⟨_, rfl, fun k hk => nomatch hk⟩)
    | .known (.finish retCode) => exact Or.inl ⟨_, _, rfl⟩
    | .known (.reportError parentId cmdId errorMsg) => exact Or.inl ⟨_, _, rfl⟩
    | .unknown req => exact Or.inl ⟨_, _, rfl⟩

lemma consume_chunk (heap : Heap) (id : Int32) (next : List UInt8 → Decoder (Option Incoming))
    (replies : List Reply)
    (r : Uv.Read) (octets : List UInt8) (hne : octets ≠ []) (hle : octets.length ≤ r.remaining) :
    octets.foldl (consume heap id) (.reading r next, replies) =
      if r.remaining = octets.length then goOn heap id (next (r.received ++ octets)) replies
      else (.reading ⟨r.received ++ octets, r.remaining - octets.length, r.result + octets.length⟩
        next, replies) := by
  induction octets generalizing r with
  | nil => exact absurd rfl hne
  | cons octet octets ih =>
    have hpos : r.allocCb ≠ 0 := by
      simp only [List.length_cons] at hle
      simp only [Uv.Read.allocCb]
      omega
    have hone : r.readCb 1 [octet] =
        (⟨r.received ++ [octet], r.remaining - 1, r.result + 1⟩, r.remaining - 1 == 0) :=
      Uv.readCb_data r [octet] (by simp)
    have hstep : consume heap id (.reading r next, replies) octet =
        if r.remaining = 1 then goOn heap id (next (r.received ++ [octet])) replies
        else (.reading ⟨r.received ++ [octet], r.remaining - 1, r.result + 1⟩ next, replies) := by
      simp only [consume, hpos, if_false, hone, beq_iff_eq]
      simp only [Uv.Read.allocCb] at hpos
      by_cases h1 : r.remaining = 1
      · simp [h1]
      · rw [if_neg (by omega), if_neg h1]
    rw [List.foldl_cons, hstep]
    simp only [List.length_cons] at hle ⊢
    by_cases hnil : octets = []
    · simp [hnil]
    · have hlen : 0 < octets.length := List.length_pos_iff.mpr hnil
      rw [if_neg (by omega), ih _ hnil (by simp only; omega)]
      simp only [List.append_assoc, List.singleton_append]
      by_cases hall : r.remaining = octets.length + 1
      · rw [if_pos (by omega), if_pos hall]
      · rw [if_neg (by omega), if_neg hall]
        congr 2
        · congr 1
          · omega
          · push_cast
            ring

namespace Client

def Settled (c : Client) : Prop :=
  match c.phase with
  | .reading _ _ => c.inbox = []
  | .writing _ => False
  | .ended => True

def view (heap : Heap) (c : Client) : Phase × List Reply :=
  match c.phase with
  | .writing reply => (listening heap, c.replies ++ [reply])
  | phase => (phase, c.replies)

structure Faithful (heap : Heap) (c : Client) : Prop where
  result : ∀ r next, c.phase = .reading r next → 0 ≤ r.result
  ids : ∀ k, Reply.created k ∈ c.replies ∨ c.phase = .writing (.created k) → k = c.id
  sent : c.broken = false → c.sent = c.replies.flatMap Reply.serialize
  consumed : c.broken = false → c.woken = false → c.view heap = consumeAll heap c.id c.consumed ∨
    c.phase = .ended ∧ ∃ r next, r.remaining = 0 ∧ consumeAll heap c.id c.consumed =
      (.reading r next, c.replies)

variable {heap : Heap}

lemma fresh_faithful (id : Int32) (accepted : Bool) : (fresh heap id accepted).Faithful heap := by
  obtain ⟨next, hnext⟩ := listening_reads heap
  cases accepted with
  | true =>
    refine ⟨?_, ?_, fun _ => rfl, fun _ _ => Or.inl ?_⟩
    · intro r next' hr
      simp only [fresh, if_true, hnext, Phase.reading.injEq] at hr
      rw [← hr.1]
      exact le_refl _
    · intro k hk
      simp [fresh, hnext] at hk
    · simp [view, fresh, hnext, consumeAll]
  | false =>
    refine ⟨?_, ?_, fun hb => ?_, fun hb => ?_⟩
    · intro r next' hr
      simp [fresh] at hr
    · intro k hk
      simp [fresh] at hk
    · simp [fresh] at hb
    · simp [fresh] at hb

lemma deliver_eq (heap : Heap) (next : List UInt8 → Decoder (Option Incoming)) {c : Client}
    {r : Uv.Read} {k : ℕ} (hk : 0 < k)
    (hle : k ≤ c.inbox.length) (hr : 0 < r.remaining) (hresult : 0 ≤ r.result) :
    ∃ octets, octets ≠ [] ∧ octets.length ≤ r.remaining ∧
      c.inbox = octets ++ c.inbox.drop octets.length ∧
      c.deliver heap r next k =
        { c with
          inbox := c.inbox.drop octets.length
          consumed := c.consumed ++ octets
          phase := if r.remaining = octets.length then
            proceed heap c.id (next (r.received ++ octets))
            else .reading ⟨r.received ++ octets, r.remaining - octets.length,
              r.result + octets.length⟩ next } := by
  obtain ⟨octets, hoctets⟩ : ∃ octets, octets = (c.inbox.take k).take r.remaining := ⟨_, rfl⟩
  have htake : octets = c.inbox.take (min r.remaining k) := by rw [hoctets, List.take_take]
  have hlen : octets.length = min r.remaining k := by
    rw [htake, List.length_take]
    omega
  have hne : octets ≠ [] := List.ne_nil_of_length_pos (by omega)
  have hoffered : r.allocCb ≠ 0 := Nat.pos_iff_ne_zero.mp hr
  have hcallback : ∃ left : List Uv.Event, Uv.callback r.allocCb (.data (c.inbox.take k)) =
      ((octets.length : ℤ), octets, left) := by
    rw [Uv.callback, if_neg hoffered, hoctets]
    exact ⟨_, rfl⟩
  obtain ⟨left, hcallback⟩ := hcallback
  refine ⟨octets, hne, by omega, ?_, ?_⟩
  · rw [hlen]
    conv_lhs => rw [← List.take_append_drop (min r.remaining k) c.inbox, ← htake]
  · simp only [deliver, hcallback, Uv.readCb_data r octets hne, beq_iff_eq]
    by_cases hall : r.remaining = octets.length
    · rw [if_pos (by omega), if_neg (by omega), if_pos hall]
    · rw [if_neg (by omega), if_neg hall]

lemma deliver_enobufs {c : Client} {r : Uv.Read}
    {next : List UInt8 → Decoder (Option Incoming)} {k : ℕ}
    (hr : r.remaining = 0) : c.deliver heap r next k = { c with phase := .ended } := by
  simp [deliver, Uv.Read.allocCb, hr, Uv.callback, Uv.Read.readCb, Uv.enobufs]

lemma view_proceed (c : Client) (inbox consumed : List UInt8) (d : Decoder (Option Incoming)) :
    ({ c with inbox := inbox, consumed := consumed, phase := proceed heap c.id d } :
      Client).view heap =
      goOn heap c.id d c.replies := by
  simp only [view, goOn]

lemma Faithful.view_reading {c : Client} (h : c.Faithful heap) {r : Uv.Read}
    {next : List UInt8 → Decoder (Option Incoming)} (hphase : c.phase = .reading r next)
    (hb : c.broken = false)
    (hw : c.woken = false) : (.reading r next, c.replies) = consumeAll heap c.id c.consumed := by
  rcases h.consumed hb hw with hview | ⟨hended, -⟩
  · rw [← hview, view, hphase]
  · exact nomatch hphase.symm.trans hended

lemma proceed_result {id : Int32} {d : Decoder (Option Incoming)} {r : Uv.Read}
    {next : List UInt8 → Decoder (Option Incoming)} (h : proceed heap id d = .reading r next) :
    0 ≤ r.result := by
  rcases proceed_cases heap id d with ⟨n, next', hp⟩ | hp | ⟨reply, hp, -⟩
  · simp only [hp, Phase.reading.injEq] at h
    rw [← h.1]
    exact le_refl _
  · simp [hp] at h
  · simp [hp] at h

lemma proceed_id {id : Int32} {d : Decoder (Option Incoming)} {k : Int32}
    (h : proceed heap id d = .writing (.created k)) : k = id := by
  rcases proceed_cases heap id d with ⟨n, next, hp⟩ | hp | ⟨reply, hp, hid⟩
  · simp [hp] at h
  · simp [hp] at h
  · simp only [hp, Phase.writing.injEq] at h
    exact hid k h

lemma readable_faithful {c : Client} {r : Uv.Read}
    {next : List UInt8 → Decoder (Option Incoming)} {k : ℕ}
    (h : c.Faithful heap) (hphase : c.phase = .reading r next) (hk : 0 < k)
    (hle : k ≤ c.inbox.length) :
    (c.deliver heap r next k).Faithful heap := by
  have hview : c.broken = false → c.woken = false →
    (.reading r next, c.replies) = consumeAll heap c.id c.consumed :=
    h.view_reading hphase
  rcases Nat.eq_zero_or_pos r.remaining with hzero | hpos
  · rw [deliver_enobufs hzero]
    refine ⟨?_, ?_, h.sent, ?_⟩
    · intro r' next' hr
      cases hr
    · intro k hk
      exact h.ids k (Or.inl (hk.resolve_right (by simp)))
    · intro hb hw
      exact Or.inr ⟨rfl, r, next, hzero, (hview hb hw).symm⟩
  · obtain ⟨octets, hne, hlen, hinbox, hdeliver⟩ := deliver_eq heap next hk hle hpos
      (h.result r next hphase)
    rw [hdeliver]
    by_cases hall : r.remaining = octets.length
    · simp only [hall, if_true]
      refine ⟨?_, ?_, h.sent, ?_⟩
      · intro r' next' hr
        exact proceed_result hr
      · rintro k (hk | hk)
        · exact h.ids k (Or.inl hk)
        · exact proceed_id hk
      · intro hb hw
        apply Or.inl
        rw [view_proceed, consumeAll, List.foldl_append, ← consumeAll, ← hview hb hw,
          consume_chunk heap c.id next c.replies r octets hne hlen, if_pos hall]
    · simp only [hall, if_false]
      refine ⟨?_, ?_, h.sent, ?_⟩
      · intro r' next' hr
        have hresult := h.result r next hphase
        simp only [Phase.reading.injEq] at hr
        rw [← hr.1]
        simp only
        omega
      · intro k hk
        exact h.ids k (Or.inl (hk.resolve_right (by simp)))
      · intro hb hw
        apply Or.inl
        rw [consumeAll, List.foldl_append, ← consumeAll, ← hview hb hw,
          consume_chunk heap c.id next c.replies r octets hne hlen, if_neg hall, view]

lemma wake_eq (heap : Heap) (c : Client) (r : Uv.Read)
    (next : List UInt8 → Decoder (Option Incoming))
    (stale : List UInt8) :
    c.wake heap r next stale =
      if r.remaining = 0 then { c with phase := .ended }
      else { c with phase := proceed heap c.id (next (r.received ++ stale)), woken := true } := by
  by_cases hr : r.remaining = 0
  · simp [wake, Uv.Read.allocCb, Uv.callback, Uv.Read.readCb, Uv.enobufs, hr]
  · simp [wake, Uv.Read.allocCb, Uv.callback, Uv.Read.readCb, hr]

lemma wakeup_faithful {c : Client} {r : Uv.Read} {next : List UInt8 → Decoder (Option Incoming)}
    (stale : List UInt8) (h : c.Faithful heap) (hphase : c.phase = .reading r next) :
    (c.wake heap r next stale).Faithful heap := by
  rw [wake_eq]
  split_ifs with hzero
  · refine ⟨?_, ?_, h.sent, ?_⟩
    · intro r' next' hr
      cases hr
    · intro k hk
      exact h.ids k (Or.inl (hk.resolve_right (by simp)))
    · intro hb hw
      exact Or.inr ⟨rfl, r, next, hzero, (h.view_reading hphase hb hw).symm⟩
  · refine ⟨?_, ?_, h.sent, fun _ hw => by simp at hw⟩
    · intro r' next' hr
      exact proceed_result hr
    · rintro k (hk | hk)
      · exact h.ids k (Or.inl hk)
      · exact proceed_id hk

lemma step_faithful {c d : Client} {e : ClientEvent} (h : c.Faithful heap)
    (hstep : c.step heap e = some d) :
    d.Faithful heap := by
  cases e with
  | arrive octets =>
    cases hstep
    refine ⟨h.result, h.ids, h.sent, ?_⟩
    exact h.consumed
  | readable k =>
    cases hphase : c.phase with
    | reading r next =>
      simp only [step, hphase, Option.ite_none_right_eq_some, Option.some.injEq] at hstep
      obtain ⟨⟨hk, hle⟩, rfl⟩ := hstep
      exact readable_faithful h hphase hk hle
    | writing reply => simp [step, hphase] at hstep
    | ended => simp [step, hphase] at hstep
  | wakeup stale =>
    cases hphase : c.phase with
    | reading r next =>
      simp only [step, hphase, Option.ite_none_right_eq_some, Option.some.injEq] at hstep
      obtain ⟨-, rfl⟩ := hstep
      exact wakeup_faithful stale h hphase
    | writing reply => simp [step, hphase] at hstep
    | ended => simp [step, hphase] at hstep
  | readFails nread =>
    cases hphase : c.phase with
    | reading r next =>
      simp only [step, hphase, Option.ite_none_right_eq_some, Option.some.injEq] at hstep
      obtain ⟨-, rfl⟩ := hstep
      refine ⟨?_, ?_, fun hb => by simp at hb, fun hb => by simp at hb⟩
      · intro r' next' hr
        cases hr
      · intro k hk
        exact h.ids k (Or.inl (hk.resolve_right (by simp)))
    | writing reply => simp [step, hphase] at hstep
    | ended => simp [step, hphase] at hstep
  | writeDone =>
    cases hphase : c.phase with
    | reading r next => simp [step, hphase] at hstep
    | writing reply =>
      simp only [step, hphase, Option.some.injEq] at hstep
      subst hstep
      obtain ⟨next, hnext⟩ := listening_reads heap
      refine ⟨?_, ?_, ?_, ?_⟩
      · intro r' next' hr
        simp only [hnext, Phase.reading.injEq] at hr
        rw [← hr.1]
        exact le_refl _
      · rintro k (hk | hk)
        · rcases List.mem_append.mp hk with hk | hk
          · exact h.ids k (Or.inl hk)
          · exact h.ids k (Or.inr (by rw [hphase, List.mem_singleton.mp hk]))
        · simp [hnext] at hk
      · intro hb
        simp [h.sent hb]
      · intro hb hw
        apply Or.inl
        rcases h.consumed hb hw with hview | ⟨hended, -⟩
        · rw [← hview, view, view, hphase, hnext]
        · exact nomatch hphase.symm.trans hended
    | ended => simp [step, hphase] at hstep
  | writeFails k =>
    cases hphase : c.phase with
    | reading r next => simp [step, hphase] at hstep
    | writing reply =>
      simp only [step, hphase, Option.some.injEq] at hstep
      subst hstep
      refine ⟨?_, ?_, fun hb => by simp at hb, fun hb => by simp at hb⟩
      · intro r' next' hr
        cases hr
      · intro k hk
        exact h.ids k (Or.inl (hk.resolve_right (by simp)))
    | ended => simp [step, hphase] at hstep

lemma step_id {c d : Client} {e : ClientEvent} (hstep : c.step heap e = some d) : d.id = c.id := by
  cases e <;> simp only [step] at hstep
  · cases hstep
    rfl
  all_goals
    cases hphase : c.phase <;> simp only [hphase, reduceCtorEq, Option.ite_none_right_eq_some,
      Option.some.injEq] at hstep
  · obtain ⟨-, rfl⟩ := hstep
    simp only [deliver]
    split_ifs <;> rfl
  · obtain ⟨-, rfl⟩ := hstep
    rw [wake_eq]
    split_ifs <;> rfl
  · obtain ⟨-, rfl⟩ := hstep
    rfl
  · rw [← hstep]
  · rw [← hstep]

lemma step_woken {c d : Client} {e : ClientEvent} (hstep : c.step heap e = some d)
    (hw : d.woken = true) :
    c.woken = true ∨ ∃ stale, stale ≠ [] ∧ e = .wakeup stale := by
  cases e with
  | arrive octets =>
    cases hstep
    exact Or.inl hw
  | readable k =>
    cases hphase : c.phase <;> simp only [step, hphase, reduceCtorEq, Option.ite_none_right_eq_some,
      Option.some.injEq] at hstep
    obtain ⟨-, rfl⟩ := hstep
    simp only [deliver] at hw
    split_ifs at hw <;> exact Or.inl hw
  | wakeup stale =>
    cases hphase : c.phase <;> simp only [step, hphase, reduceCtorEq, Option.ite_none_right_eq_some,
      Option.some.injEq] at hstep
    obtain ⟨hlen, rfl⟩ := hstep
    rw [wake_eq] at hw
    split_ifs at hw with hzero
    · exact Or.inl hw
    · exact Or.inr ⟨stale, List.ne_nil_of_length_pos (by omega), rfl⟩
  | readFails nread =>
    cases hphase : c.phase <;> simp only [step, hphase, reduceCtorEq, Option.ite_none_right_eq_some,
      Option.some.injEq] at hstep
    obtain ⟨-, rfl⟩ := hstep
    exact Or.inl hw
  | writeDone =>
    cases hphase : c.phase <;> simp only [step, hphase, reduceCtorEq, Option.some.injEq] at hstep
    rw [← hstep] at hw
    exact Or.inl hw
  | writeFails k =>
    cases hphase : c.phase <;> simp only [step, hphase, reduceCtorEq, Option.some.injEq] at hstep
    rw [← hstep] at hw
    exact Or.inl hw

end Client

namespace Listener

variable {heap : Heap}

structure Agrees (heap : Heap) (es : List Event) (s : Listener) : Prop where
  idGenerator : s.idGenerator = Int32.ofNat s.clients.length
  fresh : ∀ i, s.clients.length ≤ i → own i es = []
  ids : ∀ (i : ℕ) (c : Client), s.clients[i]? = some c → c.id = Int32.ofNat (i + 1)
  faithful : ∀ (i : ℕ) (c : Client), s.clients[i]? = some c → c.Faithful heap
  alone : ∀ (i : ℕ) (c : Client), s.clients[i]? = some c → run (step heap) (solo c.id) (own i es) =
    some ⟨c.id, [c]⟩
  woken : ∀ (i : ℕ) (c : Client), s.clients[i]? = some c → c.woken = true →
    ∃ stale, stale ≠ [] ∧ Event.client i (.wakeup stale) ∈ es

lemma own_concat (i : ℕ) (es : List Event) (e : Event) :
    own i (es ++ [e]) = own i es ++ (e.own i).toList := by
  rw [own, List.filterMap_append, own, List.append_cancel_left_eq]
  cases h : e.own i <;> simp [h]

lemma agrees_accept {es : List Event} {s : Listener} (h : s.Agrees heap es) (accepted : Bool) :
    (⟨s.idGenerator + 1, s.clients ++ [Client.fresh heap (s.idGenerator + 1) accepted]⟩ :
      Listener).Agrees heap
      (es ++ [.accept s.clients.length accepted]) := by
  have hid : s.idGenerator + 1 = Int32.ofNat (s.clients.length + 1) := by
    rw [h.idGenerator]
    exact (Int32.ofNat_add _ _).symm
  have hother : ∀ i, i ≠ s.clients.length → own i (es ++ [.accept s.clients.length accepted]) =
    own i es := fun i hi => by
    rw [own_concat, Event.own, if_neg (Ne.symm hi), Option.toList_none, List.append_nil]
  have hcases :
    ∀ i c, (s.clients ++ [Client.fresh heap (s.idGenerator + 1) accepted])[i]? = some c →
      s.clients[i]? = some c ∧ i ≠ s.clients.length ∨
        i = s.clients.length ∧ c = Client.fresh heap (s.idGenerator + 1) accepted :=
          fun i c hc => by
    rcases lt_trichotomy i s.clients.length with hlt | heq | hgt
    · rw [List.getElem?_append_left hlt] at hc
      exact Or.inl ⟨hc, hlt.ne⟩
    · simp [heq] at hc
      exact Or.inr ⟨heq, hc.symm⟩
    · rw [List.getElem?_eq_none (by simp; omega)] at hc
      cases hc
  refine ⟨?_, ?_, ?_, ?_, ?_, ?_⟩
  · rw [hid, List.length_append, List.length_singleton]
  · intro i hi
    rw [List.length_append, List.length_singleton] at hi
    rw [hother i (by omega)]
    exact h.fresh i (by omega)
  · intro i c hc
    rcases hcases i c hc with ⟨hc, -⟩ | ⟨rfl, rfl⟩
    · exact h.ids i c hc
    · exact hid
  · intro i c hc
    rcases hcases i c hc with ⟨hc, -⟩ | ⟨-, rfl⟩
    · exact h.faithful i c hc
    · exact Client.fresh_faithful _ accepted
  · intro i c hc
    rcases hcases i c hc with ⟨hc, hi⟩ | ⟨rfl, rfl⟩
    · rw [hother i hi]
      exact h.alone i c hc
    · rw [own_concat, h.fresh _ le_rfl, Event.own, if_pos rfl, Option.toList_some, List.nil_append,
        run_cons]
      simp only [step, solo, List.length_nil, if_true, Client.fresh, Int32.sub_add_cancel,
        Option.bind_some, run_nil,
        List.nil_append]
  · intro i c hc hw
    rcases hcases i c hc with ⟨hc, -⟩ | ⟨-, rfl⟩
    · obtain ⟨stale, hne, hmem⟩ := h.woken i c hc hw
      exact ⟨stale, hne, List.mem_append_left _ hmem⟩
    · exact nomatch hw

lemma agrees_client {es : List Event} {s : Listener} {i : ℕ} {e : ClientEvent} {c d : Client}
    (h : s.Agrees heap es) (hc : s.clients[i]? = some c) (hstep : c.step heap e = some d) :
    (⟨s.idGenerator, s.clients.set i d⟩ : Listener).Agrees heap (es ++ [.client i e]) := by
  have hlt : i < s.clients.length := (List.getElem?_eq_some_iff.mp hc).1
  have hid : d.id = c.id := Client.step_id hstep
  have hother : ∀ j, j ≠ i → own j (es ++ [.client i e]) = own j es := fun j hj => by
    rw [own_concat, Event.own, if_neg (Ne.symm hj), Option.toList_none, List.append_nil]
  have hcases : ∀ j b, (s.clients.set i d)[j]? = some b → j = i ∧ b = d ∨ j ≠ i ∧
    s.clients[j]? = some b :=
    fun j b hb => by
      by_cases hj : j = i
      · rw [hj, List.getElem?_set_self hlt] at hb
        exact Or.inl ⟨hj, (Option.some.inj hb).symm⟩
      · rw [List.getElem?_set_ne (Ne.symm hj)] at hb
        exact Or.inr ⟨hj, hb⟩
  refine ⟨?_, ?_, ?_, ?_, ?_, ?_⟩
  · rw [List.length_set]
    exact h.idGenerator
  · intro j hj
    rw [List.length_set] at hj
    rw [hother j (by omega)]
    exact h.fresh j hj
  · intro j b hb
    rcases hcases j b hb with ⟨rfl, rfl⟩ | ⟨-, hb⟩
    · rw [hid]
      exact h.ids j c hc
    · exact h.ids j b hb
  · intro j b hb
    rcases hcases j b hb with ⟨rfl, rfl⟩ | ⟨-, hb⟩
    · exact Client.step_faithful (h.faithful j c hc) hstep
    · exact h.faithful j b hb
  · intro j b hb
    rcases hcases j b hb with ⟨rfl, rfl⟩ | ⟨hj, hb⟩
    · rw [own_concat, Event.own, if_pos rfl, Option.toList_some, hid, run_concat_eq_some]
      refine ⟨⟨c.id, [c]⟩, h.alone j c hc, ?_⟩
      simp [step, hstep]
    · rw [hother j hj]
      exact h.alone j b hb
  · intro j b hb hw
    rcases hcases j b hb with ⟨rfl, rfl⟩ | ⟨-, hb⟩
    · rcases Client.step_woken hstep hw with hw | ⟨stale, hne, rfl⟩
      · obtain ⟨stale, hne, hmem⟩ := h.woken j c hc hw
        exact ⟨stale, hne, List.mem_append_left _ hmem⟩
      · exact ⟨stale, hne, List.mem_append_right _ (List.mem_singleton.mpr rfl)⟩
    · obtain ⟨stale, hne, hmem⟩ := h.woken j b hb hw
      exact ⟨stale, hne, List.mem_append_left _ hmem⟩

lemma agrees_step {es : List Event} {s t : Listener} {e : Event} (h : s.Agrees heap es)
    (hstep : s.step heap e = some t) : t.Agrees heap (es ++ [e]) := by
  cases e with
  | accept i accepted =>
    simp only [step, Option.ite_none_right_eq_some, Option.some.injEq] at hstep
    obtain ⟨rfl, rfl⟩ := hstep
    exact agrees_accept h accepted
  | client i e =>
    simp only [step, Option.bind_eq_bind, Option.bind_eq_some_iff, Option.pure_def,
      Option.some.injEq] at hstep
    obtain ⟨c, hc, d, hd, rfl⟩ := hstep
    exact agrees_client h hc hd

lemma run_agrees {es : List Event} {s : Listener} (h : run (step heap) start es = some s) :
    s.Agrees heap es := by
  apply run_induction ?_ (fun es t e u _ ht hstep => agrees_step ht hstep) h
  exact ⟨rfl, fun _ _ => rfl, fun i c hc =>
    by simp [start] at hc, fun i c hc => by simp [start] at hc,
    fun i c hc => by simp [start] at hc, fun i c hc => by simp [start] at hc⟩

def roomy : Heap := ⟨fun _ => true, fun _ => true⟩

end Listener

end Catter.Server
