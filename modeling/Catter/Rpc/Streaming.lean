import Catter.Rpc.Serde
import Catter.Uv.Read

/-! Messages read from a pipe against messages read from one buffer. -/

namespace Catter.Rpc

open Library.ExactReads Text Uv

inductive Kind
  | request | int32 | string | command | action
deriving DecidableEq

inductive Value
  | request (req : Request)
  | int32 (v : Int32)
  | string (s : Str)
  | command (cmd : Command)
  | action (act : Action)
deriving DecidableEq

namespace Value

def kind : Value → Kind
  | .request _ => .request
  | .int32 _ => .int32
  | .string _ => .string
  | .command _ => .command
  | .action _ => .action

def serialize : Value → List UInt8
  | .request req => Serde.request.serialize req
  | .int32 v => Serde.int32.serialize v
  | .string s => Serde.string.serialize s
  | .command cmd => Serde.command.serialize cmd
  | .action act => Serde.action.serialize act

def Fits : Value → Prop
  | .request _ | .int32 _ => True
  | .string s => StrFits s
  | .command cmd => cmd.Fits
  | .action act => act.cmd.Fits

end Value

def Command.HasEmptyString (cmd : Command) : Prop :=
  cmd.workingDir = [] ∨ cmd.executable = [] ∨ [] ∈ cmd.args ∨ [] ∈ cmd.env

def Value.HasEmptyString : Value → Prop
  | .request _ | .int32 _ => False
  | .string s => s = []
  | .command cmd => cmd.HasEmptyString
  | .action act => act.cmd.HasEmptyString

def Kind.deserialize : Kind → Decoder Value
  | .request => do
    let req ← Serde.request.deserialize
    pure (.request req)
  | .int32 => do
    let v ← Serde.int32.deserialize
    pure (.int32 v)
  | .string => do
    let s ← Serde.string.deserialize
    pure (.string s)
  | .command => do
    let cmd ← Serde.command.deserialize
    pure (.command cmd)
  | .action => do
    let act ← Serde.action.deserialize
    pure (.action act)

def deserializeAll : List Kind → Decoder (List Value)
  | [] => pure []
  | k :: ks => do
    let v ← k.deserialize
    let vs ← deserializeAll ks
    pure (v :: vs)

def serializeAll (vs : List Value) : List UInt8 := vs.flatMap Value.serialize

lemma value_lawful {α : Type} {P : α → Prop} {encode : α → List UInt8} {d : Decoder α}
    (h : Lawful P encode d)
    {f : α → Value} {k : Kind} (hencode : ∀ a, (f a).serialize = encode a)
    (hkind : ∀ v, (∃ a, P a ∧ f a = v) ↔ v.kind = k ∧ v.Fits) :
    Lawful (fun v => v.kind = k ∧ v.Fits) Value.serialize (d.bind fun a => .done (f a)) := by
  apply (h.map hencode).congr hkind
  intro v hv
  rfl

lemma kind_lawful (k : Kind) :
    Lawful (fun v => v.kind = k ∧ v.Fits) Value.serialize k.deserialize := by
  cases k with
  | request =>
    apply value_lawful uint8_lawful fun _ => rfl
    intro v
    cases v <;> simp [Value.kind, Value.Fits]
  | int32 =>
    apply value_lawful int32_lawful fun _ => rfl
    intro v
    cases v <;> simp [Value.kind, Value.Fits]
  | string =>
    apply value_lawful string_lawful fun _ => rfl
    intro v
    cases v <;> simp [Value.kind, Value.Fits]
  | command =>
    apply value_lawful command_lawful fun _ => rfl
    intro v
    cases v <;> simp [Value.kind, Value.Fits]
  | action =>
    apply value_lawful action_lawful fun _ => rfl
    intro v
    cases v <;> simp [Value.kind, Value.Fits]

/-! The reads of length zero are those of empty strings. -/

lemma string_readsNothing (s : Str) (rest : List UInt8) (hs : StrFits s) :
    Serde.string.deserialize.ReadsNothing (Serde.string.serialize s ++ rest) ↔ s = [] := by
  have hsize :
      ¬ Serde.sizeT.deserialize.ReadsNothing (Serde.sizeT.serialize s.length ++ (s ++ rest)) := by
    simp [Serde.sizeT, Serde.integral, Decoder.ReadsNothing]
  change (Serde.sizeT.deserialize.bind fun len => .read len .done).ReadsNothing
    (Serde.sizeT.serialize s.length ++ s ++ rest) ↔ _
  rw [List.append_assoc, sizeT_lawful.readsNothing_bind _ hs]
  simp [hsize, Decoder.ReadsNothing]

lemma strings_readsNothing (ss : List Str) (rest : List UInt8) (hs : StrsFit ss) :
    (Serde.vector Serde.string).deserialize.ReadsNothing
      ((Serde.vector Serde.string).serialize ss ++ rest) ↔ [] ∈ ss := by
  have hsize (bs : List UInt8) :
      ¬ Serde.sizeT.deserialize.ReadsNothing (Serde.sizeT.serialize ss.length ++ bs) := by
    simp [Serde.sizeT, Serde.integral, Decoder.ReadsNothing]
  change (Serde.sizeT.deserialize.bind fun len =>
    Serde.string.deserialize.replicate len).ReadsNothing
    (Serde.sizeT.serialize ss.length ++ ss.flatMap Serde.string.serialize ++ rest) ↔ _
  rw [List.append_assoc, sizeT_lawful.readsNothing_bind _ hs.1,
    string_lawful.readsNothing_replicate string_readsNothing ss hs.2]
  simp [hsize]

lemma command_readsNothing (cmd : Command) (rest : List UInt8) (hc : cmd.Fits) :
    Serde.command.deserialize.ReadsNothing (Serde.command.serialize cmd ++ rest) ↔
      cmd.HasEmptyString := by
  simp only [Serde.command, bind_eq, pure_eq, List.append_assoc]
  rw [string_lawful.readsNothing_bind _ hc.workingDir, string_readsNothing _ _ hc.workingDir,
    string_lawful.readsNothing_bind _ hc.executable, string_readsNothing _ _ hc.executable,
    strings_lawful.readsNothing_bind _ hc.args, strings_readsNothing _ _ hc.args,
    strings_lawful.readsNothing_bind _ hc.env, strings_readsNothing _ _ hc.env]
  simp [Decoder.ReadsNothing, Command.HasEmptyString]

lemma action_readsNothing (act : Action) (rest : List UInt8) (ha : act.cmd.Fits) :
    Serde.action.deserialize.ReadsNothing (Serde.action.serialize act ++ rest) ↔
      act.cmd.HasEmptyString := by
  have htype (bs : List UInt8) :
      ¬ Serde.uint8.deserialize.ReadsNothing (Serde.uint8.serialize act.type ++ bs) := by
    simp [Serde.uint8, Serde.integral, Decoder.ReadsNothing]
  simp only [Serde.action, bind_eq, pure_eq, List.append_assoc]
  rw [uint8_lawful.readsNothing_bind _ trivial, command_lawful.readsNothing_bind _ ha,
    command_readsNothing _ _ ha]
  simp [htype, Decoder.ReadsNothing]

lemma value_readsNothing (v : Value) (rest : List UInt8) (hv : v.Fits) :
    v.kind.deserialize.ReadsNothing (v.serialize ++ rest) ↔ v.HasEmptyString := by
  have hwrap {α : Type} (d : Decoder α) (wrap : α → Value) (bs : List UInt8) :
      (d.bind fun a => .done (wrap a)).ReadsNothing bs ↔ d.ReadsNothing bs := by
    simp [Library.ExactReads.readsNothing_bind, Decoder.ReadsNothing]
  cases v with
  | request req =>
    simp [Value.kind, Kind.deserialize, Value.HasEmptyString, Value.serialize, Serde.request,
      Serde.uint8, Serde.integral, Decoder.ReadsNothing]
  | int32 v =>
    simp [Value.kind, Kind.deserialize, Value.HasEmptyString, Value.serialize, Serde.int32,
      Serde.integral, Decoder.ReadsNothing]
  | string s => exact (hwrap _ _ _).trans (string_readsNothing s rest hv)
  | command cmd => exact (hwrap _ _ _).trans (command_readsNothing cmd rest hv)
  | action act => exact (hwrap _ _ _).trans (action_readsNothing act rest hv)

lemma deserializeAll_lawful (kinds : List Kind) :
    Lawful (fun vs => vs.map Value.kind = kinds ∧ ∀ v ∈ vs, v.Fits) serializeAll
      (deserializeAll kinds) := by
  induction kinds with
  | nil =>
    refine (Lawful.done ([] : List Value)).congr
      (fun vs => ⟨?_, fun h => List.map_eq_nil_iff.mp h.1⟩) ?_
    · rintro rfl
      simp
    · rintro vs rfl
      rfl
  | cons k kinds ih =>
    refine ⟨?_, ?_⟩
    · rintro vs rest ⟨hall, hfits⟩
      cases vs with
      | nil => cases hall
      | cons v vs =>
        obtain ⟨rfl, hkinds⟩ := List.cons.inj hall
        have hd := (kind_lawful v.kind).decode_encode v (serializeAll vs ++ rest)
          ⟨rfl, hfits v List.mem_cons_self⟩
        have hr := ih.decode_encode vs rest
          ⟨hkinds, fun w hw => hfits w (List.mem_cons_of_mem _ hw)⟩
        simp only [serializeAll] at hd hr
        simp [deserializeAll, serializeAll, runBuffer_bind, hd, hr]
    · intro bs vs rest h
      simp only [deserializeAll, bind_eq, pure_eq, runBuffer_bind, Option.bind_eq_some_iff,
        runBuffer_done,
        Option.some.injEq, Prod.mk.injEq] at h
      obtain ⟨⟨v, mid⟩, hd, ⟨vs', last⟩, hr, rfl, rfl⟩ := h
      obtain ⟨⟨hkind, hfits⟩, rfl⟩ := (kind_lawful k).encode_decode bs v mid hd
      obtain ⟨⟨hkinds, hall⟩, rfl⟩ := ih.encode_decode mid vs' last hr
      refine ⟨⟨by rw [List.map_cons, hkind, hkinds], ?_⟩, ?_⟩
      · exact List.forall_mem_cons.mpr ⟨hfits, hall⟩
      · rw [serializeAll, serializeAll, List.flatMap_cons, List.append_assoc]

lemma deserializeAll_readsNothing (vs : List Value) (rest : List UInt8) (hv : ∀ v ∈ vs, v.Fits) :
    (deserializeAll (vs.map Value.kind)).ReadsNothing (serializeAll vs ++ rest) ↔
      ∃ v ∈ vs, v.HasEmptyString := by
  induction vs with
  | nil => simp [deserializeAll, Decoder.ReadsNothing]
  | cons v vs ih =>
    have hfits : ∀ w ∈ vs, w.Fits := fun w hw => hv w (by simp [hw])
    have hk := kind_lawful v.kind
    have hr := (deserializeAll_lawful (vs.map Value.kind)).decode_encode vs rest ⟨rfl, hfits⟩
    have hi := ih hfits
    simp only [serializeAll] at hr hi
    simp only [List.map_cons, deserializeAll, serializeAll, List.flatMap_cons, List.append_assoc,
      bind_eq, pure_eq]
    rw [hk.readsNothing_bind _ ⟨rfl, hv v (by simp)⟩, value_readsNothing v _ (hv v (by simp)),
      Library.ExactReads.readsNothing_bind, hi, hr]
    simp [Decoder.ReadsNothing]

variable (stale : List Event → ℕ → UInt8)

def readAll (kinds : List Kind) (events : List Event) : Except Fault (List Value × List Event) :=
  (deserializeAll kinds).runReader (reader stale) events

/-- Reading the messages `vs` from the pipe gives what one buffer gives: the same
values, and `rest` still to be read. -/
def StreamsLikeBuffer (vs : List Value) (events : List Event) (rest : List UInt8) : Prop :=
  ∃ left, readAll stale (vs.map Value.kind) events = .ok (vs, left) ∧ octets left = rest ∧
    (deserializeAll (vs.map Value.kind)).runBuffer (octets events) = some (vs, rest)

theorem streams_like_buffer_iff (vs : List Value) (events : List Event) (rest : List UInt8)
    (hv : ∀ v ∈ vs, v.Fits) (hcalm : Calm events)
    (hsplit : octets events = serializeAll vs ++ rest) :
    StreamsLikeBuffer stale vs events rest ↔
      (∀ v ∈ vs, ¬ v.HasEmptyString) ∧ Undisturbed (serializeAll vs).length events := by
  have hlawful := deserializeAll_lawful (vs.map Value.kind)
  have hbuffer := hlawful.decode_encode vs rest ⟨rfl, hv⟩
  have hreads := deserializeAll_readsNothing vs [] hv
  rw [List.append_nil] at hreads
  have hrun := (reader_hands stale).runReader_ok_iff hlawful hcalm ⟨rfl, hv⟩ hsplit
  rw [hreads] at hrun
  simp only [StreamsLikeBuffer, readAll, hsplit, hbuffer, and_true, hrun]
  push Not
  rfl

theorem streams_like_buffer_two_chunks :
    StreamsLikeBuffer (fun _ _ => 0) [.int32 7, .request Request.finish]
        [.data [7, 0, 0], .data [0, 3, 9], .again] [9] ↔
      (∀ v ∈ [Value.int32 7, Value.request Request.finish], ¬ v.HasEmptyString) ∧
        Undisturbed 5 [.data [7, 0, 0], .data [0, 3, 9], .again] :=
  streams_like_buffer_iff _ _ _ [9] (by simp [Value.Fits]) (by simp [Calm, Event.Calm]) (by decide)

theorem empty_argument_and_wakeup_not_streamed :
    let vs : List Value :=
      [.request Request.makeDecision, .command ⟨lit "/", lit "/bin/cc", [[]], []⟩]
    let ws : List Value := [.request Request.create, .int32 5]
    (∀ v ∈ vs, v.Fits) ∧ serializeAll vs ≠ [] ∧
      readAll (fun _ _ => 0) (vs.map Value.kind) [.data (serializeAll vs)] =
        .error (.threw enobufs) ∧
      ¬ StreamsLikeBuffer (fun _ _ => 0) vs [.data (serializeAll vs)] [] ∧
      (∀ w ∈ ws, w.Fits ∧ ¬ w.HasEmptyString) ∧
      readAll (fun _ _ => 0) (ws.map Value.kind) [.data [0], .again, .data [5, 0, 0, 0]] =
        .ok ([.request Request.create, .int32 0], [.data [5, 0, 0, 0]]) ∧
      ¬ StreamsLikeBuffer (fun _ _ => 0) ws [.data [0], .again, .data [5, 0, 0, 0]] [] := by
  have hread :
    readAll (fun _ _ => 0) [.request, .command] [.data (serializeAll [.request Request.makeDecision,
      .command ⟨lit "/", lit "/bin/cc", [[]], []⟩])] = .error (.threw enobufs) := rfl
  have hwakeup : readAll (fun _ _ => 0) [.request, .int32] [.data [0], .again, .data [5, 0, 0, 0]] =
      .ok ([.request Request.create, .int32 0], [.data [5, 0, 0, 0]]) := rfl
  refine ⟨?_, by decide, hread, ?_, by simp [Value.Fits, Value.HasEmptyString], hwakeup, ?_⟩
  · intro v hv
    have hcases : v = .request Request.makeDecision ∨
        v = .command ⟨lit "/", lit "/bin/cc", [[]], []⟩ := by simpa using hv
    rcases hcases with rfl | rfl
    · trivial
    · exact ⟨by decide, by decide, by decide, by decide⟩
  · rintro ⟨left, hok, -⟩
    exact nomatch hread.symm.trans hok
  · rintro ⟨left, hok, -⟩
    obtain ⟨hvalues, -⟩ := Prod.mk.inj (Except.ok.inj (hwakeup.symm.trans hok))
    exact absurd hvalues (by decide)

end Catter.Rpc
