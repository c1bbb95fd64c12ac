import Catter.Library.Deliveries
import Catter.Rpc.Streaming
import Catter.Server.Handler

/-! The messages of a proxy as the handler of its connection reads them. -/

namespace Catter.Server

open Library.ExactReads Text Rpc

/-! What comes through: a text that a length of 64 bits can hold, that is not empty,
and that the handler can allocate. -/

structure TextPasses (heap : Heap) (s : Str) : Prop where
  fits : StrFits s
  nonempty : s ≠ []
  allocated : heap.string s.length = true

structure TextsPass (heap : Heap) (ss : List Str) : Prop where
  fits : ss.length < 2 ^ 64
  allocated : heap.vector ss.length = true
  each : ∀ s ∈ ss, TextPasses heap s

structure CommandPasses (heap : Heap) (cmd : Command) : Prop where
  workingDir : TextPasses heap cmd.workingDir
  executable : TextPasses heap cmd.executable
  args : TextsPass heap cmd.args
  env : TextsPass heap cmd.env

def MessagePasses (heap : Heap) : Message → Prop
  | .create _ | .finish _ => True
  | .makeDecision cmd => CommandPasses heap cmd
  | .reportError _ _ errorMsg => TextPasses heap errorMsg

section

variable {α β : Type} {heap : Heap}

lemma expects_bind {x : Reads α} {f : α → Reads β} {bs cs : List UInt8} {a : α} {b : Option β}
    (h : Expects x.run bs (some a)) (hf : Expects (f a).run cs b) :
    Expects (x >>= f).run (bs ++ cs) b := by
  rw [OptionT.run_bind]
  exact h.bind hf

lemma expects_map {x : Reads α} {bs : List UInt8} {a : α} (f : α → β)
    (h : Expects x.run bs (some a)) :
    Expects (x >>= fun a => pure (f a)).run bs (some (f a)) := by
  rw [← List.append_nil bs]
  exact expects_bind h (expects_done_iff.mpr ⟨rfl, rfl⟩)

lemma expects_lift {d : Decoder α} {bs : List UInt8} {a : α} (h : Expects d bs a) :
    Expects (liftM d : Reads α).run bs (some a) := by
  rw [← List.append_nil bs]
  exact h.bind (expects_done_iff.mpr ⟨rfl, rfl⟩)

lemma sizeT_expects {n : ℕ} (hn : n < 2 ^ 64) :
    Expects Serde.sizeT.deserialize (Serde.sizeT.serialize n) n := by
  apply sizeT_lawful.expects hn
  simp [Serde.sizeT, Serde.integral, Decoder.ReadsNothing]

lemma int32_expects (v : Int32) : Expects Serde.int32.deserialize (Serde.int32.serialize v) v := by
  apply int32_lawful.expects trivial
  simp [Serde.int32, Serde.integral, Decoder.ReadsNothing]

lemma coString_expects {s : Str} (h : TextPasses heap s) :
    Expects (coString heap).run (Serde.string.serialize s) (some s) := by
  have hread : Expects (.read s.length .done) s s := by
    refine ⟨?_, ?_⟩
    · simp [Decoder.runBuffer]
    · simp [Decoder.ReadsNothing, h.nonempty]
  apply expects_bind (expects_lift (sizeT_expects h.fits))
  rw [if_pos h.allocated]
  exact expects_lift hread

lemma coReplicate_expects {ss : List Str} (h : ∀ s ∈ ss, TextPasses heap s) :
    Expects (coReplicate (coString heap) ss.length).run (ss.flatMap Serde.string.serialize)
      (some ss) := by
  induction ss with
  | nil => exact expects_done_iff.mpr ⟨rfl, rfl⟩
  | cons s ss ih =>
    have hrest := ih fun r hr => h r (List.mem_cons_of_mem s hr)
    exact expects_bind (coString_expects (h s List.mem_cons_self)) (expects_map (s :: ·) hrest)

lemma coStrings_expects {ss : List Str} (h : TextsPass heap ss) :
    Expects (coStrings heap).run ((Serde.vector Serde.string).serialize ss) (some ss) := by
  apply expects_bind (expects_lift (sizeT_expects h.fits))
  rw [if_pos h.allocated]
  exact coReplicate_expects h.each

lemma coCommand_expects {cmd : Command} (h : CommandPasses heap cmd) :
    Expects (coCommand heap).run (Serde.command.serialize cmd) (some cmd) := by
  apply expects_bind (coString_expects h.workingDir)
  apply expects_bind (coString_expects h.executable)
  apply expects_bind (coStrings_expects h.args)
  exact expects_map (Command.mk cmd.workingDir cmd.executable cmd.args) (coStrings_expects h.env)

lemma request_expects
    (req : Request) : Expects Serde.request.deserialize (Serde.request.serialize req) req := by
  apply uint8_lawful.expects trivial
  simp [Serde.uint8, Serde.integral, Decoder.ReadsNothing]

lemma arguments_expects {msg : Message} (h : MessagePasses heap msg) :
    Expects (arguments heap msg.request).run msg.payload (some (.known msg)) := by
  cases msg with
  | create parentId =>
    exact expects_map (fun parentId => Incoming.known (.create parentId))
      (expects_lift (int32_expects parentId))
  | makeDecision cmd =>
      exact expects_map (fun cmd => Incoming.known (.makeDecision cmd)) (coCommand_expects h)
  | finish retCode =>
    exact expects_map (fun retCode => Incoming.known (.finish retCode))
      (expects_lift (int32_expects retCode))
  | reportError parentId cmdId errorMsg =>
    apply expects_bind (expects_lift (int32_expects parentId))
    apply expects_bind (expects_lift (int32_expects cmdId))
    exact expects_map (fun errorMsg => Incoming.known (.reportError parentId cmdId errorMsg))
      (coString_expects h)

lemma message_expects {msg : Message} (h : MessagePasses heap msg) :
    Expects (message heap) msg.serialize (some (.known msg)) :=
  (request_expects msg.request).bind (arguments_expects h)

end

end Catter.Server
