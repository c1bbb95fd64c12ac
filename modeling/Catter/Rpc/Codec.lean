import Catter.Rpc.Serde

/-! The codec of commands and actions is a bijection onto its image, and one
encoding never starts another. -/

namespace Catter.Rpc

open Library.ExactReads

structure SelfDelimiting {α : Type} (serde : Serde α) (fits : α → Prop) : Prop where
  decode_encode : ∀ v rest, fits v → serde.deserialize.runBuffer (serde.serialize v ++ rest) =
    some (v, rest)
  encode_decode : ∀ bs v rest, serde.deserialize.runBuffer bs = some (v, rest) →
    fits v ∧ bs = serde.serialize v ++ rest
  strict_prefix : ∀ v xs ys, fits v → xs ++ ys = serde.serialize v → ys ≠ [] →
    serde.deserialize.runBuffer xs = none
  one_reading : ∀ vs ws : List α, (∀ v ∈ vs, fits v) → (∀ w ∈ ws, fits w) →
    vs.flatMap serde.serialize = ws.flatMap serde.serialize → vs = ws

lemma selfDelimiting_of_lawful {α : Type} {serde : Serde α} {fits : α → Prop}
    (h : Lawful fits serde.serialize serde.deserialize) (hne : ∀ v, serde.serialize v ≠ []) :
    SelfDelimiting serde fits where
  decode_encode := h.decode_encode
  encode_decode := h.encode_decode
  strict_prefix _ _ _ hv := h.no_strict_prefix hv
  one_reading := h.flatMap_injective hne

lemma command_serialize_ne_nil (cmd : Command) : Serde.command.serialize cmd ≠ [] := by
  intro h
  have hlen := congrArg List.length h
  simp [Serde.command, Serde.string, Serde.sizeT, Serde.integral] at hlen

lemma action_serialize_ne_nil (act : Action) : Serde.action.serialize act ≠ [] := by
  simp [Serde.action, command_serialize_ne_nil]

theorem rpc_codec_self_delimiting :
    SelfDelimiting Serde.command Command.Fits ∧ SelfDelimiting Serde.action fun act =>
      act.cmd.Fits :=
  ⟨selfDelimiting_of_lawful command_lawful command_serialize_ne_nil,
    selfDelimiting_of_lawful action_lawful action_serialize_ne_nil⟩

end Catter.Rpc
