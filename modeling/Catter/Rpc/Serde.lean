import Catter.Library.ExactReads
import Catter.Library.LittleEndian
import Catter.Text

/-! The messages between catter, catter-proxy and the hook, and their codec.
A `deserialize` is written once for every reader: the synchronous template and
its coroutine twin make the same reads. -/

namespace Catter.Rpc

open Library Library.ExactReads Text

structure Command where
  workingDir : Str
  executable : Str
  args : List Str
  env : List Str
deriving DecidableEq

-- `type` is an enumeration over `uint8_t`, so any octet can arrive in it.
structure Action where
  type : UInt8
  cmd : Command
deriving DecidableEq

namespace Action

def drop : UInt8 := 0
def inject : UInt8 := 1
def wrap : UInt8 := 2

end Action

abbrev Request := UInt8

namespace Request

def create : Request := 0
def makeDecision : Request := 1
def reportError : Request := 2
def finish : Request := 3

end Request

structure Serde (α : Type) where
  serialize : α → List UInt8
  deserialize : Decoder α

namespace Serde

variable {α : Type}

-- `memcpy` of an integral value, on a little-endian machine
def integral (size : ℕ) (toNat : α → ℕ) (ofNat : ℕ → α) : Serde α where
  serialize value := LittleEndian.encode size (toNat value)
  deserialize := .read size fun bs => .done (ofNat (LittleEndian.value bs))

def uint8 : Serde UInt8 := integral 1 UInt8.toNat UInt8.ofNat

def sizeT : Serde ℕ := integral 8 id id

def int32 : Serde Int32 :=
  integral 4 (fun v => v.toUInt32.toNat) (fun n => (UInt32.ofNat n).toInt32)

def request : Serde Request := uint8

def string : Serde Str where
  serialize str := sizeT.serialize str.length ++ str
  deserialize := do
    let len ← sizeT.deserialize
    .read len .done

def vector (item : Serde α) : Serde (List α) where
  serialize vec := sizeT.serialize vec.length ++ vec.flatMap item.serialize
  deserialize := do
    let len ← sizeT.deserialize
    item.deserialize.replicate len

def command : Serde Command where
  serialize cmd := string.serialize cmd.workingDir ++ (string.serialize cmd.executable ++
    ((vector string).serialize cmd.args ++ (vector string).serialize cmd.env))
  deserialize := do
    let workingDir ← string.deserialize
    let executable ← string.deserialize
    let args ← (vector string).deserialize
    let env ← (vector string).deserialize
    pure ⟨workingDir, executable, args, env⟩

def action : Serde Action where
  serialize act := uint8.serialize act.type ++ command.serialize act.cmd
  deserialize := do
    let type ← uint8.deserialize
    let cmd ← command.deserialize
    pure ⟨type, cmd⟩

end Serde

/-! The lengths that a `size_t` prefix can hold. -/

def StrFits (s : Str) : Prop := s.length < 2 ^ 64

def StrsFit (ss : List Str) : Prop := ss.length < 2 ^ 64 ∧ ∀ s ∈ ss, StrFits s

structure Command.Fits (cmd : Command) : Prop where
  workingDir : StrFits cmd.workingDir
  executable : StrFits cmd.executable
  args : StrsFit cmd.args
  env : StrsFit cmd.env

instance (s : Str) : Decidable (StrFits s) := inferInstanceAs (Decidable (_ < _))

instance (ss : List Str) : Decidable (StrsFit ss) := inferInstanceAs (Decidable (_ ∧ _))

lemma uint8_lawful : Lawful (fun _ => True) Serde.uint8.serialize Serde.uint8.deserialize :=
  Lawful.word 1 (fun _ => LittleEndian.encode_length _ _)
    (fun b _ => by
      have hb : b.toNat < 256 ^ 1 := by simpa using b.toNat_lt
      simp [Serde.uint8, Serde.integral, LittleEndian.value_encode 1 _ hb])
    (fun bs hbs => by
      have hlt : LittleEndian.value bs < 2 ^ 8 := by
        simpa [hbs] using LittleEndian.value_lt bs
      refine ⟨trivial, ?_⟩
      simp only [Serde.uint8, Serde.integral, UInt8.toNat_ofNat', Nat.mod_eq_of_lt hlt]
      rw [← hbs, LittleEndian.encode_value])

lemma sizeT_lawful :
    Lawful (fun n => n < 2 ^ 64) Serde.sizeT.serialize Serde.sizeT.deserialize :=
  Lawful.word 8 (fun _ => LittleEndian.encode_length _ _)
    (fun n hn => LittleEndian.value_encode 8 n (hn.trans_eq (by norm_num)))
    (fun bs hbs => by
      have hlt := LittleEndian.value_lt bs
      have he := LittleEndian.encode_value bs
      rw [hbs] at hlt he
      exact ⟨hlt.trans_eq (by norm_num), he⟩)

lemma int32_lawful : Lawful (fun _ => True) Serde.int32.serialize Serde.int32.deserialize :=
  Lawful.word 4 (fun _ => LittleEndian.encode_length _ _)
    (fun v _ => by
      have hv : v.toUInt32.toNat < 256 ^ 4 := v.toUInt32.toNat_lt.trans_eq (by norm_num)
      simp [Serde.int32, Serde.integral, LittleEndian.value_encode 4 _ hv])
    (fun bs hbs => by
      have hlt : LittleEndian.value bs < 2 ^ 32 := by
        have h := LittleEndian.value_lt bs
        rw [hbs] at h
        exact h.trans_eq (by norm_num)
      refine ⟨trivial, ?_⟩
      simp only [Serde.int32, Serde.integral, UInt32.toUInt32_toInt32, UInt32.toNat_ofNat',
        Nat.mod_eq_of_lt hlt]
      rw [← hbs, LittleEndian.encode_value])

lemma string_lawful : Lawful StrFits Serde.string.serialize Serde.string.deserialize := by
  refine (sizeT_lawful.bind List.length (fun n _ => Lawful.raw n) (by simp)).congr ?_
    (fun _ _ => rfl)
  simp [StrFits]

lemma vector_lawful {α : Type} {P : α → Prop} {item : Serde α}
    (h : Lawful P item.serialize item.deserialize) :
    Lawful (fun vec => vec.length < 2 ^ 64 ∧ ∀ a ∈ vec, P a)
      (Serde.vector item).serialize (Serde.vector item).deserialize := by
  refine (sizeT_lawful.bind List.length (fun n _ => h.replicate n) ?_).congr ?_ (fun _ _ => rfl)
  · exact fun n vec hvec => hvec.1
  · simp

lemma strings_lawful :
    Lawful StrsFit (Serde.vector Serde.string).serialize (Serde.vector Serde.string).deserialize :=
  vector_lawful string_lawful

lemma command_lawful : Lawful Command.Fits Serde.command.serialize Serde.command.deserialize := by
  refine (string_lawful.bind Command.workingDir (fun workingDir _ =>
    string_lawful.bind Command.executable (fun executable _ =>
      strings_lawful.bind Command.args (fun args _ =>
        strings_lawful.bind Command.env (fun env _ =>
          Lawful.done (Command.mk workingDir executable args env)) ?_) ?_) ?_) ?_).congr ?_ ?_
  · rintro env cmd rfl
    rfl
  · rintro args cmd ⟨-, hcmd⟩
    rw [hcmd]
  · rintro executable cmd ⟨-, -, hcmd⟩
    rw [hcmd]
  · rintro workingDir cmd ⟨-, -, -, hcmd⟩
    rw [hcmd]
  · intro cmd
    exact ⟨fun h => ⟨h.1, h.2.1, h.2.2.1, h.2.2.2.1⟩, fun h => ⟨h.1, h.2, h.3, h.4, rfl⟩⟩
  · intro cmd _
    simp [Serde.command]

lemma action_lawful :
    Lawful (fun act => act.cmd.Fits) Serde.action.serialize Serde.action.deserialize := by
  refine (uint8_lawful.bind Action.type (fun type _ =>
    command_lawful.bind Action.cmd (fun cmd _ => Lawful.done (Action.mk type cmd)) ?_) ?_).congr ?_
      ?_
  · rintro cmd act rfl
    rfl
  · rintro type act ⟨-, hact⟩
    rw [hact]
  · intro act
    exact ⟨fun h => h.2.1, fun h => ⟨trivial, h, rfl⟩⟩
  · intro act _
    simp [Serde.action]

end Catter.Rpc
