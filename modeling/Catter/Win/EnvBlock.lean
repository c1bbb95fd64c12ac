import Catter.Library.TerminatedWords
import Catter.Win.Detour

/-! The environment block of an intercepted call, to which the rpc id is added. -/

namespace Catter.Win

open Text Library.TerminatedWords

variable {α : Type} [DecidableEq α] [CharT α]

def charZero : α := CharT.ofOctet 0

abbrev Entry (α : Type) [CharT α] := Word (charZero : α)

def envVarRpcId : List α := literal "CATTER_RPC_ID"

def isKeyMatch (entry targetKey : List α) : Bool :=
  if entry.length ≤ targetKey.length then false
  else if entry[targetKey.length]? ≠ some (CharT.ofOctet 61) then false
  else entry.take targetKey.length = targetKey

-- The loop over the entries; `current` is what the block still holds from the pointer on, and a
-- read behind its end gives `none`.
def fixEnvBlockLoop (result : List α) (found : Bool) (current : List α) : Option (List α × Bool) :=
  match current with
  | [] => none
  | c :: cs =>
    if c = charZero then some (result, found)
    else match h : scanWord charZero (c :: cs) with
      | none => none
      | some (sv, rest) =>
        fixEnvBlockLoop (result ++ (sv ++ [charZero])) (if isKeyMatch sv envVarRpcId then true
          else found) rest
termination_by current.length
decreasing_by exact scanWord_lt h

def fixEnvBlockHelper (envBlock rpcIdEntry : List α) : Option (List α) :=
  (fixEnvBlockLoop [] false envBlock).map fun (result, found) =>
    (if found then result else result ++ (rpcIdEntry ++ [charZero])) ++ [charZero]

def rpcIdEntry (rpcId : CText α) : Entry α where
  letters := envVarRpcId ++ CharT.ofOctet 61 :: rpcId.text
  ne_nil := by simp
  no_mark := by
    have hkey : (charZero : α) ∉ envVarRpcId := literal_no_nul (by decide)
    have hequals : (charZero : α) ≠ CharT.ofOctet 61 := CharT.injective.ne (by decide)
    simp only [List.mem_append, List.mem_cons, not_or]
    exact ⟨hkey, hequals, rpcId.no_nul⟩

omit [DecidableEq α] in
lemma literal_key : (literal "CATTER_RPC_ID=" : List α) = envVarRpcId ++ [CharT.ofOctet 61] := by
  have hkey : lit "CATTER_RPC_ID=" = lit "CATTER_RPC_ID" ++ [61] := by decide
  rw [literal, hkey, List.map_append]
  rfl

-- The key has to be the whole name in front of the "=".
lemma isKeyMatch_iff (entry key : List α) : isKeyMatch entry key = true ↔
    key ++ [CharT.ofOctet 61] <+: entry := by
  rw [isKeyMatch]
  constructor
  · intro h
    split_ifs at h with hlen hequals
    rw [decide_eq_true_iff] at h
    rw [List.prefix_iff_eq_take, List.length_append, List.length_singleton, List.take_add_one, h,
      not_not.mp hequals]
    rfl
  · rintro ⟨rest, rfl⟩
    have hlen : ¬ (key ++ [CharT.ofOctet 61] ++ rest).length ≤ key.length := by simp
    have hequals : (key ++ [CharT.ofOctet 61] ++ rest)[key.length]? =
      some (CharT.ofOctet 61) := by simp
    have htake : (key ++ [CharT.ofOctet 61] ++ rest).take key.length = key := by simp
    simp only [if_neg hlen, hequals, not_true_eq_false, ne_eq, if_false, htake, decide_true]

lemma fixEnvBlockLoop_done (result : List α) (found : Bool) :
    fixEnvBlockLoop result found [charZero] = some (result, found) := by
  rw [fixEnvBlockLoop, if_pos rfl]

lemma fixEnvBlockLoop_entry (result : List α) (found : Bool) (e : Entry α) (rest : List α) :
    fixEnvBlockLoop result found (e.letters ++ charZero :: rest) =
      fixEnvBlockLoop (result ++ (e.letters ++ [charZero]))
        (isKeyMatch e.letters envVarRpcId || found) rest := by
  obtain ⟨letters, ne_nil, no_mark⟩ := e
  have hscan := scanWord_word no_mark rest
  cases letters with
  | nil => exact absurd rfl ne_nil
  | cons c cs =>
    have hne : c ≠ charZero := by
      rintro rfl
      exact no_mark List.mem_cons_self
    rw [List.cons_append] at hscan ⊢
    rw [fixEnvBlockLoop, if_neg hne]
    split
    · simp_all
    · rename_i sv after heq
      obtain ⟨rfl, rfl⟩ : sv = c :: cs ∧ after = rest := by simpa [hscan, eq_comm] using heq
      cases isKeyMatch (c :: cs) envVarRpcId with
      | true => rfl
      | false => rfl

lemma fixEnvBlockLoop_block (entries : List (Entry α)) (result : List α) (found : Bool) :
    fixEnvBlockLoop result found (block charZero entries) =
      some (result ++ terminated charZero entries,
        entries.any (fun e => isKeyMatch e.letters envVarRpcId) || found) := by
  induction entries generalizing result found with
  | nil =>
    rw [block, terminated, List.flatMap_nil, List.nil_append, fixEnvBlockLoop_done, List.append_nil]
    rfl
  | cons e entries ih =>
    rw [block_cons, fixEnvBlockLoop_entry, ih]
    simp [terminated, Bool.or_comm, Bool.or_assoc]

lemma fixEnvBlockHelper_block (entries : List (Entry α)) (added : Entry α) :
    fixEnvBlockHelper (block charZero entries) added.letters =
      some (block charZero (entries ++
        if entries.any (fun e => isKeyMatch e.letters envVarRpcId) then [] else [added])) := by
  rw [fixEnvBlockHelper, fixEnvBlockLoop_block, Option.map_some, Bool.or_false, List.nil_append]
  cases entries.any fun e => isKeyMatch e.letters envVarRpcId with
  | true => simp only [if_true, List.append_nil, block]
  | false =>
    simp only [Bool.false_eq_true, if_false, block, terminated_append]
    simp [terminated]

lemma any_isKeyMatch (entries : List (Entry α)) :
    entries.any (fun e => isKeyMatch e.letters envVarRpcId) = true ↔
      ∃ e ∈ entries, literal "CATTER_RPC_ID=" <+: e.letters := by
  simp only [List.any_eq_true, isKeyMatch_iff, literal_key]

theorem fix_env_block_helper_extends (entries : List (Entry α)) (added : Entry α) :
    fixEnvBlockHelper (block charZero entries) added.letters =
      some (block charZero (entries ++
        if ∃ e ∈ entries, literal "CATTER_RPC_ID=" <+: e.letters then [] else [added])) := by
  rw [fixEnvBlockHelper_block]
  simp only [any_isKeyMatch]

end Catter.Win
