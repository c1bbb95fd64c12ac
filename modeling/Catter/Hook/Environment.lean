import Catter.Hook.Command

/-! The hook's reading of the environment: the first entry for a key counts. -/

namespace Catter.Hook

open Text

-- What `c_str()` of a `std::string` points to.
def cStr (str : Str) : CString :=
  ⟨str.takeWhile (· ≠ 0), fun h => by simpa using List.mem_takeWhile_imp h⟩

lemma cStr_of_no_nul {str : Str} (h : 0 ∉ str) : (cStr str).bytes = str := by
  change str.takeWhile (· ≠ 0) = str
  rw [List.takeWhile_eq_self_iff]
  intro c hc
  rw [decide_eq_true_eq]
  rintro rfl
  exact h hc

@[simp] lemma cStr_bytes (s : CString) : cStr s.bytes = s := CString.ext (cStr_of_no_nul s.no_nul)

def CString.drop (s : CString) (n : ℕ) : CString :=
  ⟨s.bytes.drop n, fun h => s.no_nul (List.mem_of_mem_drop h)⟩

def isEntryOf (key : CString) (current : CString) : Bool :=
  key.bytes.isPrefixOf current.bytes && current.bytes[key.bytes.length]? == some 61

def getEnvEntry (envp : List CString) (key : CString) : Option CString := envp.find? (isEntryOf key)

def getEnvValue (envp : List CString) (key : CString) : Option CString :=
  (getEnvEntry envp key).map fun current => current.drop (key.bytes.length + 1)

def entry (key value : Str) : Str := key ++ 61 :: value

lemma isEntryOf_iff {key current : CString} :
    isEntryOf key current = true ↔ ∃ value, current.bytes = entry key.bytes value := by
  rw [isEntryOf, Bool.and_eq_true, List.isPrefixOf_iff_prefix, beq_iff_eq]
  constructor
  · rintro ⟨⟨rest, hrest⟩, hequal⟩
    rw [← hrest, List.getElem?_append_right le_rfl, Nat.sub_self] at hequal
    obtain ⟨value, rfl⟩ : ∃ value, rest = 61 :: value := by
      cases rest with
      | nil => simp at hequal
      | cons c value =>
        rw [List.getElem?_cons_zero, Option.some.injEq] at hequal
        exact ⟨value, by rw [hequal]⟩
    exact ⟨value, hrest.symm⟩
  · rintro ⟨value, hvalue⟩
    rw [hvalue, entry]
    refine ⟨List.prefix_append _ _, ?_⟩
    rw [List.getElem?_append_right le_rfl, Nat.sub_self, List.getElem?_cons_zero]

lemma drop_entry {key current : CString} {value : Str} (h : current.bytes = entry key.bytes value) :
    (current.drop (key.bytes.length + 1)).bytes = value := by
  change current.bytes.drop (key.bytes.length + 1) = value
  rw [h, entry, ← List.drop_drop, List.drop_left]
  rfl

end Catter.Hook
