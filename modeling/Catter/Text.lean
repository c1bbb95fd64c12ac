import Mathlib.Data.List.TakeWhile
import Mathlib.Tactic

/-! Strings of the program as lists of octets. -/

namespace Catter.Text

/-- `std::string` and `std::string_view`: octets of any value, zero included. -/
abbrev Str := List UInt8

def lit (s : String) : Str := s.toList.map Char.toUInt8

-- Octets are finitely many; these instances look only at the ones of the text.
instance decidableForallMem (str : Str) (q : UInt8 → Prop) [DecidablePred q] :
    Decidable (∀ c ∈ str, q c) := List.decidableBAll q str

instance decidableForallHead (first : Option UInt8) (q : UInt8 → Prop) [DecidablePred q] :
    Decidable (∀ c ∈ first, q c) :=
  decidable_of_iff (∀ c ∈ first.toList, q c) (by simp)

lemma splitOn_append_flatMap {sep : UInt8} {first : Str} {vs : List Str} (hfirst : sep ∉ first)
    (hvs : ∀ v ∈ vs, sep ∉ v) : (first ++ vs.flatMap (sep :: ·)).splitOn sep = first :: vs := by
  induction vs generalizing first with
  | nil =>
    rw [List.flatMap_nil, List.append_nil]
    exact List.splitOn_eq_singleton hfirst
  | cons v vs ih =>
    rw [List.flatMap_cons, List.cons_append, List.splitOn_append_cons_self_of_not_mem hfirst,
      ih (hvs v List.mem_cons_self) fun w hw => hvs w (List.mem_cons_of_mem _ hw)]

lemma not_mem_of_mem_splitOn {sep : UInt8} (str : Str) : ∀ v ∈ str.splitOn sep, sep ∉ v := by
  induction str with
  | nil => simp
  | cons c str ih =>
    intro v hv
    rw [List.splitOn_cons_eq_if_modifyHead] at hv
    split_ifs at hv with hc
    · rcases List.mem_cons.mp hv with rfl | hv
      · exact List.not_mem_nil
      · exact ih v hv
    · cases hsplit : str.splitOn sep with
      | nil => exact absurd hsplit (List.splitOn_ne_nil sep str)
      | cons w ws =>
        rw [hsplit] at ih
        rw [hsplit, List.modifyHead_cons, List.mem_cons] at hv
        rcases hv with rfl | hv
        · have hw := ih w List.mem_cons_self
          simp only [beq_iff_eq] at hc
          simp [hw, Ne.symm hc]
        · exact ih v (List.mem_cons_of_mem _ hv)

lemma flatten_splitOn (sep : UInt8) (str : Str) :
    (str.splitOn sep).flatten = str.filter (· ≠ sep) := by
  induction str with
  | nil => simp
  | cons c str ih =>
    rw [List.splitOn_cons_eq_if_modifyHead]
    split_ifs with hc
    · simp only [beq_iff_eq] at hc
      simpa [hc] using ih
    · simp only [beq_iff_eq] at hc
      cases hsplit : str.splitOn sep with
      | nil => exact absurd hsplit (List.splitOn_ne_nil sep str)
      | cons w ws =>
        rw [hsplit, List.flatten_cons] at ih
        rw [List.modifyHead_cons, List.flatten_cons, List.cons_append, ih,
          List.filter_cons_of_pos (by simpa using hc)]

lemma splitOn_map {f : UInt8 → UInt8} {sep : UInt8} (hf : ∀ c, f c = sep ↔ c = sep) (str : Str) :
    (str.map f).splitOn sep = (str.splitOn sep).map (List.map f) := by
  induction str with
  | nil => simp
  | cons c str ih =>
    rw [List.map_cons, List.splitOn_cons_eq_if_modifyHead, List.splitOn_cons_eq_if_modifyHead, ih]
    simp only [beq_iff_eq, hf]
    split_ifs
    · rw [List.map_cons, List.map_nil]
    · cases str.splitOn sep with
      | nil => rfl
      | cons w ws => rfl

end Catter.Text
