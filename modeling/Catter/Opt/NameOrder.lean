import Catter.Library.EndLast
import Catter.Opt.Table

/-! The order of option names: letter case is folded, and a name precedes the names
that are its prefixes. -/

namespace Catter.Opt

open Text Library.EndLast Library.PartitionPoint

def foldCase (c : UInt8) : ℤ := (safeTolower c).toInt8.toInt

def nameKey (s : Str) : List (WithTop ℤ) := endLast (s.map foldCase)

lemma foldCase_inj {a b : UInt8} : foldCase a = foldCase b ↔ safeTolower a = safeTolower b := by
  constructor
  · intro h
    exact congrArg Int8.toUInt8 (Int8.toInt.inj h)
  · intro h
    rw [foldCase, foldCase, h]

lemma strCmpOptName_cons (a b : UInt8) (as bs : Str) :
    strCmpOptName (a :: as) (b :: bs) false =
      if safeTolower a = safeTolower b then strCmpOptName as bs false
      else if (safeTolower a).toInt8 < (safeTolower b).toInt8 then .lt
      else .gt := by
  simp only [strCmpOptName, List.length_cons, Nat.add_min_add_right, List.take_succ_cons,
    compareInsensitive,
    Nat.add_right_cancel_iff, Bool.false_eq_true, if_false]
  split_ifs <;> rfl

lemma strCmpOptName_compares (a b : Str) :
    (strCmpOptName a b false).Compares (nameKey a) (nameKey b) := by
  induction a generalizing b with
  | nil =>
    cases b with
    | nil => rfl
    | cons b bs => exact endLast_cons_lt_nil (foldCase b) (bs.map foldCase)
  | cons a as ih =>
    cases b with
    | nil => exact endLast_cons_lt_nil (foldCase a) (as.map foldCase)
    | cons b bs =>
      rw [strCmpOptName_cons]
      split_ifs with heq hlt
      · have hfold : foldCase a = foldCase b := foldCase_inj.mpr heq
        have htail := ih bs
        cases hcmp : strCmpOptName as bs false with
        | lt =>
          rw [hcmp] at htail
          exact endLast_cons_lt.mpr (Or.inr ⟨hfold, htail⟩)
        | eq =>
          rw [hcmp] at htail
          have hkey : nameKey as = nameKey bs := htail
          exact congrArg₂ List.cons (congrArg WithTop.some hfold) hkey
        | gt =>
          rw [hcmp] at htail
          exact endLast_cons_lt.mpr (Or.inr ⟨hfold.symm, htail⟩)
      · exact endLast_cons_lt.mpr (Or.inl (Int8.lt_iff_toInt_lt.mp hlt))
      · have hge : foldCase b ≤ foldCase a := not_lt.mp (mt Int8.lt_iff_toInt_lt.mpr hlt)
        have hne : foldCase b ≠ foldCase a := fun h => heq (foldCase_inj.mp h.symm)
        exact endLast_cons_lt.mpr (Or.inl (lt_of_le_of_ne hge hne))

lemma strCmpOptName_lt_iff (a b : Str) : strCmpOptName a b false = .lt ↔ nameKey a < nameKey b :=
  (strCmpOptName_compares a b).eq_lt

lemma optNameLess_iff (i : Info) (name : Str) : optNameLess i name = true ↔
    nameKey i.name < nameKey name := by
  rw [optNameLess, decide_eq_true_iff, strCmpOptName_lt_iff]

def sortedByName (infos : List Info) : Prop :=
  infos.Pairwise fun i j => strCmpOptName j.name i.name false ≠ .lt

instance (infos : List Info) : Decidable (sortedByName infos) :=
  inferInstanceAs (Decidable (infos.Pairwise _))

lemma sortedByName.partitioned {infos : List Info} (h : sortedByName infos) (name : Str) :
    infos.Pairwise fun i j => optNameLess j name = true → optNameLess i name = true := by
  simp only [optNameLess_iff]
  apply pairwise_lt_of_not_lt fun i : Info => nameKey i.name
  simpa only [sortedByName, ne_eq, strCmpOptName_lt_iff] using h

lemma foldCase_prefix_of_matches {ignoreCase : Bool} {rest name : Str}
    (h : nameMatches ignoreCase rest name = true) : name.map foldCase <+: rest.map foldCase := by
  cases ignoreCase with
  | false => exact (List.isPrefixOf_iff_prefix.mp h).map foldCase
  | true =>
    have hp := (List.isPrefixOf_iff_prefix.mp h).map fun c : UInt8 => c.toInt8.toInt
    rwa [List.map_map, List.map_map] at hp

lemma not_optNameLess_of_matches {ignoreCase : Bool} {i : Info} {rest : Str}
    (h : nameMatches ignoreCase rest i.name = true) : optNameLess i rest = false := by
  rw [← Bool.not_eq_true, optNameLess_iff]
  apply not_endLast_lt_of_prefix
  exact foldCase_prefix_of_matches h

end Catter.Opt
