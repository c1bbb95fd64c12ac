import Catter.Opt.LetterCase
import Mathlib.Data.Prod.Lex
import Mathlib.Order.RelIso.Set

/-! `str_cmp_opt_name` as an order: weak without the comparison of letter case that breaks
ties, and total with it. -/

namespace Catter.Opt

open Text Library.EndLast

def tieKey (s : Str) : List (WithTop ℤ) ×ₗ List ℕ := toLex (nameKey s, s.map UInt8.toNat)

def nameLess (fallbackCaseSensitive : Bool) (a b : Str) : Prop :=
  strCmpOptName a b fallbackCaseSensitive = .lt

lemma foldCase_injOn_text {a b : Str} (h : a.map foldCase = b.map foldCase) :
    foldText a = foldText b := by
  have hfold : (fun c : UInt8 => (Int8.ofInt (foldCase c)).toUInt8) = safeTolower := by
    funext c
    rw [foldCase, Int8.ofInt_toInt]
    rfl
  have hmap := congrArg (List.map fun n : ℤ => (Int8.ofInt n).toUInt8) h
  rw [List.map_map, List.map_map] at hmap
  rw [foldText, foldText, ← hfold]
  exact hmap

lemma nameKey_eq_iff {a b : Str} : nameKey a = nameKey b ↔ foldText a = foldText b := by
  constructor
  · intro h
    have hmap := List.append_cancel_right h
    exact foldCase_injOn_text (List.map_injective_iff.mpr (fun _ _ => WithTop.coe_inj.mp) hmap)
  · exact nameKey_foldText

lemma tieKey_injective : Function.Injective tieKey := by
  intro a b h
  have hoctets : a.map UInt8.toNat = b.map UInt8.toNat := congrArg (fun p => (ofLex p).2) h
  exact List.map_injective_iff.mpr (fun _ _ => UInt8.toNat_inj.mp) hoctets

lemma compareOctets_compares (a b : Str) :
    (compareOctets a b).Compares (a.map UInt8.toNat) (b.map UInt8.toNat) := by
  induction a generalizing b with
  | nil =>
    cases b with
    | nil => rfl
    | cons b bs => exact List.nil_lt_cons _ _
  | cons a as ih =>
    cases b with
    | nil => exact List.nil_lt_cons _ _
    | cons b bs =>
      rw [compareOctets]
      split_ifs with heq hlt
      · have htail := ih bs
        subst heq
        cases hcmp : compareOctets as bs with
        | lt =>
          rw [hcmp] at htail
          exact List.cons_lt_cons_iff.mpr (Or.inr ⟨rfl, htail⟩)
        | eq =>
          rw [hcmp] at htail
          exact congrArg (List.cons a.toNat) htail
        | gt =>
          rw [hcmp] at htail
          exact List.cons_lt_cons_iff.mpr (Or.inr ⟨rfl, htail⟩)
      · exact List.cons_lt_cons_iff.mpr (Or.inl (UInt8.lt_iff_toNat_lt.mp hlt))
      · have hge : b.toNat ≤ a.toNat := not_lt.mp (mt UInt8.lt_iff_toNat_lt.mpr hlt)
        have hne : b.toNat ≠ a.toNat := fun h => heq (UInt8.toNat_inj.mp h.symm)
        exact List.cons_lt_cons_iff.mpr (Or.inl (lt_of_le_of_ne hge hne))

lemma strCmpOptName_true (a b : Str) :
    strCmpOptName a b true = (strCmpOptName a b false).then (compareOctets a b) := by
  simp only [strCmpOptName, if_true, Bool.false_eq_true, if_false]
  cases compareInsensitive (a.take (min a.length b.length)) (b.take (min a.length b.length)) with
  | lt => rfl
  | gt => rfl
  | eq =>
    dsimp only
    split_ifs
    · rfl
    · rfl
    · rfl

lemma strCmpOptName_true_compares (a b : Str) :
    (strCmpOptName a b true).Compares (tieKey a) (tieKey b) := by
  have hname := strCmpOptName_compares a b
  rw [strCmpOptName_true]
  cases hcmp : strCmpOptName a b false with
  | lt =>
    rw [hcmp] at hname
    exact Prod.Lex.toLex_lt_toLex.mpr (Or.inl hname)
  | gt =>
    rw [hcmp] at hname
    exact Prod.Lex.toLex_lt_toLex.mpr (Or.inl hname)
  | eq =>
    rw [hcmp] at hname
    have hkey : nameKey a = nameKey b := hname
    have htie := compareOctets_compares a b
    rw [Ordering.eq_then]
    cases hoctets : compareOctets a b with
    | lt =>
      rw [hoctets] at htie
      exact Prod.Lex.toLex_lt_toLex.mpr (Or.inr ⟨hkey, htie⟩)
    | eq =>
      rw [hoctets] at htie
      have hsame : a.map UInt8.toNat = b.map UInt8.toNat := htie
      exact congrArg toLex (Prod.ext hkey hsame)
    | gt =>
      rw [hoctets] at htie
      exact Prod.Lex.toLex_lt_toLex.mpr (Or.inr ⟨hkey.symm, htie⟩)

lemma nameLess_false : nameLess false = Order.Preimage nameKey (· < ·) := by
  funext a b
  exact propext (strCmpOptName_lt_iff a b)

lemma nameLess_true : nameLess true = Order.Preimage tieKey (· < ·) := by
  funext a b
  exact propext (strCmpOptName_true_compares a b).eq_lt

lemma strCmpOptName_swap (a b : Str) (fallbackCaseSensitive : Bool) :
    strCmpOptName b a fallbackCaseSensitive = (strCmpOptName a b fallbackCaseSensitive).swap := by
  cases fallbackCaseSensitive with
  | false => exact (strCmpOptName_compares b a).inj (Ordering.compares_swap.mpr
      (strCmpOptName_compares a b))
  | true =>
    exact (strCmpOptName_true_compares b a).inj
      (Ordering.compares_swap.mpr (strCmpOptName_true_compares a b))

lemma nameLess_refines {a b : Str} (h : nameLess false a b) : nameLess true a b := by
  rw [nameLess, strCmpOptName_true, h]
  rfl

lemma nameKey_lt_of_extends {a b : Str} (h : foldText a <+: foldText b)
    (hlen : a.length < b.length) :
    nameKey b < nameKey a := by
  apply endLast_lt_of_longer
  · rw [map_foldCase, map_foldCase]
    exact h.map _
  · rw [List.length_map, List.length_map]
    exact hlen

lemma nameLess_of_prefix {a b : Str} (h : foldText a <+: foldText b) (hlen : a.length < b.length)
    (fallbackCaseSensitive : Bool) : nameLess fallbackCaseSensitive b a := by
  have hless : nameLess false b a := (strCmpOptName_lt_iff b a).mpr (nameKey_lt_of_extends h hlen)
  cases fallbackCaseSensitive with
  | false => exact hless
  | true => exact nameLess_refines hless

structure NameOrderSound : Prop where
  weak : IsStrictWeakOrder Str (nameLess false)
  equivalent : ∀ a b, ¬ nameLess false a b ∧ ¬ nameLess false b a ↔ foldText a = foldText b
  total : IsStrictTotalOrder Str (nameLess true)
  refines : ∀ a b, nameLess false a b → nameLess true a b
  swaps : ∀ a b, strCmpOptName b a true = (strCmpOptName a b true).swap
  prefix_greater : ∀ a b fallbackCaseSensitive, foldText a <+: foldText b →
    foldText a ≠ foldText b →
    strCmpOptName a b fallbackCaseSensitive = .gt

theorem name_order_sound : NameOrderSound where
  weak := by
    have hkeys : IsStrictWeakOrder (List (WithTop ℤ)) (· < ·) :=
      isStrictWeakOrder_of_isOrderConnected
    rw [nameLess_false]
    exact Order.Preimage.instIsStrictWeakOrder
  equivalent a b := by
    rw [← nameKey_eq_iff, nameLess_false, Order.Preimage, Order.Preimage, not_lt, not_lt,
      le_antisymm_iff, and_comm]
  total := by
    rw [nameLess_true]
    exact (RelEmbedding.preimage ⟨tieKey, tieKey_injective⟩ (· < ·)).isStrictTotalOrder
  refines _ _ := nameLess_refines
  swaps a b := strCmpOptName_swap a b true
  prefix_greater a b fallbackCaseSensitive hprefix hne := by
    have hlen : a.length < b.length := by
      apply lt_of_le_of_ne
      · simpa using hprefix.length_le
      · intro heq
        exact hne (List.IsPrefix.eq_of_length hprefix (by simpa using heq))
    have hless := nameLess_of_prefix hprefix hlen fallbackCaseSensitive
    rw [nameLess, strCmpOptName_swap] at hless
    exact Ordering.swap_eq_lt.mp hless

end Catter.Opt
