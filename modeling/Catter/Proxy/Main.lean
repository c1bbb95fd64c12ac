import Catter.Library.Decimal
import Catter.Text

/-! How catter-proxy's `main` reads its argument vector. -/

namespace Catter.Proxy

open Text Library.Decimal

def isSpace (c : UInt8) : Bool := c = 32 || (9 ≤ c && c ≤ 13)

inductive StoiFailure
  | invalidArgument
  | outOfRange
deriving DecidableEq

-- `std::stoi` for an `int` of 32 bits: blanks, a sign and the digits that follow.
def stoi (str : Str) : Except StoiFailure ℤ :=
  let text := str.dropWhile isSpace
  let negative := text.head? = some 45
  let unsigned := if negative ∨ text.head? = some 43 then text.tail else text
  let digits := unsigned.takeWhile isDigit
  let result : ℤ := if negative then - (value digits : ℤ) else value digits
  if digits = [] then .error .invalidArgument
  else if result < -2 ^ 31 ∨ 2 ^ 31 ≤ result then .error .outOfRange
  else .ok result

lemma isDigit_class {c : UInt8} (h : isDigit c = true) : isSpace c = false ∧ c ≠ 45 ∧ c ≠ 43 := by
  simp only [isDigit, Bool.and_eq_true, decide_eq_true_eq, UInt8.le_iff_toNat_le,
    UInt8.reduceToNat] at h
  have hne (d : UInt8) (hd : d.toNat < 48) : c ≠ d := by
    rintro rfl
    omega
  refine ⟨?_, hne 45 (by decide), hne 43 (by decide)⟩
  have hblank := hne 32 (by decide)
  simp only [isSpace, hblank, decide_false, Bool.false_or, Bool.and_eq_false_iff,
    decide_eq_false_iff_not,
    UInt8.le_iff_toNat_le, UInt8.reduceToNat]
  omega

lemma takeWhile_isDigit (digits : Str) (h : ∀ c ∈ digits, isDigit c = true) :
    digits.takeWhile isDigit = digits := by
  rw [List.takeWhile_eq_self_iff]
  exact h

lemma stoi_formatInt {v : ℤ} (hlow : -2 ^ 31 ≤ v) (hhigh : v < 2 ^ 31) :
    stoi (formatInt v) = .ok v := by
  have hdigits := takeWhile_isDigit (decimal v.natAbs) fun c hc => isDigit_of_mem_decimal hc
  have hvalue := value_decimal v.natAbs
  have hne := decimal_ne_nil v.natAbs
  unfold formatInt
  split_ifs with hsign
  · have hblank : (45 :: decimal v.natAbs).dropWhile isSpace = 45 :: decimal v.natAbs := by
      rw [List.dropWhile_cons_of_neg]
      decide
    simp only [stoi, hblank, List.head?_cons, true_or, if_true, List.tail_cons, hdigits, hvalue,
      if_neg hne]
    rw [if_neg (by omega)]
    congr 1
    omega
  · obtain ⟨c, cs, hd, hc⟩ := decimal_cons v.natAbs
    have hclass : isSpace c = false ∧ c ≠ 45 ∧ c ≠ 43 := isDigit_class hc
    have hblank : (decimal v.natAbs).dropWhile isSpace = decimal v.natAbs := by
      rw [hd, List.dropWhile_cons_of_neg]
      rw [hclass.1]
      decide
    have hhead : (decimal v.natAbs).head? = some c := by rw [hd, List.head?_cons]
    simp only [stoi, hblank, hhead, Option.some.injEq, hclass.2.1, hclass.2.2, or_self,
      if_false, hdigits,
      hvalue, if_neg hne]
    rw [if_neg (by omega)]
    congr 1
    omega

inductive Launch
  | insufficient
  | invalid
  | badParent (why : StoiFailure)
  | hookError (parent : ℤ) (msg : Str)
  | noCommand (parent : ℤ)
  | command (parent : ℤ) (executable : Str) (args : List Str)
deriving DecidableEq

def buildRawCmd (parent : ℤ) : List Str → Launch
  | [] => .noCommand parent
  | executable :: args => .command parent executable args

-- CREATE is sent between the reading of the parent id and the test of the fourth argument.
def readArguments : List Str → Launch
  | _ :: flag :: parent :: mark :: rest =>
    if flag ≠ lit "-p" then .invalid
    else match stoi parent with
      | .error why => .badParent why
      | .ok parent => if mark ≠ lit "--" then .hookError parent mark else buildRawCmd parent rest
  | _ => .insufficient

end Catter.Proxy
