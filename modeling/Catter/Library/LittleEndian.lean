import Mathlib.Data.Nat.Digits.Lemmas
import Mathlib.Tactic

/-! Little-endian words of a fixed width over octets. -/

namespace Catter.Library.LittleEndian

def encode (width n : ℕ) : List UInt8 :=
  (List.range width).map fun i => UInt8.ofNat (n / 256 ^ i)

def value (bs : List UInt8) : ℕ :=
  Nat.ofDigits 256 (bs.map UInt8.toNat)

@[simp] lemma encode_length (width n : ℕ) : (encode width n).length = width := by
  simp [encode]

@[simp] lemma value_nil : value [] = 0 := rfl

lemma value_cons (b : UInt8) (bs : List UInt8) : value (b :: bs) = b.toNat + 256 * value bs := by
  simp [value, Nat.ofDigits_cons]

lemma encode_succ (width n : ℕ) :
    encode (width + 1) n = UInt8.ofNat n :: encode width (n / 256) := by
  simp [encode, List.range_succ_eq_map, Function.comp_def, Nat.pow_succ', Nat.div_div_eq_div_mul]

lemma value_lt (bs : List UInt8) : value bs < 256 ^ bs.length := by
  have hdigit : ∀ d ∈ bs.map UInt8.toNat, d < 256 := by
    intro d hd
    obtain ⟨b, _, rfl⟩ := List.mem_map.mp hd
    exact b.toNat_lt
  simpa [value] using Nat.ofDigits_lt_base_pow_length (by omega) hdigit

lemma value_encode (width n : ℕ) (h : n < 256 ^ width) : value (encode width n) = n := by
  induction width generalizing n with
  | zero =>
    have hn : n = 0 := by simpa using h
    simp [hn, encode]
  | succ width ih =>
    have hd : n / 256 < 256 ^ width := Nat.div_lt_of_lt_mul (by simpa [Nat.pow_succ'] using h)
    have hb : (UInt8.ofNat n).toNat = n % 256 := by simp
    rw [encode_succ, value_cons, ih _ hd, hb]
    omega

lemma encode_value (bs : List UInt8) : encode bs.length (value bs) = bs := by
  induction bs with
  | nil => rfl
  | cons b bs ih =>
    have hb := b.toNat_lt
    have hq : (b.toNat + 256 * value bs) / 256 = value bs := by omega
    have hr : UInt8.ofNat (b.toNat + 256 * value bs) = b := by
      apply UInt8.toNat_inj.mp
      simp
    rw [List.length_cons, value_cons, encode_succ, hq, hr, ih]

end Catter.Library.LittleEndian
