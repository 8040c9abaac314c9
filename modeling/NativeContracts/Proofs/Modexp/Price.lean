import NativeContracts.Proofs.Modexp.Header
import Mathlib.Tactic.Linarith

namespace NativeContracts.Modexp

open Saturating (limit)

theorem bitLength_le_iff (n width : Nat) : bitLength n ≤ width ↔ n < 2 ^ width := by
  unfold bitLength
  by_cases hzero : n = 0
  · simp [hzero]
  · simp only [hzero, ite_false]
    rw [Nat.add_one_le_iff]
    exact Nat.log2_lt hzero

theorem lt_two_pow_bitLength (n : Nat) : n < 2 ^ bitLength n :=
  (bitLength_le_iff n _).mp (Nat.le_refl _)

theorem bitLength_exponentLead_le (input : Bytes) : bitLength (exponentLead input) ≤ 256 :=
  (bitLength_le_iff _ _).mpr (exponentLead_lt input)

-- A byte behind the lead makes the exponent eight digits longer and no more.
theorem bitLength_exponentOperand_le (input : Bytes) (h : 32 ≤ (Lengths.read input).exponent) :
    bitLength (exponentOperand input) ≤
      8 * ((Lengths.read input).exponent - 32) + bitLength (exponentLead input) := by
  have hlead : exponentLead input + 1 ≤ 2 ^ bitLength (exponentLead input) :=
    lt_two_pow_bitLength _
  have htail := Bytes.valueAt_lt input (96 + (Lengths.read input).base + 32)
    ((Lengths.read input).exponent - 32)
  rw [bitLength_le_iff, exponentOperand_eq input h]
  calc
    _ < (exponentLead input + 1) * 256 ^ ((Lengths.read input).exponent - 32) := by
      rw [Nat.add_mul, Nat.one_mul]
      exact Nat.add_lt_add_left htail _
    _ ≤ 2 ^ bitLength (exponentLead input) * 256 ^ ((Lengths.read input).exponent - 32) :=
      Nat.mul_le_mul_right _ hlead
    _ = _ := by
      rw [show 256 = 2 ^ 8 from rfl, ← pow_mul, pow_add, Nat.mul_comm]

private theorem toNat_at_least_one (count : UInt64) :
    (if count = 0 then 1 else count).toNat = max 1 count.toNat := by
  split
  · rename_i hzero
    simp [hzero]
  · rename_i hne
    have hpos : count.toNat ≠ 0 := fun hzero => hne (UInt64.toNat_inj.mp hzero)
    omega

-- The iterations in exact numbers: only the sum of both parts can reach the limit.
theorem toNat_iterations (exponentLength : UInt64) (lead : Nat) (h : bitLength lead ≤ 256) :
    (iterations exponentLength lead).toNat =
      max 1 (if exponentLength.toNat ≤ 32 then bitLength lead - 1
        else min (8 * (exponentLength.toNat - 32) + (max 1 (bitLength lead) - 1)) limit) := by
  have hsmall : ∀ n, n ≤ 256 → (UInt64.ofNat n).toNat = n := by
    intro n hn
    rw [UInt64.toNat_ofNat']
    omega
  simp only [iterations, toNat_at_least_one, UInt64.le_iff_toNat_le]
  congr 1
  by_cases hshort : exponentLength.toNat ≤ 32
  · rw [if_pos (by simpa using hshort), if_pos hshort, hsmall _ (by omega)]
  · have hlong : (32 : UInt64) ≤ exponentLength := by
      rw [UInt64.le_iff_toNat_le]
      simp
      omega
    rw [if_neg (by simpa using hshort), if_neg hshort, Saturating.toNat_add,
      Saturating.toNat_mul, UInt64.toNat_sub_of_le _ _ hlong, hsmall _ (by omega)]
    simp only [limit, UInt64.reduceToNat]
    omega

theorem iterations_pos (exponentLength : UInt64) (lead : Nat) :
    1 ≤ (iterations exponentLength lead).toNat := by
  simp only [iterations, toNat_at_least_one]
  exact Nat.le_max_left _ _

namespace Pricing

-- What the two formulas charge for one multiplication, and what the product with the number of
-- iterations is divided by.
def multiplication : Pricing → Nat → Nat
  | eip198 => complexity
  | eip2565 => wordComplexity

def divisor : Pricing → Nat
  | eip198 => 20
  | eip2565 => 3

theorem toNat_cost (pricing : Pricing) (baseLength exponentLength modulusLength : UInt64)
    (lead : Nat) :
    (pricing.cost baseLength exponentLength modulusLength lead).toNat =
      max pricing.minimum.toNat
        (min (pricing.multiplication (max baseLength.toNat modulusLength.toNat) *
          (iterations exponentLength lead).toNat / pricing.divisor) limit) := by
  cases pricing with
  | eip198 => simp [cost, minimum, multiplication, divisor]
  | eip2565 =>
      simp only [cost, minimum, multiplication, divisor, UInt64.lt_iff_toNat_lt]
      split
      · rename_i hless
        simp at hless ⊢
        omega
      · rename_i hmore
        simp at hmore ⊢
        omega

theorem toNat_quote (pricing : Pricing) (input : Bytes) :
    (pricing.quote input).toNat =
      max pricing.minimum.toNat
        (min (pricing.multiplication (min (Lengths.read input).longest limit) *
          (iterations (Header.read input).exponentLength (Header.read input).head).toNat /
            pricing.divisor) limit) := by
  have hlongest : max (Header.read input).baseLength.toNat (Header.read input).modulusLength.toNat =
      min (Lengths.read input).longest limit := by
    simp only [Header.toNat_read_baseLength, Header.toNat_read_modulusLength, Lengths.longest]
    omega
  rw [quote, toNat_cost, hlongest]

theorem minimum_le_quote (pricing : Pricing) (input : Bytes) :
    pricing.minimum ≤ pricing.quote input := by
  rw [UInt64.le_iff_toNat_le, toNat_quote]
  exact Nat.le_max_left _ _

@[simp] theorem multiplication_zero (pricing : Pricing) : pricing.multiplication 0 = 0 := by
  cases pricing <;> rfl

theorem quote_of_longest_eq_zero (pricing : Pricing) (input : Bytes)
    (h : (Lengths.read input).longest = 0) : pricing.quote input = pricing.minimum := by
  apply UInt64.toNat_inj.mp
  simp [toNat_quote, h]

theorem divisor_pos (pricing : Pricing) : 0 < pricing.divisor := by
  cases pricing <;> decide

-- The price in exact numbers, for lengths and counts of any size.
def charge (pricing : Pricing) (longest count : Nat) : Nat :=
  max pricing.minimum.toNat (min (pricing.multiplication longest * count / pricing.divisor) limit)

-- A product that covers the limit before it is divided is priced at the limit itself.
theorem charge_of_limit_le (pricing : Pricing) {longest count : Nat}
    (h : limit * pricing.divisor ≤ pricing.multiplication longest * count) :
    pricing.charge longest count = limit := by
  have hprice := (Nat.le_div_iff_mul_le pricing.divisor_pos).mpr h
  have hminimum : pricing.minimum.toNat ≤ limit := by cases pricing <;> decide
  rw [charge, Nat.min_eq_right hprice, Nat.max_eq_right hminimum]

-- One multiplication of the longest numbers is enough for that.
theorem limit_mul_divisor_le (pricing : Pricing) :
    limit * pricing.divisor ≤ pricing.multiplication limit := by
  cases pricing <;> decide

theorem toNat_quote_of_limit_le_longest (pricing : Pricing) (input : Bytes)
    (h : limit ≤ (Lengths.read input).longest) : (pricing.quote input).toNat = limit := by
  rw [toNat_quote, Nat.min_eq_right h]
  apply pricing.charge_of_limit_le
  exact pricing.limit_mul_divisor_le.trans (Nat.le_mul_of_pos_right _ (iterations_pos _ _))

-- Where all lengths fit, the routine charges for them what the header asks.
theorem cost_eq_quote (pricing : Pricing) (input : Bytes)
    (hbase : (Lengths.read input).base ≤ limit) (hexponent : (Lengths.read input).exponent ≤ limit)
    (hmodulus : (Lengths.read input).modulus ≤ limit) :
    pricing.cost (UInt64.ofNat (Lengths.read input).base)
      (UInt64.ofNat (Lengths.read input).exponent) (UInt64.ofNat (Lengths.read input).modulus)
      (exponentLead input) = pricing.quote input := by
  have hword : ∀ (n : Nat) (word : UInt64), n ≤ limit → word.toNat = min n limit →
      UInt64.ofNat n = word := by
    intro n word hn hword
    apply UInt64.toNat_inj.mp
    rw [hword, Nat.min_eq_left hn, UInt64.toNat_ofNat_of_lt']
    simp only [limit, UInt64.size] at hn ⊢
    omega
  rw [hword _ _ hbase (Header.toNat_read_baseLength input),
    hword _ _ hexponent (Header.toNat_read_exponentLength input),
    hword _ _ hmodulus (Header.toNat_read_modulusLength input),
    ← Header.read_head input (.inl hbase)]
  rfl

end Pricing

end NativeContracts.Modexp
