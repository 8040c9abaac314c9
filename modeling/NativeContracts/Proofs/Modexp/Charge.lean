import NativeContracts.Proofs.Modexp.Price
import Mathlib.Data.Nat.Log

namespace NativeContracts.Modexp

open Saturating (limit)

-- A next piece of the formula starts behind 64 and behind 1024. At neither place does it lie below
-- the end of the one before.
theorem complexity_le_succ (length : Nat) : complexity length ≤ complexity (length + 1) := by
  by_cases hfirst : length = 64
  · subst hfirst
    decide
  by_cases hsecond : length = 1024
  · subst hsecond
    decide
  have hsquare : (length + 1) * (length + 1) = length * length + 2 * length + 1 := by ring
  unfold complexity
  rw [hsquare]
  split
  · rw [if_pos (by omega)]
    omega
  split
  · rw [if_neg (by omega), if_pos (by omega)]
    omega
  · rw [if_neg (by omega), if_neg (by omega)]
    omega

theorem complexity_mono : Monotone complexity := monotone_nat_of_le_succ complexity_le_succ

theorem wordComplexity_mono : Monotone wordComplexity := by
  intro short long h
  have hwords : (short + 7) / 8 ≤ (long + 7) / 8 := Nat.div_le_div_right (by omega)
  exact Nat.mul_le_mul hwords hwords

theorem bitLength_sub_one (n : Nat) : bitLength n - 1 = Nat.log 2 n := by
  unfold bitLength
  split
  · rename_i hzero
    rw [hzero, Nat.log_zero_right]
  · rw [Nat.add_sub_cancel, Nat.log2_eq_log_two]

-- The iterations of an exponent of any length, none of them cut: eight for each byte after the
-- first 32, and one for each binary digit of the lead after the first.
def Lengths.iterations (lengths : Lengths) (lead : Nat) : Nat :=
  max 1 ((if lengths.exponent ≤ 32 then 0 else 8 * (lengths.exponent - 32)) + Nat.log 2 lead)

theorem Lengths.iterations_mono {lengths longer : Lengths} {lead greater : Nat}
    (hexponent : lengths.exponent ≤ longer.exponent) (hlead : lead ≤ greater) :
    lengths.iterations lead ≤ longer.iterations greater := by
  have hdigits : Nat.log 2 lead ≤ Nat.log 2 greater := Nat.log_mono_right hlead
  simp only [iterations]
  split <;> split <;> omega

theorem Lengths.one_le_min_iterations (lengths : Lengths) (lead : Nat) :
    1 ≤ min (lengths.iterations lead) limit :=
  le_min (Nat.le_max_left _ _) (by decide)

-- All that is cut off the count of iterations is what lies above the limit.
theorem toNat_iterations_read (input : Bytes) (hbase : (Lengths.read input).base ≤ limit) :
    (iterations (Header.read input).exponentLength (Header.read input).head).toNat =
      min ((Lengths.read input).iterations (exponentLead input)) limit := by
  have hlead := bitLength_exponentLead_le input
  rw [Header.read_head input (.inl hbase), toNat_iterations _ _ hlead,
    Header.toNat_read_exponentLength, Lengths.iterations, ← bitLength_sub_one]
  by_cases hshort : (Lengths.read input).exponent ≤ 32
  · rw [if_pos (by omega), if_pos hshort]
    simp only [limit]
    omega
  · rw [if_neg (by simp only [limit]; omega), if_neg hshort]
    simp only [limit]
    omega

namespace Pricing

variable (pricing : Pricing)

theorem multiplication_mono : Monotone pricing.multiplication := by
  cases pricing with
  | eip198 => exact complexity_mono
  | eip2565 => exact wordComplexity_mono

theorem charge_mono {longest longer count more : Nat} (hlength : longest ≤ longer)
    (hcount : count ≤ more) : pricing.charge longest count ≤ pricing.charge longer more := by
  have hproduct : pricing.multiplication longest * count ≤ pricing.multiplication longer * more :=
    Nat.mul_le_mul (pricing.multiplication_mono hlength) hcount
  have hquotient := Nat.div_le_div_right (c := pricing.divisor) hproduct
  exact max_le_max_left _ (min_le_min_right _ hquotient)

theorem charge_of_limit_le_longest {longest count : Nat} (h : limit ≤ longest)
    (hcount : 1 ≤ count) : pricing.charge longest count = limit := by
  apply pricing.charge_of_limit_le
  calc
    _ ≤ pricing.multiplication limit := pricing.limit_mul_divisor_le
    _ ≤ pricing.multiplication longest := pricing.multiplication_mono h
    _ ≤ _ := Nat.le_mul_of_pos_right _ hcount

-- Where the length of the base is cut, and the exponent with it read from the wrong place, the
-- price is at the limit and does not depend on the count.
theorem toNat_quote_eq_charge (input : Bytes) :
    (pricing.quote input).toNat =
      pricing.charge (Lengths.read input).longest
        (min ((Lengths.read input).iterations (exponentLead input)) limit) := by
  by_cases hlong : limit ≤ (Lengths.read input).longest
  · rw [toNat_quote_of_limit_le_longest pricing input hlong,
      pricing.charge_of_limit_le_longest hlong (Lengths.one_le_min_iterations _ _)]
  · have hshort := (Nat.not_le.mp hlong).le
    have hbase : (Lengths.read input).base ≤ limit := (Nat.le_max_left _ _).trans hshort
    rw [toNat_quote, Nat.min_eq_left hshort, toNat_iterations_read input hbase, charge]

end Pricing

-- Longer operands, a longer exponent or a greater lead of it never make a call cheaper, whether
-- the lengths fit in 64 bits or not.
theorem quote_le_of_lengths_le (pricing : Pricing) (input larger : Bytes)
    (hbase : (Lengths.read input).base ≤ (Lengths.read larger).base)
    (hexponent : (Lengths.read input).exponent ≤ (Lengths.read larger).exponent)
    (hmodulus : (Lengths.read input).modulus ≤ (Lengths.read larger).modulus)
    (hlead : exponentLead input ≤ exponentLead larger) :
    pricing.quote input ≤ pricing.quote larger := by
  have hlongest : (Lengths.read input).longest ≤ (Lengths.read larger).longest :=
    max_le_max hbase hmodulus
  have hcount := Lengths.iterations_mono hexponent hlead
  rw [UInt64.le_iff_toNat_le, Pricing.toNat_quote_eq_charge, Pricing.toNat_quote_eq_charge]
  exact pricing.charge_mono hlongest (min_le_min_right limit hcount)

-- The smaller call ends at both seams, 32 bytes of exponent and 1024 of modulus, and the larger one
-- stands just behind them.
theorem quote_over_both_seams :
    let input := Bytes.ofNat 32 0 ++ Bytes.ofNat 32 32 ++ Bytes.ofNat 32 1024 ++
      Bytes.ofNat 32 (2 ^ 255)
    let larger := Bytes.ofNat 32 0 ++ Bytes.ofNat 32 33 ++ Bytes.ofNat 32 1025 ++
      Bytes.ofNat 32 (2 ^ 255)
    Lengths.read input = ⟨0, 32, 1024⟩ ∧ Lengths.read larger = ⟨0, 33, 1025⟩ ∧
      exponentLead input ≤ exponentLead larger ∧
      Pricing.eip198.quote input = 4556544 ∧ Pricing.eip198.quote larger = 4707489 ∧
      Pricing.eip198.quote input ≤ Pricing.eip198.quote larger := by
  intro input larger
  have hinput : Lengths.read input = ⟨0, 32, 1024⟩ := by decide +kernel
  have hlarger : Lengths.read larger = ⟨0, 33, 1025⟩ := by decide +kernel
  have hlead : exponentLead input ≤ exponentLead larger := by decide +kernel
  refine ⟨hinput, hlarger, hlead, by decide +kernel, by decide +kernel, ?_⟩
  apply quote_le_of_lengths_le .eip198 input larger
  · rw [hinput, hlarger]
  · rw [hinput, hlarger]
    decide
  · rw [hinput, hlarger]
    decide
  · exact hlead

end NativeContracts.Modexp
