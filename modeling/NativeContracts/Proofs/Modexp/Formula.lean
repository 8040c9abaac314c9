import NativeContracts.Proofs.Modexp.Charge
import NativeContracts.Proofs.Modexp.Oversized
import Mathlib.Data.Rat.Floor

namespace NativeContracts.Modexp

open Saturating (limit)

namespace Pricing

-- The formulas over the integers, where a difference could be negative and nothing is cut.
def multiplicationFormula : Pricing → ℕ → ℤ
  | eip198, x =>
    if x ≤ 64 then x ^ 2
    else if x ≤ 1024 then x ^ 2 / 4 + 96 * x - 3072
    else x ^ 2 / 16 + 480 * x - 199680
  | eip2565, x => ⌈(x / 8 : ℚ)⌉ ^ 2

-- Only the price itself has a limit, and under the later formula a minimum.
def priceFormula (pricing : Pricing) (x iterations : ℕ) : ℤ :=
  match pricing with
  | eip198 => min (2 ^ 64 - 1) (pricing.multiplicationFormula x * iterations / 20)
  | eip2565 => max 200 (min (2 ^ 64 - 1) (pricing.multiplicationFormula x * iterations / 3))

theorem multiplication_eq_formula (pricing : Pricing) (x : ℕ) :
    (pricing.multiplication x : ℤ) = pricing.multiplicationFormula x := by
  cases pricing with
  | eip198 =>
      simp only [multiplication, complexity, multiplicationFormula, pow_two, ← Nat.cast_mul]
      split
      · rfl
      split <;> omega
  | eip2565 =>
      have hwords : ((x + 7) / 8 : ℕ) = ⌈(x / 8 : ℚ)⌉ := by
        have hceil := Rat.ceil_natCast_div_natCast x 8
        rw [Nat.cast_ofNat] at hceil
        omega
      simp only [multiplication, wordComplexity, multiplicationFormula, pow_two, Nat.cast_mul,
        hwords]

theorem charge_eq_priceFormula (pricing : Pricing) (x iterations : ℕ) :
    (pricing.charge x iterations : ℤ) = pricing.priceFormula x iterations := by
  have hproduct := congrArg (· * (iterations : ℤ)) (pricing.multiplication_eq_formula x)
  simp only [← Nat.cast_mul] at hproduct
  cases pricing with
  | eip198 =>
      simp only [charge, priceFormula, minimum, divisor, limit, ← hproduct, UInt64.reduceToNat]
      omega
  | eip2565 =>
      simp only [charge, priceFormula, minimum, divisor, limit, ← hproduct, UInt64.reduceToNat]
      omega

-- From this length on, an exponent whose iterations are cut is priced at the limit anyway.
theorem divisor_le_multiplication (pricing : Pricing) {x : ℕ} (h : 9 ≤ x) :
    pricing.divisor ≤ pricing.multiplication x := by
  cases pricing with
  | eip198 => exact twenty_le_complexity (by omega)
  | eip2565 => exact three_le_wordComplexity h

theorem charge_of_limit_le_count (pricing : Pricing) {x count : ℕ} (hlength : 9 ≤ x)
    (hcount : limit ≤ count) : pricing.charge x count = limit := by
  apply pricing.charge_of_limit_le
  rw [Nat.mul_comm]
  exact Nat.mul_le_mul (pricing.divisor_le_multiplication hlength) hcount

theorem charge_zero (pricing : Pricing) (count : ℕ) :
    pricing.charge 0 count = pricing.minimum.toNat := by
  simp [charge]

end Pricing

-- Up to this length all iterations of an exponent are counted.
theorem iterations_le_limit (input : Bytes) (h : (Lengths.read input).exponent ≤ 2 ^ 61) :
    (Lengths.read input).iterations (exponentLead input) ≤ limit := by
  have hlead := bitLength_exponentLead_le input
  have hdigits := bitLength_sub_one (exponentLead input)
  simp only [Lengths.iterations, limit]
  split <;> omega

-- The price never exceeds the formula, and falls short of it only where the count of iterations is
-- cut and there is little to multiply.
theorem quote_agrees_with_formula (pricing : Pricing) (input : Bytes) :
    let lengths := Lengths.read input
    let x := max lengths.base lengths.modulus
    let iterations := max 1 ((if lengths.exponent ≤ 32 then 0 else 8 * (lengths.exponent - 32)) +
      Nat.log 2 (exponentLead input))
    (pricing.quote input).toNat ≤ pricing.priceFormula x iterations ∧
      (lengths.exponent ≤ 2 ^ 61 ∨ x = 0 ∨ 9 ≤ x →
        (pricing.quote input).toNat = pricing.priceFormula x iterations) := by
  intro lengths x iterations
  have hquote : (pricing.quote input).toNat = pricing.charge x (min iterations limit) :=
    pricing.toNat_quote_eq_charge input
  rw [hquote, ← pricing.charge_eq_priceFormula, Nat.cast_le, Nat.cast_inj]
  refine ⟨pricing.charge_mono le_rfl (Nat.min_le_left _ _), ?_⟩
  rintro (hexponent | hempty | hlength)
  · have hall : iterations ≤ limit := iterations_le_limit input hexponent
    rw [Nat.min_eq_left hall]
  · rw [hempty, pricing.charge_zero, pricing.charge_zero]
  · rcases Nat.le_total iterations limit with hall | hcut
    · rw [Nat.min_eq_left hall]
    · rw [Nat.min_eq_right hcut, pricing.charge_of_limit_le_count hlength le_rfl,
        pricing.charge_of_limit_le_count hlength hcut]

-- One byte more than the bound, and a lead with all its digits: the count is cut by eight. A
-- modulus of nine bytes costs the limit anyway, and one of eight bytes two units too little.
theorem cut_count_against_formula :
    let input (modulus : ℕ) := Bytes.ofNat 32 0 ++ Bytes.ofNat 32 (2 ^ 61 + 1) ++
      Bytes.ofNat 32 modulus ++ Bytes.ofNat 32 (2 ^ 255)
    (Pricing.eip2565.quote (input 9)).toNat = Pricing.eip2565.priceFormula 9 (2 ^ 64 + 7) ∧
      Pricing.eip2565.priceFormula 9 (2 ^ 64 + 7) = 2 ^ 64 - 1 ∧
      (Pricing.eip2565.quote (input 8)).toNat =
        Pricing.eip2565.priceFormula 8 (2 ^ 64 + 7) - 2 := by
  intro input
  have hlengths : Lengths.read (input 9) = ⟨0, 2 ^ 61 + 1, 9⟩ := by decide +kernel
  have hlead : exponentLead (input 9) = 2 ^ 255 := by decide +kernel
  have hformula := (quote_agrees_with_formula .eip2565 (input 9)).2
    (.inr (.inr (by rw [hlengths]; decide)))
  rw [hlengths, hlead, Nat.log_pow (by decide)] at hformula
  exact ⟨hformula, by decide +kernel, by decide +kernel⟩

end NativeContracts.Modexp
