import NativeContracts.Proofs.Operation

namespace NativeContracts.Modexp

open Saturating (limit)

-- The price looks at the lead only, but it counts every digit that a later byte can have. Up to
-- this length the count stays below the limit.
theorem exponentOperand_le_iterations (input : Bytes)
    (hexponent : (Lengths.read input).exponent ≤ 2 ^ 61)
    (hbase : (Lengths.read input).base ≤ limit) :
    max 1 (bitLength (exponentOperand input) - 1) ≤
      (iterations (Header.read input).exponentLength (Header.read input).head).toNat := by
  have hlead := bitLength_exponentLead_le input
  have hlength : min (Lengths.read input).exponent limit = (Lengths.read input).exponent := by
    simp only [limit]
    omega
  rw [Header.read_head input (.inl hbase), toNat_iterations _ _ hlead,
    Header.toNat_read_exponentLength, hlength]
  by_cases hshort : (Lengths.read input).exponent ≤ 32
  · rw [if_pos hshort, exponentOperand_of_le input hshort]
  · have hdigits := bitLength_exponentOperand_le input (by omega)
    rw [if_neg hshort]
    simp only [limit]
    omega

namespace Pricing

-- Below the limit the price is the quotient of the formula, and nothing has been cut.
theorem multiplication_mul_iterations_le (pricing : Pricing) (input : Bytes) (gas : Nat)
    (hgas : gas < limit) (hquote : (pricing.quote input).toNat ≤ gas) :
    (Lengths.read input).longest < limit ∧
      pricing.multiplication (Lengths.read input).longest *
        (iterations (Header.read input).exponentLength (Header.read input).head).toNat ≤
          pricing.divisor * gas + (pricing.divisor - 1) := by
  have hlongest : (Lengths.read input).longest < limit := by
    by_contra hlong
    have hlimit := pricing.toNat_quote_of_limit_le_longest input (Nat.not_lt.mp hlong)
    omega
  refine ⟨hlongest, ?_⟩
  rw [toNat_quote, Nat.min_eq_left hlongest.le] at hquote
  have hquotient : pricing.multiplication (Lengths.read input).longest *
      (iterations (Header.read input).exponentLength (Header.read input).head).toNat /
        pricing.divisor < gas + 1 := by
    omega
  have hproduct := (Nat.div_lt_iff_lt_mul pricing.divisor_pos).mp hquotient
  have hpos := pricing.divisor_pos
  rw [Nat.add_mul, Nat.one_mul, Nat.mul_comm gas] at hproduct
  omega

end Pricing

end NativeContracts.Modexp

namespace NativeContracts

open Saturating (limit)
open Modexp (Lengths Pricing bitLength complexity wordComplexity)
open Modexp (baseOperand exponentOperand modulusOperand)

-- A call that is paid for below the topmost limit has paid for every multiplication of its
-- exponent, all bytes of it, and its output is as long as the modulus.
theorem prepaid_gas_bounds_exponentiation (pricing : Pricing) (call : Call)
    (hexponent : (Lengths.read call.input).exponent ≤ 2 ^ 61)
    (hgas : call.gasLimit.toNat < 2 ^ 64 - 1)
    (hanswer : ¬ ((Contract.modexp pricing).answer call).RunsOut) :
    (pricing = .eip2565 → wordComplexity (Lengths.read call.input).longest *
        max 1 (bitLength (exponentOperand call.input) - 1) ≤ 3 * call.gasLimit.toNat + 2) ∧
      (pricing = .eip198 → complexity (Lengths.read call.input).longest *
        max 1 (bitLength (exponentOperand call.input) - 1) ≤ 20 * call.gasLimit.toNat + 19) ∧
      (Lengths.read call.input).base < 2 ^ 64 ∧ (Lengths.read call.input).modulus < 2 ^ 64 ∧
      ∃ output, (Contract.modexp pricing).answer call =
          .ok ⟨output, call.gasLimit - pricing.quote call.input⟩ ∧
        output.length = (Lengths.read call.input).modulus ∧
        output = Bytes.ofNat (Lengths.read call.input).modulus
          (Modexp.power (baseOperand call.input) (exponentOperand call.input)
            (modulusOperand call.input)) := by
  have hpaid : pricing.quote call.input ≤ call.gasLimit :=
    Contract.quote_le_of_not_runsOut hanswer
  obtain ⟨hlongest, hproduct⟩ := pricing.multiplication_mul_iterations_le call.input
    call.gasLimit.toNat hgas (UInt64.le_iff_toNat_le.mp hpaid)
  have hbase : (Lengths.read call.input).base < limit :=
    (Nat.le_max_left _ _).trans_lt hlongest
  have hmodulus : (Lengths.read call.input).modulus < limit :=
    (Nat.le_max_right _ _).trans_lt hlongest
  have hiterations := Modexp.exponentOperand_le_iterations call.input hexponent hbase.le
  have hwork := (Nat.mul_le_mul_left _ hiterations).trans hproduct
  have hattempt := Modexp.attempt_of_le_limit call.input hbase.le
    (hexponent.trans (by decide)) hmodulus.le
  refine ⟨?_, ?_, hbase.trans (by decide), hmodulus.trans (by decide), _, ?_, ?_, rfl⟩
  · rintro rfl
    exact hwork
  · rintro rfl
    exact hwork
  · rw [Contract.answer_of_le (.modexp pricing) call hpaid, Contract.attempt_modexp, hattempt]
    rfl
  · exact Bytes.length_ofNat _ _

-- The lead of this exponent is zero, and its only digits stand in the bytes that the price
-- does not look at.
theorem exponent_behind_zero_lead_prepaid :
    let input := Bytes.ofNat 32 1 ++ Bytes.ofNat 32 40 ++ Bytes.ofNat 32 32 ++ [3] ++
      Bytes.ofNat 40 (2 ^ 63 + 1) ++ Bytes.ofNat 32 7
    wordComplexity 32 * max 1 (bitLength (2 ^ 63 + 1) - 1) ≤ 3 * 341 + 2 ∧
      (Contract.modexp .eip2565).answer { input, gasLimit := 341 } =
        .ok ⟨Bytes.ofNat 32 6, 0⟩ := by
  intro input
  have hquote : (Contract.modexp .eip2565).quote input = 341 := by decide +kernel
  have hlengths : Lengths.read input = ⟨1, 40, 32⟩ := by decide +kernel
  have hoperands : baseOperand input = 3 ∧ exponentOperand input = 2 ^ 63 + 1 ∧
      modulusOperand input = 7 := by
    decide +kernel
  have hanswer : ¬ ((Contract.modexp .eip2565).answer { input, gasLimit := 341 }).RunsOut := by
    rw [Contract.answer_runsOut_iff, hquote]
    exact UInt64.lt_irrefl 341
  obtain ⟨hwork, -, -, -, output, houtput, -, hvalue⟩ :=
    prepaid_gas_bounds_exponentiation .eip2565 { input, gasLimit := 341 }
      (by rw [hlengths]; decide) (by decide) hanswer
  have hpower : Modexp.power 3 (2 ^ 63 + 1) 7 = 6 := by decide +kernel
  have hremaining : (341 : Gas) - Modexp.Pricing.eip2565.quote input = 0 := by
    rw [show Modexp.Pricing.eip2565.quote input = 341 from hquote]
    rfl
  rw [hlengths, hoperands.2.1] at hwork
  rw [hlengths, hoperands.1, hoperands.2.1, hoperands.2.2, hpower] at hvalue
  rw [hvalue, hremaining] at houtput
  exact ⟨hwork rfl, houtput⟩

end NativeContracts
