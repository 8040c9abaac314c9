import NativeContracts.Proofs.Modexp.Charge
import NativeContracts.Proofs.Operation

namespace NativeContracts.Modexp

open Saturating (limit)

-- One of the declared lengths does not fit in 64 bits.
def Lengths.Oversized (lengths : Lengths) : Prop :=
  limit < lengths.base ∨ limit < lengths.exponent ∨ limit < lengths.modulus

instance (lengths : Lengths) : Decidable lengths.Oversized :=
  inferInstanceAs (Decidable (_ ∨ _))

-- Short numbers make the division take more off than the multiplication puts on, and without any
-- numbers the exponent counts for nothing.
def Pricing.oversizedPrice : Pricing → Nat → Nat
  | eip198, longest => if 5 ≤ longest then limit else longest * longest * limit / 20
  | eip2565, longest => if 9 ≤ longest then limit else if 1 ≤ longest then limit / 3 else 200

theorem twenty_le_complexity {length : Nat} (h : 5 ≤ length) : 20 ≤ complexity length := by
  have hsquare := Nat.mul_le_mul h h
  unfold complexity
  split
  · omega
  split <;> omega

theorem complexity_of_le {length : Nat} (h : length ≤ 64) : complexity length = length * length :=
  if_pos h

theorem three_le_wordComplexity {length : Nat} (h : 9 ≤ length) : 3 ≤ wordComplexity length := by
  have hwords : 2 ≤ (length + 7) / 8 := by omega
  have hsquare := Nat.mul_le_mul hwords hwords
  exact (by decide : 3 ≤ 2 * 2).trans hsquare

-- Up to a word there is one multiplication of words, unless there is nothing to multiply.
theorem wordComplexity_of_le {length : Nat} (hpos : 1 ≤ length) (h : length ≤ 8) :
    wordComplexity length = 1 := by
  have hwords : (length + 7) / 8 = 1 := by omega
  simp only [wordComplexity, hwords]

-- An exponent of such a length is priced at the largest count, whatever its lead is.
theorem Lengths.limit_le_iterations {lengths : Lengths} (h : limit < lengths.exponent)
    (lead : Nat) : limit ≤ lengths.iterations lead := by
  simp only [iterations, limit] at h ⊢
  split <;> omega

namespace Pricing

theorem charge_limit (pricing : Pricing) (longest : Nat) :
    pricing.charge longest limit = pricing.oversizedPrice longest := by
  cases pricing with
  | eip198 =>
      simp only [charge, oversizedPrice, multiplication, divisor, minimum, limit,
        UInt64.reduceToNat]
      split
      · rename_i hlong
        have hcomplexity := twenty_le_complexity hlong
        omega
      · rename_i hshort
        have hsquare : longest * longest ≤ 4 * 4 := Nat.mul_le_mul (by omega) (by omega)
        rw [complexity_of_le (by omega)]
        omega
  | eip2565 =>
      simp only [charge, oversizedPrice, multiplication, divisor, minimum, limit,
        UInt64.reduceToNat]
      split
      · rename_i hlong
        have hcomplexity := three_le_wordComplexity hlong
        omega
      split
      · rw [wordComplexity_of_le (by omega) (by omega)]
        omega
      · have hnone : longest = 0 := by omega
        rw [hnone]
        decide

theorem toNat_quote_of_oversized (pricing : Pricing) (input : Bytes)
    (h : (Lengths.read input).Oversized) :
    (pricing.quote input).toNat = pricing.oversizedPrice (Lengths.read input).longest := by
  rw [toNat_quote_eq_charge, ← charge_limit]
  by_cases hexponent : limit < (Lengths.read input).exponent
  · rw [Nat.min_eq_right (Lengths.limit_le_iterations hexponent _)]
  · have hlong : limit ≤ (Lengths.read input).longest := by
      simp only [Lengths.Oversized, Lengths.longest] at h ⊢
      omega
    rw [pricing.charge_of_limit_le_longest hlong (Lengths.one_le_min_iterations _ _),
      pricing.charge_of_limit_le_longest hlong (by decide)]

end Pricing

-- The checks come to a refusal, unless there is nothing to multiply.
theorem attempt_of_oversized (input : Bytes) (h : (Lengths.read input).Oversized) :
    if (Lengths.read input).longest = 0 then attempt input = .ok []
    else ∃ fault ∈ [Fault.modexpBase, .modexpModulus, .modexpExponent],
      attempt input = .error fault := by
  unfold attempt
  split
  · rename_i hempty
    have hbase : (Lengths.read input).base ≤ 0 := hempty ▸ Nat.le_max_left _ _
    have hmodulus : (Lengths.read input).modulus ≤ 0 := hempty ▸ Nat.le_max_right _ _
    rw [if_neg (by omega), if_neg (by omega)]
  · by_cases hbase : limit < (Lengths.read input).base
    · exact ⟨.modexpBase, by decide, if_pos hbase⟩
    rw [if_neg hbase]
    by_cases hmodulus : limit < (Lengths.read input).modulus
    · exact ⟨.modexpModulus, by decide, if_pos hmodulus⟩
    rw [if_neg hmodulus]
    have hexponent : limit < (Lengths.read input).exponent := by
      rcases h with h | h | h
      · exact absurd h hbase
      · exact h
      · exact absurd h hmodulus
    exact ⟨.modexpExponent, by decide, if_pos hexponent⟩

end NativeContracts.Modexp

namespace NativeContracts

open Modexp (Lengths)

-- A call with such a length runs out of gas below that price and at no other limit. From the price
-- on it is executed: to an empty output if there are no numbers, and otherwise to a refusal.
theorem oversized_call_outcome (pricing : Modexp.Pricing) (call : Call)
    (h : (Lengths.read call.input).Oversized) :
    (((Contract.modexp pricing).answer call).RunsOut ↔
        call.gasLimit.toNat < pricing.oversizedPrice (Lengths.read call.input).longest) ∧
      (¬ ((Contract.modexp pricing).answer call).RunsOut →
        if (Lengths.read call.input).longest = 0
        then (Contract.modexp pricing).answer call =
          .ok ⟨[], call.gasLimit - pricing.quote call.input⟩
        else ∃ fault ∈ [Fault.modexpBase, .modexpModulus, .modexpExponent],
          (Contract.modexp pricing).answer call =
            .error (.execution (.backend fault.message)
              (call.gasLimit - pricing.quote call.input))) := by
  have hquote : ((Contract.modexp pricing).quote call.input).toNat =
      pricing.oversizedPrice (Lengths.read call.input).longest :=
    pricing.toNat_quote_of_oversized call.input h
  refine ⟨?_, fun hanswer => ?_⟩
  · rw [Contract.answer_runsOut_iff, UInt64.lt_iff_toNat_lt, hquote]
  · have hpaid := Contract.quote_le_of_not_runsOut hanswer
    have hattempt := Modexp.attempt_of_oversized call.input h
    rw [Contract.answer_of_le (.modexp pricing) call hpaid, Contract.attempt_modexp]
    split at hattempt
    · rename_i hempty
      rw [if_pos hempty, hattempt]
      rfl
    · rename_i hsome
      obtain ⟨fault, hfault, hattempt⟩ := hattempt
      rw [if_neg hsome, hattempt]
      exact ⟨fault, hfault, rfl⟩

-- Only the exponent is too long here, and a modulus of one word brings the price down to a third.
theorem oversized_exponent_refused :
    let input := Bytes.ofNat 32 0 ++ Bytes.ofNat 32 (2 ^ 64) ++ Bytes.ofNat 32 8
    (∀ gasLimit : Gas, ((Contract.modexp .eip2565).answer { input, gasLimit }).RunsOut ↔
        gasLimit.toNat < 6148914691236517205) ∧
      (Contract.modexp .eip2565).answer { input, gasLimit := 6148914691236517206 } =
        .error (.execution (.backend "modexp exp overflow") 1) := by
  intro input
  have hlengths : Lengths.read input = ⟨0, 2 ^ 64, 8⟩ := by decide +kernel
  have hoversized : (Lengths.read input).Oversized := by
    rw [hlengths]
    decide
  have hprice : Modexp.Pricing.eip2565.oversizedPrice (Lengths.read input).longest =
      6148914691236517205 := by
    rw [hlengths]
    decide
  refine ⟨fun gasLimit => ?_, by decide +kernel⟩
  rw [(oversized_call_outcome .eip2565 { input, gasLimit } hoversized).1, hprice]

-- So the price does not keep every such call out. This one costs 200.
theorem oversized_exponent_executed :
    ¬ ∀ (pricing : Modexp.Pricing) (call : Call), (Lengths.read call.input).Oversized →
      ((Contract.modexp pricing).answer call).RunsOut := by
  intro h
  let input := Bytes.ofNat 32 0 ++ Bytes.ofNat 32 (2 ^ 64) ++ Bytes.ofNat 32 0
  have hanswer : (Contract.modexp .eip2565).answer { input, gasLimit := 1000000 } =
      .ok ⟨[], 999800⟩ := by
    decide +kernel
  obtain ⟨required, supplied, hrunsOut⟩ :=
    h .eip2565 { input, gasLimit := 1000000 } (by decide +kernel)
  rw [hanswer] at hrunsOut
  cases hrunsOut

end NativeContracts
