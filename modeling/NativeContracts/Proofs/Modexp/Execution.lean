import NativeContracts.Proofs.Routine

namespace NativeContracts.Modexp

open Saturating (limit)

theorem readLength_bind {α : Type} (input : Bytes) (start : Nat) (fault : Fault)
    (next : Nat → Except Fault α) :
    readLength input start fault >>= next =
      if limit < (input.window start 32).value then .error fault
      else next (input.window start 32).value := by
  rw [Bytes.value_window]
  by_cases h : limit < input.valueAt start 32
  · rw [if_pos h, readLength, if_neg (Nat.not_le.mpr h)]
    rfl
  · rw [if_neg h, readLength, if_pos (Nat.not_lt.mp h)]
    rfl

theorem output_eq (input : Bytes) :
    output input (Lengths.read input).base (Lengths.read input).exponent
      (Lengths.read input).modulus =
      Bytes.ofNat (Lengths.read input).modulus
        (power (baseOperand input) (exponentOperand input) (modulusOperand input)) := by
  simp only [output, baseOperand, exponentOperand, modulusOperand, Bytes.valueAt_drop,
    Bytes.value_window, Nat.add_zero, Nat.add_assoc]

-- What a call does once it is paid for: the checks of the lengths in their order, then the power.
def attempt (input : Bytes) : Except Fault Bytes :=
  if limit < (Lengths.read input).base then .error .modexpBase
  else if limit < (Lengths.read input).modulus then .error .modexpModulus
  else if (Lengths.read input).longest = 0 then .ok []
  else if limit < (Lengths.read input).exponent then .error .modexpExponent
  else .ok (Bytes.ofNat (Lengths.read input).modulus
    (power (baseOperand input) (exponentOperand input) (modulusOperand input)))

-- Lengths that fit leave nothing to refuse. Without base and modulus the power is no bytes long.
theorem attempt_of_le_limit (input : Bytes) (hbase : (Lengths.read input).base ≤ limit)
    (hexponent : (Lengths.read input).exponent ≤ limit)
    (hmodulus : (Lengths.read input).modulus ≤ limit) :
    attempt input = .ok (Bytes.ofNat (Lengths.read input).modulus
      (power (baseOperand input) (exponentOperand input) (modulusOperand input))) := by
  rw [attempt, if_neg (Nat.not_lt.mpr hbase), if_neg (Nat.not_lt.mpr hmodulus)]
  split
  · rename_i hempty
    have hnone : (Lengths.read input).modulus = 0 :=
      Nat.eq_zero_of_le_zero (hempty ▸ Nat.le_max_right _ _)
    rw [hnone]
    rfl
  · rw [if_neg (Nat.not_lt.mpr hexponent)]

-- The routine in one piece. A call that leaves the checks early costs the least price, which is
-- then also the price that the header asks.
theorem routine_eq (pricing : Pricing) (input : Bytes) (gas : Gas) :
    routine pricing input gas =
      if gas < pricing.minimum then .error .outOfGas
      else match attempt input with
        | .error fault => .error fault
        | .ok output =>
          if gas < pricing.quote input then .error .outOfGas
          else .ok ⟨pricing.quote input, output⟩ := by
  have hbase : (input.window 0 32).value = (Lengths.read input).base := rfl
  have hexponent : (input.window 32 32).value = (Lengths.read input).exponent := rfl
  have hmodulus : (input.window 64 32).value = (Lengths.read input).modulus := rfl
  have hempty : (Lengths.read input).base = 0 ∧ (Lengths.read input).modulus = 0 ↔
      (Lengths.read input).longest = 0 := by
    simp only [Lengths.longest]
    omega
  simp only [routine, charge_bind, readLength_bind, hbase, hexponent, hmodulus, hempty,
    exponentHead_eq, output_eq, attempt]
  by_cases hpoor : gas < pricing.minimum
  · simp only [hpoor, ite_true]
  by_cases hbaseLong : limit < (Lengths.read input).base
  · simp only [hpoor, hbaseLong, ite_true, ite_false]
  by_cases hmodulusLong : limit < (Lengths.read input).modulus
  · simp only [hpoor, hbaseLong, hmodulusLong, ite_true, ite_false]
  by_cases hnone : (Lengths.read input).longest = 0
  · simp only [hpoor, hbaseLong, hmodulusLong, hnone, ite_true, ite_false,
      Pricing.quote_of_longest_eq_zero _ _ hnone]
    rfl
  by_cases hexponentLong : limit < (Lengths.read input).exponent
  · simp only [hpoor, hbaseLong, hmodulusLong, hnone, hexponentLong, ite_true, ite_false]
  rw [Pricing.cost_eq_quote _ _ (Nat.not_lt.mp hbaseLong) (Nat.not_lt.mp hexponentLong)
    (Nat.not_lt.mp hmodulusLong)]
  simp only [hpoor, hbaseLong, hmodulusLong, hnone, hexponentLong, ite_false]
  rfl

theorem routine_charges (pricing : Pricing) (input : Bytes) :
    Charges (routine pricing) input (pricing.quote input) := by
  intro supply receipt hreceipt
  simp only [routine_eq] at hreceipt ⊢
  split at hreceipt
  · cases hreceipt
  cases hattempt : attempt input with
  | error fault =>
      rw [hattempt] at hreceipt
      cases hreceipt
  | ok output =>
      simp only [hattempt] at hreceipt
      split at hreceipt
      · cases hreceipt
      cases hreceipt
      refine ⟨rfl, fun gas => ?_⟩
      by_cases hpoor : gas < pricing.minimum
      · simp only [hpoor, UInt64.lt_of_lt_of_le hpoor (pricing.minimum_le_quote input), ite_true]
      · simp only [hpoor, ite_false]

-- A call that has been paid for costs whatever it costs, but does the same under both prices.
theorem routine_most (pricing : Pricing) (input : Bytes) :
    (routine pricing input Gas.most).map Receipt.output = attempt input := by
  rw [routine_eq, if_neg (Gas.not_most_lt _)]
  cases attempt input with
  | error fault => rfl
  | ok output =>
      simp only [Gas.not_most_lt, ite_false]
      rfl

end NativeContracts.Modexp
