import NativeContracts.Proofs.Modexp.Charge
import NativeContracts.Proofs.Operation

namespace NativeContracts

open Bytes (zeros valueAt_append_zeros window_append_zeros)
theorem Recovery.output_append_zeros (input : Bytes) (count : Nat) :
    output (input ++ zeros count) = output input := by
  simp only [output, signature?, valueAt_append_zeros]

namespace Bn254

theorem pointAt_append_zeros (input : Bytes) (count start : Nat) :
    pointAt (input ++ zeros count) start = pointAt input start := by
  simp only [pointAt, readPoint, readCoordinate, valueAt_append_zeros]

theorem sumOutput_append_zeros (input : Bytes) (count : Nat) :
    sumOutput (input ++ zeros count) = sumOutput input := by
  simp only [sumOutput, pointAt_append_zeros]

theorem multipleOutput_append_zeros (input : Bytes) (count : Nat) :
    multipleOutput (input ++ zeros count) = multipleOutput input := by
  simp only [multipleOutput, pointAt_append_zeros, valueAt_append_zeros]

end Bn254

namespace Modexp

theorem Lengths.read_append_zeros (input : Bytes) (count : Nat) :
    read (input ++ zeros count) = read input := by
  simp only [read, window_append_zeros]

theorem exponentLead_append_zeros (input : Bytes) (count : Nat) :
    exponentLead (input ++ zeros count) = exponentLead input := by
  simp only [exponentLead, Lengths.read_append_zeros, window_append_zeros]

theorem attempt_append_zeros (input : Bytes) (count : Nat) :
    attempt (input ++ zeros count) = attempt input := by
  simp only [attempt, baseOperand, exponentOperand, modulusOperand, Lengths.read_append_zeros,
    window_append_zeros]

-- More data may let the header read an exponent that it passed over before. The price depends on
-- the lengths and on the lead alone, and both stay.
theorem Pricing.quote_append_zeros (pricing : Pricing) (input : Bytes) (count : Nat) :
    pricing.quote (input ++ zeros count) = pricing.quote input := by
  apply UInt64.toNat_inj.mp
  rw [toNat_quote_eq_charge, toNat_quote_eq_charge, Lengths.read_append_zeros,
    exponentLead_append_zeros]

end Modexp

namespace Contract

-- The contracts that read their input as if it had no end.
inductive ReadsPadded : Contract → Prop
  | ecRecover : ReadsPadded .ecRecover
  | modexp (pricing : Modexp.Pricing) : ReadsPadded (.modexp pricing)
  | bn254Add (pricing : Bn254.Pricing) : ReadsPadded (.bn254Add pricing)
  | bn254Mul (pricing : Bn254.Pricing) : ReadsPadded (.bn254Mul pricing)

namespace ReadsPadded

variable {c : Contract}

theorem quote_append_zeros (h : c.ReadsPadded) (input : Bytes) (count : Nat) :
    c.quote (input ++ zeros count) = c.quote input := by
  cases h with
  | modexp pricing => exact pricing.quote_append_zeros input count
  | _ => rfl

theorem attempt_append_zeros (h : c.ReadsPadded) (input : Bytes) (count : Nat) :
    c.attempt (input ++ zeros count) = c.attempt input := by
  cases h with
  | ecRecover => rw [attempt_ecRecover, attempt_ecRecover, Recovery.output_append_zeros]
  | modexp pricing => rw [attempt_modexp, attempt_modexp, Modexp.attempt_append_zeros]
  | bn254Add pricing => rw [attempt_bn254Add, attempt_bn254Add, Bn254.sumOutput_append_zeros]
  | bn254Mul pricing => rw [attempt_bn254Mul, attempt_bn254Mul, Bn254.multipleOutput_append_zeros]

end ReadsPadded

end Contract

-- The lengths of an input and of the operands that it declares have no bound here.
theorem trailing_zeros_change_nothing {c : Contract} (h : c.ReadsPadded) (call : Call)
    (count : Nat) :
    let padded := { call with input := call.input ++ zeros count }
    c.quote padded.input = c.quote call.input ∧
      c.execute padded.input = c.execute call.input ∧
      c.operation.run padded = c.operation.run call := by
  intro padded
  have hquote : c.quote padded.input = c.quote call.input := h.quote_append_zeros call.input count
  have hexecute : c.execute padded.input = c.execute call.input := by
    rw [Contract.execute_eq, Contract.execute_eq, h.attempt_append_zeros call.input count]
  refine ⟨hquote, hexecute, ?_⟩
  exact Operation.run_congr hquote hexecute rfl

-- The input ends in the middle of the modulus 0x0500, and the zeros go on behind it.
theorem truncated_modulus_padded :
    let input := Bytes.ofNat 32 1 ++ Bytes.ofNat 32 1 ++ Bytes.ofNat 32 2 ++ [3, 2, 5]
    let call : Call := { input, gasLimit := 1000 }
    (Contract.modexp .eip2565).ReadsPadded ∧
      (Contract.modexp .eip2565).operation.run { call with input := input ++ zeros 3 } =
        (.ok ⟨[0, 9], 800⟩, .executed 200 800) := by
  intro input call
  have hreads : (Contract.modexp .eip2565).ReadsPadded := .modexp .eip2565
  obtain ⟨-, -, hrun⟩ := trailing_zeros_change_nothing hreads call 3
  have hcut : Id.run ((Contract.modexp .eip2565).operation.run call) =
      (.ok ⟨[0, 9], 800⟩, .executed 200 800) := by
    decide +kernel
  exact ⟨hreads, hrun.trans hcut⟩

end NativeContracts
