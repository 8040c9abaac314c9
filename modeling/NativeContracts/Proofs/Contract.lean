import NativeContracts.Proofs.Modexp.Execution

namespace NativeContracts.Contract

-- The routine behind each contract.
def routine : Contract → Routine
  | ecRecover => Recovery.routine
  | sha256 => Copying.sha256
  | ripemd160 => Copying.ripemd160
  | identity => Copying.identity
  | modexp pricing => Modexp.routine pricing
  | bn254Add pricing => Bn254.sumRoutine pricing
  | bn254Mul pricing => Bn254.multipleRoutine pricing
  | bn254Pairing pricing => Bn254.pairingRoutine pricing
  | blake2f => Blake2.routine

-- No contract is unavailable at its own revision.
theorem routine?_since (c : Contract) :
    Deployment.routine? c.since c.address = some c.routine := by
  cases c with
  | ecRecover | sha256 | ripemd160 | identity | blake2f => rfl
  | modexp pricing | bn254Add pricing | bn254Mul pricing | bn254Pairing pricing =>
      cases pricing <;> rfl

theorem routine_charges (c : Contract) (input : Bytes) (h : input.length < 2 ^ 50) :
    Charges c.routine input (c.quote input) := by
  cases c with
  | ecRecover => exact (Recovery.routine_prepaid input).charges
  | sha256 => exact (Copying.metered_prepaid _ _ input).charges
  | ripemd160 => exact (Copying.metered_prepaid _ _ input).charges
  | identity => exact (Copying.metered_prepaid _ _ input).charges
  | modexp pricing => exact Modexp.routine_charges pricing input
  | bn254Add pricing => exact (Bn254.sumRoutine_prepaid pricing input).charges
  | bn254Mul pricing => exact (Bn254.multipleRoutine_prepaid pricing input).charges
  | bn254Pairing pricing =>
      have hcharges := (Bn254.pairingRoutine_prepaid pricing input).charges
      rwa [Bn254.pairing_charge_eq pricing input.length h] at hcharges
  | blake2f => exact Blake2.routine_charges input

-- The output that the routine behind a contract has for an input under a limit that never binds.
def attempt (c : Contract) (input : Bytes) : Except Fault Bytes :=
  (c.routine input Gas.most).map Receipt.output

theorem attempt_ecRecover (input : Bytes) :
    ecRecover.attempt input = .ok (Recovery.output input) :=
  (Recovery.routine_prepaid input).output_most

theorem attempt_sha256 (input : Bytes) : sha256.attempt input = .ok (Sha256.digest input) :=
  (Copying.metered_prepaid .sha256 Sha256.digest input).output_most

theorem attempt_ripemd160 (input : Bytes) :
    ripemd160.attempt input = .ok (Bytes.zeros 12 ++ Ripemd160.digest input) :=
  (Copying.metered_prepaid .ripemd160
    (fun input => Bytes.zeros 12 ++ Ripemd160.digest input) input).output_most

theorem attempt_identity (input : Bytes) : identity.attempt input = .ok input :=
  (Copying.metered_prepaid .identity (fun input => input) input).output_most

theorem attempt_modexp (pricing : Modexp.Pricing) (input : Bytes) :
    (modexp pricing).attempt input = Modexp.attempt input :=
  Modexp.routine_most pricing input

theorem attempt_bn254Add (pricing : Bn254.Pricing) (input : Bytes) :
    (bn254Add pricing).attempt input = Bn254.sumOutput input :=
  (Bn254.sumRoutine_prepaid pricing input).output_most

theorem attempt_bn254Mul (pricing : Bn254.Pricing) (input : Bytes) :
    (bn254Mul pricing).attempt input = Bn254.multipleOutput input :=
  (Bn254.multipleRoutine_prepaid pricing input).output_most

theorem attempt_bn254Pairing (pricing : Bn254.Pricing) (input : Bytes) :
    (bn254Pairing pricing).attempt input = Bn254.wholePairsOutput input :=
  (Bn254.pairingRoutine_prepaid pricing input).output_most

theorem attempt_blake2f_of_length_eq (input : Bytes) (h : input.length = Blake2.inputLength) :
    blake2f.attempt input = do
      let last ← Blake2.flag input
      return Blake2.toBytes (Blake2.compress (Blake2.parameters input last)) :=
  (Blake2.routine_prepaid input h).output_most

theorem attempt_blake2f_of_length_ne (input : Bytes) (h : input.length ≠ Blake2.inputLength) :
    blake2f.attempt input = .error .blake2Length := by
  rw [attempt, routine, Blake2.routine_of_length_ne input _ h]
  rfl

theorem execute_eq (c : Contract) (input : Bytes) :
    c.execute input = (c.attempt input).mapError fun fault => .backend fault.message := by
  simp only [execute, routine?_since, attempt]
  cases c.routine input Gas.most <;> rfl

end NativeContracts.Contract

namespace NativeContracts

-- What a contract asks is what its routine charges: to the unit, and at every limit. The bound on
-- the length keeps the charge for a pairing, which wraps, apart from the price, which does not.
theorem backing_routine_charges_quote (c : Contract) (input : Bytes)
    (h : input.length < 2 ^ 50) :
    ∃ routine, Deployment.routine? c.since c.address = some routine ∧
      ∀ supply receipt, routine input supply = .ok receipt →
        receipt.gasUsed = c.quote input ∧
        ∀ limit, (routine input limit = .error .outOfGas ↔ limit < c.quote input) ∧
          (c.quote input ≤ limit → routine input limit = .ok receipt) := by
  refine ⟨c.routine, c.routine?_since, fun supply receipt hreceipt => ?_⟩
  obtain ⟨hused, hlimit⟩ := c.routine_charges input h supply receipt hreceipt
  refine ⟨hused, fun limit => ?_⟩
  rw [hlimit limit]
  split
  · rename_i hless
    exact ⟨by simp [hless], fun hle => absurd hless (UInt64.not_lt.mpr hle)⟩
  · rename_i hless
    exact ⟨by simp [hless], fun _ => rfl⟩

-- The exponent is declared a thousand bytes long and starts where the input ends.
theorem truncated_exponent_charged :
    let input := Bytes.ofNat 32 1 ++ Bytes.ofNat 32 1000 ++ Bytes.ofNat 32 1 ++ [2]
    Modexp.routine .eip2565 input Gas.most = .ok ⟨2581, [0]⟩ ∧
      (Contract.modexp .eip2565).quote input = 2581 ∧
      ∀ limit, Modexp.routine .eip2565 input limit = .error .outOfGas ↔ limit < 2581 := by
  intro input
  have hpaid : Modexp.routine .eip2565 input Gas.most = .ok ⟨2581, [0]⟩ := by
    decide +kernel
  obtain ⟨routine, hroutine, hcharges⟩ :=
    backing_routine_charges_quote (.modexp .eip2565) input (by decide)
  cases hroutine
  obtain ⟨hused, hlimit⟩ := hcharges Gas.most ⟨2581, [0]⟩ hpaid
  have hquote : (Contract.modexp .eip2565).quote input = 2581 := hused.symm
  exact ⟨hpaid, hquote, fun limit => hquote ▸ (hlimit limit).1⟩

end NativeContracts
