import NativeContracts.Contract
import NativeContracts.Proofs.Modexp.Price

namespace NativeContracts

open Saturating (limit)

theorem Gas.toNat_le_limit (gas : Gas) : gas.toNat ≤ limit := by
  have h := gas.toNat_lt
  simp only [limit]
  omega

@[simp] theorem Gas.toNat_most : Gas.most.toNat = limit := by simp [Gas.most]

theorem Gas.not_most_lt (gas : Gas) : ¬ Gas.most < gas := by
  rw [UInt64.lt_iff_toNat_lt, Gas.toNat_most]
  exact Nat.not_lt.mpr gas.toNat_le_limit

theorem charge_bind {α : Type} (limit cost : Gas) (work : Unit → Except Fault α) :
    charge limit cost >>= work = if limit < cost then .error .outOfGas else work () := by
  unfold charge
  split <;> rfl

-- A routine charges `cost` for an input if, wherever it accepts the input at all, it accounts for
-- that much, runs out of gas at every limit below, and does the same at every other limit.
def Charges (routine : Routine) (input : Bytes) (cost : Gas) : Prop :=
  ∀ supply receipt, routine input supply = .ok receipt →
    receipt.gasUsed = cost ∧
    ∀ limit, routine input limit = if limit < cost then .error .outOfGas else .ok receipt

-- A routine is prepaid for an input if it charges the whole cost before anything else can go wrong.
def Prepaid (routine : Routine) (input : Bytes) (cost : Gas) (work : Except Fault Bytes) : Prop :=
  ∀ limit, routine input limit = do
    charge limit cost
    let output ← work
    return ⟨cost, output⟩

namespace Prepaid

variable {routine : Routine} {input : Bytes} {cost : Gas} {work : Except Fault Bytes}

theorem charges (h : Prepaid routine input cost work) : Charges routine input cost := by
  intro supply receipt hreceipt
  simp only [h _, charge_bind] at hreceipt ⊢
  split at hreceipt
  · cases hreceipt
  cases work with
  | error fault => cases hreceipt
  | ok output =>
      cases hreceipt
      exact ⟨rfl, fun _ => rfl⟩

-- Under a limit that never binds only the work is left.
theorem output_most (h : Prepaid routine input cost work) :
    (routine input Gas.most).map Receipt.output = work := by
  rw [h, charge_bind, if_neg (Gas.not_most_lt cost)]
  cases work <;> rfl

end Prepaid

theorem Recovery.routine_prepaid (input : Bytes) :
    Prepaid Recovery.routine input Price.recovery (.ok (output input)) :=
  fun _ => rfl

-- Both sums wrap at the same place, so they agree at every length.
theorem Copying.metered_prepaid (price : LinearPrice) (output : Bytes → Bytes) (input : Bytes) :
    Prepaid (metered price output) input (price.quote input.length) (.ok (output input)) := by
  have hcost : UInt64.ofNat (price.base.toNat + price.perWord.toNat * words input) =
      price.quote input.length := by
    simp only [LinearPrice.quote, words, UInt64.ofNat_add, UInt64.ofNat_mul, UInt64.ofNat_toNat]
    rw [UInt64.add_comm, UInt64.mul_comm]
  rw [← hcost]
  exact fun _ => rfl

namespace Price

theorem toNat_pairing (base perPair : Gas) (length : Nat) :
    (pairing base perPair length).toNat =
      min (base.toNat + min (perPair.toNat * (length / 192 % 2 ^ 64)) limit) limit := by
  simp [pairing]

theorem pairing_le_pairing {base base' perPair perPair' : Gas} (hbase : base ≤ base')
    (hperPair : perPair ≤ perPair') (length : Nat) :
    pairing base perPair length ≤ pairing base' perPair' length := by
  rw [UInt64.le_iff_toNat_le] at hbase hperPair ⊢
  have hpairs := Nat.mul_le_mul_right (length / 192 % 2 ^ 64) hperPair
  rw [toNat_pairing, toNat_pairing]
  omega

-- Four bytes ask for fewer rounds than the limit.
theorem toNat_compression (input : Bytes) (h : input.length = compressionLength) :
    (compression input).toNat = input.valueAt 0 4 := by
  have hrounds := Bytes.valueAt_lt input 0 4
  have hword : (UInt64.ofNat (input.valueAt 0 4)).toNat = input.valueAt 0 4 := by
    rw [UInt64.toNat_ofNat']
    omega
  have hperRound : perRound.toNat = 1 := rfl
  rw [compression, if_pos h, Saturating.toNat_mul, hword, hperRound]
  simp only [limit]
  omega

end Price

namespace Bn254

theorem sumRoutine_prepaid (pricing : Pricing) (input : Bytes) :
    Prepaid (sumRoutine pricing) input pricing.sum (sumOutput input) :=
  fun _ => rfl

theorem multipleRoutine_prepaid (pricing : Pricing) (input : Bytes) :
    Prepaid (multipleRoutine pricing) input pricing.multiple (multipleOutput input) :=
  fun _ => rfl

-- The price stays at the limit where the charge would wrap. No input of this length gets there.
theorem pairing_charge_eq (pricing : Pricing) (length : Nat) (h : length < 2 ^ 50) :
    UInt64.ofNat (length / pairLength) * pricing.perPair + pricing.pairingBase =
      Price.pairing pricing.pairingBase pricing.perPair length := by
  have hpairs : length / 192 < 2 ^ 43 := by omega
  apply UInt64.toNat_inj.mp
  rw [Price.toNat_pairing, UInt64.toNat_add, UInt64.toNat_mul, UInt64.toNat_ofNat']
  cases pricing with
  | byzantium =>
      simp only [Pricing.pairingBase, Pricing.perPair, pairLength, limit, UInt64.reduceToNat]
      omega
  | istanbul =>
      simp only [Pricing.pairingBase, Pricing.perPair, pairLength, limit, UInt64.reduceToNat]
      omega

def wholePairsOutput (input : Bytes) : Except Fault Bytes :=
  if input.length % pairLength ≠ 0 then .error .pairingLength else pairingOutput input

theorem pairingRoutine_prepaid (pricing : Pricing) (input : Bytes) :
    Prepaid (pairingRoutine pricing) input
      (UInt64.ofNat (input.length / pairLength) * pricing.perPair + pricing.pairingBase)
      (wholePairsOutput input) := by
  intro limit
  simp only [pairingRoutine, wholePairsOutput]
  by_cases hwhole : input.length % pairLength = 0
  · simp only [hwhole, ne_eq, not_true_eq_false, ite_false]
  · simp only [hwhole, ne_eq, not_false_eq_true, ite_true]
    rfl

end Bn254

namespace Blake2

theorem routine_prepaid (input : Bytes) (h : input.length = inputLength) :
    Prepaid routine input (Price.compression input) (do
      let last ← flag input
      return toBytes (compress (parameters input last))) := by
  have hcost : UInt64.ofNat (input.part 0 4).value = Price.compression input := by
    have hfour : 0 + 4 ≤ input.length := by
      rw [h]
      decide
    rw [← Bytes.valueAt_of_le_length input 0 4 hfour, ← Price.toNat_compression input h]
    exact UInt64.ofNat_toNat
  rw [← hcost]
  intro limit
  simp only [routine, h, ne_eq, not_true_eq_false, ite_false]
  cases flag input <;> rfl

theorem routine_of_length_ne (input : Bytes) (gas : Gas) (h : input.length ≠ inputLength) :
    routine input gas = .error .blake2Length := by
  simp only [routine, h, ne_eq, not_false_eq_true, ite_true]
  rfl

theorem routine_charges (input : Bytes) : Charges routine input (Price.compression input) := by
  by_cases h : input.length = inputLength
  · exact (routine_prepaid input h).charges
  · intro supply receipt hreceipt
    rw [routine_of_length_ne input supply h] at hreceipt
    cases hreceipt

end Blake2

end NativeContracts
