import NativeContracts.Proofs.Contract.Output
import Mathlib.Data.Rat.Floor

namespace NativeContracts

open Saturating (limit)

-- The prices in numbers without a bound.
namespace LinearPrice

def formula (price : LinearPrice) (length : ℕ) : ℕ :=
  price.base.toNat + price.perWord.toNat * ⌈(length / 32 : ℚ)⌉₊

-- The last word is counted whole.
theorem ceil_words (length : ℕ) : ⌈(length / 32 : ℚ)⌉₊ = (length + 31) / 32 := by
  have hceil := Rat.ceil_natCast_div_natCast length 32
  rw [Nat.cast_ofNat] at hceil
  rw [← Int.ceil_toNat, hceil]
  omega

theorem formula_mono (price : LinearPrice) : Monotone price.formula := by
  intro short long h
  have hwords : (short + 31) / 32 ≤ (long + 31) / 32 := Nat.div_le_div_right (by omega)
  simp only [formula, ceil_words]
  exact Nat.add_le_add_left (Nat.mul_le_mul_left _ hwords) _

-- As long as the sum fits in 64 bits nothing wraps on the way to it.
theorem toNat_quote (price : LinearPrice) {length : ℕ} (h : price.formula length < 2 ^ 64) :
    (price.quote length).toNat = price.formula length := by
  simp only [formula, ceil_words] at h ⊢
  rw [quote, UInt64.toNat_add, UInt64.toNat_mul, UInt64.toNat_ofNat', Nat.mod_mul_mod,
    Nat.mod_add_mod, Nat.mul_comm, Nat.add_comm]
  exact Nat.mod_eq_of_lt h

-- No price of this library comes near that for an input of this length.
theorem formula_lt (price : LinearPrice) (hbase : price.base ≤ 600) (hperWord : price.perWord ≤ 120)
    {length : ℕ} (h : length ≤ 2 ^ 62) : price.formula length < 2 ^ 64 := by
  have hwords : (length + 31) / 32 ≤ 2 ^ 57 := by omega
  have hproduct : price.perWord.toNat * ((length + 31) / 32) ≤ 120 * 2 ^ 57 :=
    Nat.mul_le_mul hperWord hwords
  have hbase' : price.base.toNat ≤ 600 := hbase
  simp only [formula, ceil_words]
  omega

end LinearPrice

namespace Price

def pairingFormula (base perPair : Gas) (length : ℕ) : ℕ :=
  min (2 ^ 64 - 1) (base.toNat + perPair.toNat * (length / 192))

theorem pairingFormula_mono (base perPair : Gas) : Monotone (pairingFormula base perPair) := by
  intro short long h
  have hpairs : short / 192 ≤ long / 192 := Nat.div_le_div_right h
  have hproduct := Nat.mul_le_mul_left perPair.toNat hpairs
  simp only [pairingFormula]
  omega

-- A product that is cut before the base is added is cut after it too.
theorem toNat_pairing_eq_formula (base perPair : Gas) {length : ℕ} (h : length < 2 ^ 64) :
    (pairing base perPair length).toNat = pairingFormula base perPair length := by
  have hpairs : length / 192 % 2 ^ 64 = length / 192 := Nat.mod_eq_of_lt (by omega)
  rw [toNat_pairing, hpairs, pairingFormula]
  simp only [limit]
  omega

end Price

-- A price that is a formula of the length does not fall where the formula does not.
theorem Contract.quote_le_append {c : Contract} {formula : ℕ → ℕ} (hmono : Monotone formula)
    (hquote : ∀ input : Bytes, input.length ≤ 2 ^ 62 → (c.quote input).toNat = formula input.length)
    {input more : Bytes} (h : (input ++ more).length ≤ 2 ^ 62) :
    c.quote input ≤ c.quote (input ++ more) := by
  have hlength : input.length ≤ (input ++ more).length := by simp
  rw [UInt64.le_iff_toNat_le, hquote _ h, hquote _ (hlength.trans h)]
  exact hmono hlength

theorem LinearPrice.toNat_quote_of_le (price : LinearPrice) (hbase : price.base ≤ 600)
    (hperWord : price.perWord ≤ 120) {length : ℕ} (h : length ≤ 2 ^ 62) :
    (price.quote length).toNat = price.formula length :=
  price.toNat_quote (price.formula_lt hbase hperWord h)

-- Every price is the one of its formula over numbers without a bound: hashing and copying count the
-- last word whole and never reach the limit, a pairing counts whole pairs only and stops there. A
-- longer input is never cheaper, except that only one length is worth anything to the compression.
theorem prices_follow_their_formulas :
    (∀ (base perPair : Gas) (length : ℕ), length < 2 ^ 64 →
      (Price.pairing base perPair length).toNat =
        min (2 ^ 64 - 1) (base.toNat + perPair.toNat * (length / 192))) ∧
      (∀ input : Bytes, input.length ≤ 2 ^ 62 →
        let n := input.length
        (Contract.sha256.quote input).toNat = 60 + 12 * ⌈(n / 32 : ℚ)⌉₊ ∧
          (Contract.ripemd160.quote input).toNat = 600 + 120 * ⌈(n / 32 : ℚ)⌉₊ ∧
          (Contract.identity.quote input).toNat = 15 + 3 * ⌈(n / 32 : ℚ)⌉₊ ∧
          ((Contract.bn254Pairing .byzantium).quote input).toNat =
            min (2 ^ 64 - 1) (100000 + 80000 * (n / 192)) ∧
          ((Contract.bn254Pairing .istanbul).quote input).toNat =
            min (2 ^ 64 - 1) (45000 + 34000 * (n / 192)) ∧
          (Contract.blake2f.quote input).toNat =
            if n = 213 then Bytes.value (input.take 4) else 0) ∧
      ∀ c ∈ [Contract.sha256, .ripemd160, .identity, .bn254Pairing .byzantium,
          .bn254Pairing .istanbul],
        ∀ input more : Bytes, (input ++ more).length ≤ 2 ^ 62 →
          c.quote input ≤ c.quote (input ++ more) := by
  have hsha256 : ∀ input : Bytes, input.length ≤ 2 ^ 62 →
      (Contract.sha256.quote input).toNat = LinearPrice.sha256.formula input.length :=
    fun _ h => LinearPrice.sha256.toNat_quote_of_le (by decide) (by decide) h
  have hripemd160 : ∀ input : Bytes, input.length ≤ 2 ^ 62 →
      (Contract.ripemd160.quote input).toNat = LinearPrice.ripemd160.formula input.length :=
    fun _ h => LinearPrice.ripemd160.toNat_quote_of_le (by decide) (by decide) h
  have hidentity : ∀ input : Bytes, input.length ≤ 2 ^ 62 →
      (Contract.identity.quote input).toNat = LinearPrice.identity.formula input.length :=
    fun _ h => LinearPrice.identity.toNat_quote_of_le (by decide) (by decide) h
  have hpairing : ∀ (pricing : Bn254.Pricing) (input : Bytes), input.length ≤ 2 ^ 62 →
      ((Contract.bn254Pairing pricing).quote input).toNat =
        Price.pairingFormula pricing.pairingBase pricing.perPair input.length :=
    fun pricing _ h => Price.toNat_pairing_eq_formula _ _ (h.trans_lt (by decide))
  refine ⟨fun base perPair length => Price.toNat_pairing_eq_formula base perPair,
    fun input h => ⟨hsha256 input h, hripemd160 input h, hidentity input h,
      hpairing .byzantium input h, hpairing .istanbul input h, ?_⟩, fun c hc input more h => ?_⟩
  · split
    · rename_i hlength
      exact Contract.toNat_quote_blake2f hlength
    · rename_i hlength
      exact congrArg UInt64.toNat (if_neg hlength)
  · simp only [List.mem_cons, List.not_mem_nil, or_false] at hc
    rcases hc with rfl | rfl | rfl | rfl | rfl
    · exact Contract.quote_le_append (LinearPrice.formula_mono _) hsha256 h
    · exact Contract.quote_le_append (LinearPrice.formula_mono _) hripemd160 h
    · exact Contract.quote_le_append (LinearPrice.formula_mono _) hidentity h
    · exact Contract.quote_le_append (Price.pairingFormula_mono _ _) (hpairing .byzantium) h
    · exact Contract.quote_le_append (Price.pairingFormula_mono _ _) (hpairing .istanbul) h

-- A first pair of this price reaches the limit to the unit, and a second one adds nothing. The byte
-- after a whole word costs as much as a word.
theorem price_stops_at_the_limit :
    let base : Gas := 18446744073709517615
    let input := Bytes.zeros 32
    (Price.pairing base 34000 383).toNat = 2 ^ 64 - 1 ∧
      (Price.pairing base 34000 384).toNat = 2 ^ 64 - 1 ∧
      (Contract.ripemd160.quote input).toNat = 720 ∧
      (Contract.ripemd160.quote (input ++ [1])).toNat = 840 ∧
      Contract.ripemd160.quote input ≤ Contract.ripemd160.quote (input ++ [1]) := by
  intro base input
  obtain ⟨hpairing, hquote, hmore⟩ := prices_follow_their_formulas
  have hone : (Price.pairing base 34000 383).toNat = 2 ^ 64 - 1 :=
    (hpairing base 34000 383 (by decide)).trans (by decide)
  have htwo : (Price.pairing base 34000 384).toNat = 2 ^ 64 - 1 :=
    (hpairing base 34000 384 (by decide)).trans (by decide)
  obtain ⟨-, hword, -⟩ := hquote input (by decide)
  obtain ⟨-, hwords, -⟩ := hquote (input ++ [1]) (by decide)
  rw [LinearPrice.ceil_words] at hword hwords
  exact ⟨hone, htwo, hword.trans (by decide), hwords.trans (by decide),
    hmore .ripemd160 (by decide) input [1] (by decide)⟩

end NativeContracts
