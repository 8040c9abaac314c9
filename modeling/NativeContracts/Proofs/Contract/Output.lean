import NativeContracts.Proofs.Except
import NativeContracts.Proofs.Modexp.Power

namespace NativeContracts

theorem Recovery.length_addressWord (key : Point Secp256k1.Coordinate) :
    (addressWord key).length = 32 := by
  simp [addressWord]

-- A signature that nobody can have made is no failure.
theorem Recovery.output_cases (input : Bytes) :
    output input = [] ∨ ∃ key, output input = addressWord key := by
  unfold output
  split
  · exact .inr ⟨_, rfl⟩
  · exact .inl rfl

namespace Bn254

theorem length_sumOutput {input output : Bytes} (h : sumOutput input = .ok output) :
    output.length = 64 := by
  obtain ⟨a, -, hrest⟩ := bind_eq_ok_iff.mp h
  obtain ⟨b, -, hreturn⟩ := bind_eq_ok_iff.mp hrest
  cases hreturn
  exact length_toBytes _

theorem length_multipleOutput {input output : Bytes} (h : multipleOutput input = .ok output) :
    output.length = 64 := by
  obtain ⟨a, -, hreturn⟩ := bind_eq_ok_iff.mp h
  cases hreturn
  exact length_toBytes _

theorem Fq12.power_one (n : Nat) : Fq12.one.power n = Fq12.one := by
  have hmul : Fq12.mul Fq12.one Fq12.one = Fq12.one := by decide +kernel
  exact @binaryPower_eq _ _ _ (fun _ => Fq12.one) (fun _ => hmul.symm) (fun _ => hmul.symm) n

-- An empty product is one.
theorem productIsOne_nil : productIsOne [] = true := by
  have hproduct : productIsOne [] = decide (Fq12.one.power ((Nat.pow q 6 + 1) / r)).InSextic := rfl
  rw [hproduct, Fq12.power_one]
  decide

theorem exists_pairs_of_wholePairsOutput {input output : Bytes}
    (h : wholePairsOutput input = .ok output) :
    ∃ found, pairs (input.length / pairLength) input = .ok found ∧
      output = Bytes.ofNat 32 (productIsOne found).toNat := by
  unfold wholePairsOutput at h
  split at h
  · cases h
  · obtain ⟨found, hpairs, hreturn⟩ := bind_eq_ok_iff.mp h
    cases hreturn
    exact ⟨found, hpairs, rfl⟩

theorem wholePairsOutput_of_not_dvd {input : Bytes} (h : ¬ pairLength ∣ input.length) :
    wholePairsOutput input = .error .pairingLength :=
  if_pos (mt Nat.dvd_of_mod_eq_zero h)

end Bn254

theorem Modexp.length_attempt {input output : Bytes} (h : attempt input = .ok output) :
    output.length = (Lengths.read input).modulus := by
  unfold attempt at h
  split at h
  · cases h
  split at h
  · cases h
  split at h
  · rename_i hempty
    cases h
    exact (Nat.eq_zero_of_le_zero (hempty ▸ Nat.le_max_right _ _)).symm
  split at h
  · cases h
  · cases h
    exact Bytes.length_ofNat _ _

theorem Blake2.flag_eq_ok_iff {input : Bytes} (h : input.length = inputLength) :
    (∃ last, flag input = .ok last) ↔ input[212]? = some 0 ∨ input[212]? = some 1 := by
  have hlength : (input.drop 212).length = 1 := by rw [List.length_drop, h]; rfl
  obtain ⟨byte, hbyte⟩ := List.length_eq_one_iff.mp hlength
  have hget : input[212]? = some byte := by
    have hhead : (input.drop 212)[0]? = some byte := by rw [hbyte]; rfl
    rwa [List.getElem?_drop] at hhead
  rw [hget, flag, hbyte]
  constructor
  · rintro ⟨last, hlast⟩
    split at hlast
    · rename_i heq
      cases heq
      exact .inl rfl
    · rename_i heq
      cases heq
      exact .inr rfl
    · cases hlast
  · rintro (h | h)
    · cases h
      exact ⟨false, rfl⟩
    · cases h
      exact ⟨true, rfl⟩

namespace Contract

theorem execute_eq_ok_iff (c : Contract) (input output : Bytes) :
    c.execute input = .ok output ↔ c.attempt input = .ok output := by
  rw [execute_eq, mapError_eq_ok_iff]

theorem execute_ne_unavailable (c : Contract) (input : Bytes) (address : Address)
    (revision : Revision) : c.execute input ≠ .error (.unavailable address revision) := by
  rw [execute_eq]
  cases c.attempt input with
  | ok output => exact nofun
  | error fault => exact nofun

-- What an output looks like, as far as that does not take cryptography to say.
def HasForm (c : Contract) (input output : Bytes) : Prop :=
  match c with
  | ecRecover => output = [] ∨ output.length = 32 ∧ output.take 12 = Bytes.zeros 12
  | sha256 => output.length = 32
  | ripemd160 => output.length = 32 ∧ output.take 12 = Bytes.zeros 12
  | identity => output = input
  | modexp _ => output.length = (Modexp.Lengths.read input).modulus
  | bn254Add _ | bn254Mul _ => output.length = 64
  | bn254Pairing _ =>
    output.length = 32 ∧ (output.value = 0 ∨ output.value = 1) ∧ (input = [] → output.value = 1)
  | blake2f => output.length = 64

theorem hasForm_of_attempt {c : Contract} {input output : Bytes}
    (h : c.attempt input = .ok output) : c.HasForm input output := by
  cases c with
  | ecRecover =>
      rw [attempt_ecRecover] at h
      cases h
      rcases Recovery.output_cases input with hnone | ⟨key, hkey⟩
      · exact .inl hnone
      · rw [hkey]
        exact .inr ⟨Recovery.length_addressWord key, List.take_left' (Bytes.length_zeros 12)⟩
  | sha256 =>
      rw [attempt_sha256] at h
      cases h
      exact Sha256.length_digest input
  | ripemd160 =>
      rw [attempt_ripemd160] at h
      cases h
      exact ⟨by simp, List.take_left' (Bytes.length_zeros 12)⟩
  | identity =>
      rw [attempt_identity] at h
      cases h
      rfl
  | modexp pricing => exact Modexp.length_attempt (attempt_modexp pricing input ▸ h)
  | bn254Add pricing => exact Bn254.length_sumOutput (attempt_bn254Add pricing input ▸ h)
  | bn254Mul pricing => exact Bn254.length_multipleOutput (attempt_bn254Mul pricing input ▸ h)
  | bn254Pairing pricing =>
      rw [attempt_bn254Pairing] at h
      obtain ⟨found, hfound, rfl⟩ := Bn254.exists_pairs_of_wholePairsOutput h
      have hvalue : (Bytes.ofNat 32 (Bn254.productIsOne found).toNat).value =
          (Bn254.productIsOne found).toNat := by
        rw [Bytes.value_ofNat]
        cases Bn254.productIsOne found <;> rfl
      refine ⟨Bytes.length_ofNat _ _, ?_, ?_⟩
      · rw [hvalue]
        cases Bn254.productIsOne found with
        | false => exact .inl rfl
        | true => exact .inr rfl
      · rintro rfl
        cases hfound
        rw [hvalue, Bn254.productIsOne_nil]
        rfl
  | blake2f =>
      by_cases hlength : input.length = Blake2.inputLength
      · rw [attempt_blake2f_of_length_eq input hlength] at h
        obtain ⟨last, -, hreturn⟩ := bind_eq_ok_iff.mp h
        cases hreturn
        exact Blake2.length_toBytes _
      · rw [attempt_blake2f_of_length_ne input hlength] at h
        cases h

theorem attempt_blake2f_accepts_iff (input : Bytes) :
    (∃ output, blake2f.attempt input = .ok output) ↔
      input.length = 213 ∧ (input[212]? = some 0 ∨ input[212]? = some 1) := by
  by_cases hlength : input.length = Blake2.inputLength
  · rw [attempt_blake2f_of_length_eq input hlength, ← Blake2.flag_eq_ok_iff hlength]
    refine ⟨?_, ?_⟩
    · rintro ⟨output, h⟩
      obtain ⟨last, hflag, -⟩ := bind_eq_ok_iff.mp h
      exact ⟨hlength, last, hflag⟩
    · rintro ⟨-, last, hflag⟩
      exact ⟨_, bind_eq_ok_iff.mpr ⟨last, hflag, rfl⟩⟩
  · refine ⟨?_, fun h => absurd h.1 hlength⟩
    rintro ⟨output, h⟩
    rw [attempt_blake2f_of_length_ne input hlength] at h
    cases h

theorem exists_execute_of_total {c : Contract}
    (h : c ∈ [ecRecover, sha256, ripemd160, identity]) (input : Bytes) :
    ∃ output, c.execute input = .ok output := by
  simp only [execute_eq_ok_iff]
  simp only [List.mem_cons, List.not_mem_nil, or_false] at h
  rcases h with rfl | rfl | rfl | rfl
  · exact ⟨_, attempt_ecRecover input⟩
  · exact ⟨_, attempt_sha256 input⟩
  · exact ⟨_, attempt_ripemd160 input⟩
  · exact ⟨_, attempt_identity input⟩

theorem execute_blake2f_accepts_iff (input : Bytes) :
    (∃ output, blake2f.execute input = .ok output) ↔
      input.length = 213 ∧ (input[212]? = some 0 ∨ input[212]? = some 1) := by
  simp only [execute_eq_ok_iff]
  exact attempt_blake2f_accepts_iff input

theorem execute_blake2f_of_length_ne {input : Bytes} (h : input.length ≠ 213) :
    blake2f.execute input = .error (.backend "wrong input length for blake2") := by
  rw [execute_eq, attempt_blake2f_of_length_ne input h]
  rfl

theorem toNat_quote_blake2f {input : Bytes} (h : input.length = 213) :
    (blake2f.quote input).toNat = Bytes.value (input.take 4) := by
  have hrounds : 0 + 4 ≤ input.length := by omega
  have hquote : (blake2f.quote input).toNat = input.valueAt 0 4 :=
    Price.toNat_compression input h
  rw [hquote, Bytes.valueAt_of_le_length input 0 4 hrounds]
  rfl

theorem execute_bn254Pairing_of_not_dvd {input : Bytes} (h : ¬ 192 ∣ input.length)
    (pricing : Bn254.Pricing) :
    (bn254Pairing pricing).execute input = .error (.backend "bn128 invalid pair length") := by
  rw [execute_eq, attempt_bn254Pairing, Bn254.wholePairsOutput_of_not_dvd h]
  rfl

theorem execute_bn254Pairing_nil (pricing : Bn254.Pricing) :
    (bn254Pairing pricing).execute [] = .ok (Bytes.ofNat 32 1) := by
  have houtput : Bn254.wholePairsOutput [] =
      .ok (Bytes.ofNat 32 (Bn254.productIsOne []).toNat) := rfl
  rw [execute_eq_ok_iff, attempt_bn254Pairing, houtput, Bn254.productIsOne_nil]
  rfl

end Contract

-- What a compression accepts it has been asked to pay for, round by round. A length that costs
-- nothing is refused.
theorem execution_acceptance_and_form (input : Bytes) :
    (∀ c ∈ [Contract.ecRecover, .sha256, .ripemd160, .identity],
        ∃ output, c.execute input = .ok output) ∧
      ((∃ output, Contract.blake2f.execute input = .ok output) ↔
        input.length = 213 ∧ (input[212]? = some 0 ∨ input[212]? = some 1)) ∧
      (input.length ≠ 213 → Contract.blake2f.quote input = 0 ∧
        Contract.blake2f.execute input = .error (.backend "wrong input length for blake2")) ∧
      (∀ output, Contract.blake2f.execute input = .ok output →
        (Contract.blake2f.quote input).toNat = Bytes.value (input.take 4)) ∧
      (∀ pricing, ¬ 192 ∣ input.length → (Contract.bn254Pairing pricing).execute input =
        .error (.backend "bn128 invalid pair length")) ∧
      (∀ pricing, (Contract.bn254Pairing pricing).execute [] = .ok (Bytes.ofNat 32 1)) ∧
      (∀ (c : Contract) address revision,
        c.execute input ≠ .error (.unavailable address revision)) ∧
      ∀ (c : Contract) output, c.execute input = .ok output → c.HasForm input output := by
  have hpriced : ∀ output, Contract.blake2f.execute input = .ok output →
      (Contract.blake2f.quote input).toNat = Bytes.value (input.take 4) := by
    intro output houtput
    have haccepted := (Contract.execute_blake2f_accepts_iff input).mp ⟨output, houtput⟩
    exact Contract.toNat_quote_blake2f haccepted.1
  have hform : ∀ (c : Contract) output, c.execute input = .ok output → c.HasForm input output := by
    intro c output houtput
    exact Contract.hasForm_of_attempt ((c.execute_eq_ok_iff input output).mp houtput)
  exact ⟨fun c hc => Contract.exists_execute_of_total hc input,
    Contract.execute_blake2f_accepts_iff input,
    fun hlength => ⟨if_neg hlength, Contract.execute_blake2f_of_length_ne hlength⟩,
    hpriced,
    fun pricing hlength => Contract.execute_bn254Pairing_of_not_dvd hlength pricing,
    Contract.execute_bn254Pairing_nil,
    fun c => c.execute_ne_unavailable input,
    hform⟩

-- Two rounds are paid for and done; the same bytes with another flag, or with one more, are not.
theorem compression_of_two_rounds :
    let input := Bytes.ofNat 4 2 ++ Bytes.zeros 208 ++ [1]
    let flagged := Bytes.ofNat 4 2 ++ Bytes.zeros 208 ++ [2]
    (∃ output, Contract.blake2f.execute input = .ok output ∧ output.length = 64) ∧
      (Contract.blake2f.quote input).toNat = 2 ∧
      (¬ ∃ output, Contract.blake2f.execute flagged = .ok output) ∧
      Contract.blake2f.quote (input ++ [0]) = 0 ∧
      Contract.blake2f.execute (input ++ [0]) =
        .error (.backend "wrong input length for blake2") := by
  intro input flagged
  obtain ⟨-, haccepts, -, hpriced, -, -, -, hform⟩ := execution_acceptance_and_form input
  obtain ⟨output, houtput⟩ := haccepts.mpr ⟨by decide +kernel, .inr (by decide +kernel)⟩
  obtain ⟨-, hflagged, -⟩ := execution_acceptance_and_form flagged
  obtain ⟨-, -, hlonger, -⟩ := execution_acceptance_and_form (input ++ [0])
  refine ⟨⟨output, houtput, hform .blake2f output houtput⟩, hpriced output houtput, ?_,
    hlonger (by decide +kernel)⟩
  rw [hflagged]
  decide +kernel

end NativeContracts
