import NativeContracts.Proofs.Contract

namespace NativeContracts

section BinaryPower

variable {α : Type} {mul : α → α → α} {x : α} {power : Nat → α}

-- One digit makes the count twice as large, and the digit adds one.
theorem binaryStep_eq (hdouble : ∀ a, power (2 * a) = mul (power a) (power a))
    (hsucc : ∀ a, power (a + 1) = mul (power a) x) (a : Nat) (digit : Bool) :
    binaryStep mul x (power a) digit = power (2 * a + digit.toNat) := by
  cases digit with
  | false => exact (hdouble a).symm
  | true =>
      have hodd : power (2 * a + 1) = mul (mul (power a) (power a)) x := by
        rw [hsucc, hdouble]
      exact hodd.symm

-- Of the count only the last `width` digits are left to read, in front of which `a` has been read.
theorem foldl_binaryStep (hdouble : ∀ a, power (2 * a) = mul (power a) (power a))
    (hsucc : ∀ a, power (a + 1) = mul (power a) x) (n width a : Nat) :
    ((List.range width).reverse.map n.testBit).foldl (binaryStep mul x) (power a) =
      power (a * 2 ^ width + n % 2 ^ width) := by
  induction width generalizing a with
  | zero => simp [Nat.mod_one]
  | succ width ih =>
      have hcount : (2 * a + (n.testBit width).toNat) * 2 ^ width + n % 2 ^ width =
          a * 2 ^ (width + 1) + n % 2 ^ (width + 1) := by
        rw [Nat.mod_pow_succ, Nat.toNat_testBit]
        ring
      rw [List.range_succ, List.reverse_append, List.reverse_singleton, List.singleton_append,
        List.map_cons, List.foldl_cons, binaryStep_eq hdouble hsucc, ih, hcount]

theorem binaryPower_eq (hdouble : ∀ a, power (2 * a) = mul (power a) (power a))
    (hsucc : ∀ a, power (a + 1) = mul (power a) x) (n : Nat) :
    binaryPower mul (power 0) x n = power n := by
  have hall : n < 2 ^ (n.log2 + 1) := Nat.lt_log2_self
  rw [binaryPower, binaryDigits, foldl_binaryStep hdouble hsucc, Nat.mod_eq_of_lt hall,
    Nat.zero_mul, Nat.zero_add]

end BinaryPower

namespace Modexp

-- Reducing after each step changes nothing but the size of the numbers.
theorem power_eq (base exponent modulus : Nat) :
    power base exponent modulus = if modulus = 0 then 0 else base ^ exponent % modulus := by
  unfold power
  split
  · rfl
  · have hdouble : ∀ a, base ^ (2 * a) % modulus =
        base ^ a % modulus * (base ^ a % modulus) % modulus := by
      intro a
      rw [← Nat.mul_mod, ← pow_add, two_mul]
    have hsucc : ∀ a, base ^ (a + 1) % modulus =
        base ^ a % modulus * (base % modulus) % modulus := by
      intro a
      rw [← Nat.mul_mod, pow_succ]
    have hone : 1 % modulus = base ^ 0 % modulus := by rw [pow_zero]
    rw [hone]
    exact @binaryPower_eq _ _ _ (fun a => base ^ a % modulus) hdouble hsucc exponent

theorem modulusOperand_lt (input : Bytes) :
    modulusOperand input < 256 ^ (Lengths.read input).modulus := by
  have hlength := Bytes.value_lt (input.window
    (96 + (Lengths.read input).base + (Lengths.read input).exponent) (Lengths.read input).modulus)
  rwa [Bytes.length_window] at hlength

-- A remainder has no more bytes than the modulus, so none of its digits is cut off.
theorem value_power (input : Bytes) :
    (Bytes.ofNat (Lengths.read input).modulus
      (power (baseOperand input) (exponentOperand input) (modulusOperand input))).value =
      power (baseOperand input) (exponentOperand input) (modulusOperand input) := by
  rw [Bytes.value_ofNat, Nat.mod_eq_of_lt]
  rw [power_eq]
  split
  · exact Nat.pow_pos (by decide)
  · rename_i hmodulus
    exact (Nat.mod_lt _ (Nat.pos_of_ne_zero hmodulus)).trans (modulusOperand_lt input)

end Modexp

open Modexp (Lengths baseOperand exponentOperand modulusOperand)

-- The operands are taken from the input followed by endless zeros. Modulo zero everything is zero,
-- and `0 ^ 0` is one, which is zero again modulo one. Whatever the price, the outcome is the same.
-- Memory is taken to have no bound, so operands of any length below 2 ^ 64 have a result.
theorem modexp_execution_outcome (pricing : Modexp.Pricing) (input : Bytes) :
    let lengths := Lengths.read input
    let result := (Contract.modexp pricing).execute input
    if 2 ^ 64 ≤ lengths.base then result = .error (.backend "modexp base overflow")
    else if 2 ^ 64 ≤ lengths.modulus then result = .error (.backend "modexp mod overflow")
    else if lengths.base = 0 ∧ lengths.modulus = 0 then result = .ok []
    else if 2 ^ 64 ≤ lengths.exponent then result = .error (.backend "modexp exp overflow")
    else ∃ output, result = .ok output ∧ output.length = lengths.modulus ∧
      output.value = if modulusOperand input = 0 then 0
        else baseOperand input ^ exponentOperand input % modulusOperand input := by
  intro lengths result
  have hlimit : ∀ n, Saturating.limit < n ↔ 2 ^ 64 ≤ n := by
    intro n
    simp only [Saturating.limit]
    omega
  have hempty : lengths.longest = 0 ↔ lengths.base = 0 ∧ lengths.modulus = 0 := by
    simp only [Lengths.longest, Nat.max_eq_zero_iff]
  have hresult : result = (Modexp.attempt input).mapError fun fault => .backend fault.message := by
    rw [← Contract.attempt_modexp pricing, ← Contract.execute_eq]
  simp only [hresult, Modexp.attempt, hlimit, ← hempty]
  split
  · rfl
  split
  · rfl
  split
  · rfl
  split
  · rfl
  refine ⟨_, rfl, Bytes.length_ofNat _ _, ?_⟩
  rw [Modexp.value_power, Modexp.power_eq]

end NativeContracts
